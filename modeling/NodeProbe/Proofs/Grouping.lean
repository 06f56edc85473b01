import NodeProbe.Proofs.Numerals
import NodeProbe.Text.Column

/-!
# Digits in groups

Grouping adds commas to the digits of a number and nothing else, so a grouped number is one solid
cell, and without its commas it is the decimal text of the number. A comma stands where the digits
that follow make whole groups of three, so each comma has digits on both sides.
-/
namespace NodeProbe.Text

def withoutCommas (cs : List Char) : List Char := cs.filter (· ≠ ',')

/-- A digit has a comma behind it when whole groups follow. -/
theorem groupDigits_cons (d : Char) (ds : List Char) :
    groupDigits (d :: ds) =
      if ds ≠ [] ∧ ds.length % 3 = 0 then d :: ',' :: groupDigits ds else d :: groupDigits ds := by
  cases ds with
  | nil => rfl
  | cons e rest => simp [groupDigits]

theorem withoutCommas_groupDigits {ds : List Char} (h : ',' ∉ ds) :
    withoutCommas (groupDigits ds) = ds := by
  unfold withoutCommas
  induction ds with
  | nil => rfl
  | cons d ds ih =>
    simp only [List.mem_cons, not_or] at h
    have hd : d ≠ ',' := Ne.symm h.1
    have hrest := ih h.2
    rw [groupDigits_cons]
    split
    · rw [List.filter_cons_of_pos (by simpa using hd), List.filter_cons_of_neg (by simp), hrest]
    · rw [List.filter_cons_of_pos (by simpa using hd), hrest]

/-- Grouping adds commas and nothing else. -/
theorem mem_groupDigits {c : Char} {ds : List Char} (h : c ∈ groupDigits ds) : c = ',' ∨ c ∈ ds := by
  induction ds with
  | nil => exact .inr h
  | cons d ds ih =>
    have hmem : c = d ∨ c = ',' ∨ c ∈ groupDigits ds := by
      rw [groupDigits_cons] at h
      split at h
      · simpa using h
      · exact (List.mem_cons.mp h).imp_right .inr
    rcases hmem with rfl | rfl | hrest
    · exact .inr List.mem_cons_self
    · exact .inl rfl
    · exact (ih hrest).imp_right (List.mem_cons_of_mem d)

theorem comma_notMem_toDigits (n : Nat) : ',' ∉ Nat.toDigits 10 n := by
  intro hmem
  have hdigit := Number.toDigits_isDigit hmem
  cases hdigit

theorem toList_groupThousands (value : Int64) :
    (groupThousands value).toList =
      if value < 0 then '-' :: groupDigits (Nat.toDigits 10 value.toInt.natAbs)
      else groupDigits (Nat.toDigits 10 value.toInt.natAbs) := String.toList_ofList

/-- Grouping only inserts commas. -/
theorem withoutCommas_groupThousands (value : Int64) :
    withoutCommas (groupThousands value).toList = value.toInt.repr.toList := by
  have hdigits := withoutCommas_groupDigits (comma_notMem_toDigits value.toInt.natAbs)
  have hsign : value < 0 ↔ value.toInt < 0 := by
    rw [Int64.lt_iff_toInt_lt, Int64.toInt_zero]
  rw [toList_groupThousands, Number.toList_repr]
  split
  · next hneg =>
    rw [if_pos (hsign.mp hneg)]
    exact congrArg ('-' :: ·) hdigits
  · next hpos => rw [if_neg (mt hsign.mpr hpos), hdigits]

/-- A grouped number has a minus sign, commas and digits only. -/
theorem mem_groupThousands {c : Char} {value : Int64} (h : c ∈ (groupThousands value).toList) :
    c = '-' ∨ c = ',' ∨ c.isDigit = true := by
  have hdigits : c ∈ groupDigits (Nat.toDigits 10 value.toInt.natAbs) →
      c = '-' ∨ c = ',' ∨ c.isDigit = true := by
    intro hmem
    rcases mem_groupDigits hmem with hcomma | hdigit
    · exact .inr (.inl hcomma)
    · exact .inr (.inr (Number.toDigits_isDigit hdigit))
  rw [toList_groupThousands] at h
  split at h
  · rcases List.mem_cons.mp h with hminus | hmem
    · exact .inl hminus
    · exact hdigits hmem
  · exact hdigits h

theorem isBlank_of_isDigit {c : Char} (h : c.isDigit = true) : isBlank c = false := by
  obtain ⟨hlow, hhigh⟩ := Char.isDigit_iff_toNat.mp h
  change 48 ≤ c.toNat at hlow
  change c.toNat ≤ 57 at hhigh
  unfold isBlank
  simp only [Bool.or_eq_false_iff, Bool.and_eq_false_imp, decide_eq_true_eq, decide_eq_false_iff_not,
    not_le, beq_eq_false_iff_ne, ne_eq]
  omega

/-- A grouped number is one word. -/
theorem solid_groupThousands (value : Int64) : Solid isBlank (groupThousands value).toList := by
  refine ⟨fun hnil => ?_, fun c hc => ?_⟩
  · have hplain := withoutCommas_groupThousands value
    rw [hnil, Number.toList_repr] at hplain
    split at hplain
    · cases hplain
    · exact Nat.toDigits_ne_nil hplain.symm
  · rcases mem_groupThousands hc with rfl | rfl | hdigit
    · decide
    · decide
    · exact isBlank_of_isDigit hdigit

/-! ## The groups -/

/-- The groups of a number: digits, one to three in the first group and three in every other. -/
structure ThousandsGroups (first : List Char) (others : List (List Char)) : Prop where
  digits : ∀ group ∈ first :: others, ∀ c ∈ group, c.isDigit = true
  first_length : 1 ≤ first.length ∧ first.length ≤ 3
  others_length : ∀ group ∈ others, group.length = 3

namespace ThousandsGroups

variable {first : List Char} {others : List (List Char)} {d : Char}

theorem singleton (hd : d.isDigit = true) : ThousandsGroups [d] [] := by
  constructor
  · simpa using hd
  · simp
  · simp

/-- One more digit stands in the first group as long as this has room. -/
theorem cons (h : ThousandsGroups first others) (hd : d.isDigit = true) (hroom : first.length < 3) :
    ThousandsGroups (d :: first) others := by
  obtain ⟨hfirst, hothers⟩ := List.forall_mem_cons.mp h.digits
  constructor
  · exact List.forall_mem_cons.mpr ⟨List.forall_mem_cons.mpr ⟨hd, hfirst⟩, hothers⟩
  · rw [List.length_cons]
    omega
  · exact h.others_length

/-- One more digit in front of a full group begins a group of its own. -/
theorem push (h : ThousandsGroups first others) (hd : d.isDigit = true) (hfull : first.length = 3) :
    ThousandsGroups [d] (first :: others) := by
  constructor
  · exact List.forall_mem_cons.mpr ⟨by simpa using hd, h.digits⟩
  · simp
  · exact List.forall_mem_cons.mpr ⟨hfull, h.others_length⟩

theorem comma_notMem (h : ThousandsGroups first others) : ∀ group ∈ first :: others, ',' ∉ group := by
  intro group hgroup hcomma
  have hdigit := h.digits group hgroup ',' hcomma
  cases hdigit

theorem ne_nil (h : ThousandsGroups first others) : ∀ group ∈ first :: others, group ≠ [] := by
  refine List.forall_mem_cons.mpr ⟨fun hnil => ?_, fun group hgroup hnil => ?_⟩
  · have hpos := h.first_length.1
    rw [hnil] at hpos
    cases hpos
  · have hthree := h.others_length group hgroup
    rw [hnil] at hthree
    cases hthree

end ThousandsGroups

/-- Digits are grouped from the right: their number tells whether the first group is full, and so
whether the digit in front of them has a comma behind it. -/
theorem exists_groups {ds : List Char} (hne : ds ≠ []) (hdigits : ∀ c ∈ ds, c.isDigit = true) :
    ∃ first others, ThousandsGroups first others ∧ ds.length = first.length + 3 * others.length ∧
      groupDigits ds = [','].intercalate (first :: others) := by
  induction ds with
  | nil => exact absurd rfl hne
  | cons d ds ih =>
    obtain ⟨hd, hrest⟩ := List.forall_mem_cons.mp hdigits
    rw [groupDigits_cons]
    by_cases hlast : ds = []
    · subst hlast
      exact ⟨[d], [], .singleton hd, rfl, by simp [groupDigits]⟩
    · obtain ⟨first, others, hgroups, hlength, hds⟩ := ih hlast hrest
      obtain ⟨hpos, hle⟩ := hgroups.first_length
      -- the other groups are whole, so the new digit has a comma behind it when the first one is too
      by_cases hfull : first.length = 3
      · refine ⟨[d], first :: others, hgroups.push hd hfull, ?_, ?_⟩
        · simp only [List.length_cons, List.length_nil]
          omega
        · rw [if_pos ⟨hlast, by omega⟩, hds, List.intercalate_cons_cons]
          rfl
      · refine ⟨d :: first, others, hgroups.cons hd (by omega), ?_, ?_⟩
        · simp only [List.length_cons]
          omega
        · rw [if_neg fun hcomma => by omega, hds]
          cases others with
          | nil => simp
          | cons group others => simp [List.intercalate_cons_cons]

/-! ## The commas -/

/-- When no piece between separators is empty, a separator has text on both sides. -/
theorem around_separator {sep : Char} (before behind : List Char)
    (h : [] ∉ (before ++ sep :: behind).splitOn sep) :
    before ≠ [] ∧ behind ≠ [] ∧ [] ∉ behind.splitOn sep := by
  rw [List.splitOn_append_cons_self, List.mem_append, not_or] at h
  refine ⟨?_, ?_, h.2⟩
  · rintro rfl
    exact h.1 (by simp)
  · rintro rfl
    exact h.2 (by simp)

/-- No comma stands first, last, behind the sign or beside another comma. -/
structure CommasInside (text : List Char) : Prop where
  not_first : text.head? ≠ some ','
  not_last : text.getLast? ≠ some ','
  not_behind_sign : ¬ ['-', ','] <:+: text
  not_doubled : ¬ [',', ','] <:+: text

theorem CommasInside.of_splitOn {body : List Char} (hpieces : [] ∉ body.splitOn ',')
    (hminus : '-' ∉ body) : CommasInside body := by
  constructor
  · intro hfirst
    obtain ⟨rest, rfl⟩ := List.head?_eq_some_iff.mp hfirst
    exact (around_separator [] rest hpieces).1 rfl
  · intro hlast
    obtain ⟨before, rfl⟩ := List.getLast?_eq_some_iff.mp hlast
    exact (around_separator before [] hpieces).2.1 rfl
  · intro hsign
    exact hminus (hsign.subset List.mem_cons_self)
  · rintro ⟨before, behind, rfl⟩
    rw [List.append_assoc] at hpieces
    have hsecond := (around_separator before (',' :: behind) hpieces).2.2
    exact (around_separator [] behind hsecond).1 rfl

/-- A minus sign in front changes nothing for the commas. -/
theorem CommasInside.behind_minus {body : List Char} (h : CommasInside body) (hminus : '-' ∉ body) :
    CommasInside ('-' :: body) := by
  constructor
  · simp
  · rw [List.getLast?_cons]
    cases hlast : body.getLast? with
    | none => simp
    | some c =>
      have hc := h.not_last
      rwa [hlast] at hc
  · intro hsign
    rcases List.infix_cons_iff.mp hsign with hlead | hinside
    · obtain ⟨rest, hrest⟩ := (List.cons_prefix_cons.mp hlead).2
      exact h.not_first (by rw [← hrest]; rfl)
    · exact hminus (hinside.subset List.mem_cons_self)
  · intro hdoubled
    rcases List.infix_cons_iff.mp hdoubled with hlead | hinside
    · cases (List.cons_prefix_cons.mp hlead).1
    · exact h.not_doubled hinside

/-- Grouping is faithful. Without its commas the text of a number is its decimal text. Behind the
sign, which only a negative number has, the commas divide the digits into a first group of one to
three and further groups of three, so every comma has a digit on each side. -/
theorem digits_grouped_in_thousands (value : Int64) :
    let text := (groupThousands value).toList
    withoutCommas text = value.toInt.repr.toList ∧
    (∃ body first others, text = (if value < 0 then '-' :: body else body) ∧
      body.splitOn ',' = first :: others ∧ ThousandsGroups first others) ∧
    CommasInside text := by
  intro text
  let digits := Nat.toDigits 10 value.toInt.natAbs
  have hdigits : ∀ c ∈ digits, c.isDigit = true := fun c => Number.toDigits_isDigit
  have htext : text = if value < 0 then '-' :: groupDigits digits else groupDigits digits :=
    toList_groupThousands value
  obtain ⟨first, others, hgroups, -, hbody⟩ := exists_groups Nat.toDigits_ne_nil hdigits
  have hsplit : (groupDigits digits).splitOn ',' = first :: others := by
    rw [hbody]
    exact List.splitOn_intercalate ',' hgroups.comma_notMem (List.cons_ne_nil _ _)
  have hminus : '-' ∉ groupDigits digits := by
    intro hmem
    rcases mem_groupDigits hmem with hcomma | hdigit
    · cases hcomma
    · cases hdigits _ hdigit
  have hinside : CommasInside (groupDigits digits) :=
    .of_splitOn (fun hnil => hgroups.ne_nil [] (hsplit ▸ hnil) rfl) hminus
  refine ⟨withoutCommas_groupThousands value, ⟨_, first, others, htext, hsplit, hgroups⟩, ?_⟩
  rw [htext]
  split
  · exact hinside.behind_minus hminus
  · exact hinside

example : groupThousands Int64.minValue = "-9,223,372,036,854,775,808" := by decide

end NodeProbe.Text
