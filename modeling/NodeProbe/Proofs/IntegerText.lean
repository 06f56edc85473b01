import NodeProbe.Proofs.Numerals
import NodeProbe.Proofs.WellTyped

/-!
# The texts of an integer

An integer is spelled by an optional sign and then its digits, in decimal or behind `0x`. Every
such text converts to the integer that it spells, whatever zeros, underscores and blanks it has.
Conversion accepts one thing more: a second sign behind `0x`.
-/
namespace NodeProbe

open Number Text

/-! ## The grammar -/

/-- The texts of an integer without blanks and underscores: an optional sign, then decimal digits
or, behind `0x`, hexadecimal digits. -/
inductive Spells : List Char → Int → Prop where
  | decimal {sign digits : List Char} {s : Int} {n : Nat} (hsign : Sign sign s)
    (hdigits : Numeral 10 digits n) : Spells (sign ++ digits) (s * n)
  | hexadecimal {sign digits : List Char} {x : Char} {s : Int} {n : Nat} (hsign : Sign sign s)
    (hx : x = 'x' ∨ x = 'X') (hdigits : Numeral 16 digits n) :
    Spells (sign ++ '0' :: x :: digits) (s * n)

/-- A second sign stands behind `0x`. -/
def SignBehindPrefix (text : List Char) : Prop :=
  ∃ sign s x c rest, Sign sign s ∧ (x = 'x' ∨ x = 'X') ∧ (c = '+' ∨ c = '-') ∧
    text = sign ++ '0' :: x :: c :: rest

/-- The texts with a second sign behind `0x` that are read as a number. -/
inductive SpellsTwice : List Char → Int → Prop where
  | mk {outer inner digits : List Char} {x : Char} {s s' : Int} {n : Nat} (houter : Sign outer s)
    (hx : x = 'x' ∨ x = 'X') (hinner : Sign inner s') (hne : inner ≠ [])
    (hdigits : Numeral 16 digits n) : SpellsTwice (outer ++ '0' :: x :: (inner ++ digits)) (s * (s' * n))

theorem SpellsTwice.signBehindPrefix {text : List Char} {n : Int} (h : SpellsTwice text n) :
    SignBehindPrefix text := by
  cases h with
  | mk houter hx hinner hne hdigits =>
    cases hinner with
    | none => exact absurd rfl hne
    | plus => exact ⟨_, _, _, '+', _, houter, hx, .inl rfl, rfl⟩
    | minus => exact ⟨_, _, _, '-', _, houter, hx, .inr rfl, rfl⟩

/-- Behind the first character there is no sign. -/
theorem Spells.notMem_tail {text : List Char} {n : Int} (h : Spells text n) {c : Char}
    (hc : c = '+' ∨ c = '-') : c ∉ text.tail := by
  -- a sign is at most one character, so the tail is part of the body
  have hbody : ∀ {sign body : List Char} {s : Int}, Sign sign s → c ∉ body →
      c ∉ (sign ++ body).tail := by
    intro sign body s hsign hnot hmem
    cases hsign with
    | none => exact hnot (List.mem_of_mem_tail hmem)
    | plus => exact hnot hmem
    | minus => exact hnot hmem
  cases h with
  | decimal hsign hdigits =>
    refine hbody hsign (hdigits.notMem (by decide) ?_)
    rcases hc with rfl | rfl <;> decide
  | hexadecimal hsign hx hdigits =>
    refine hbody hsign ?_
    have hnot : c ∉ _ := hdigits.notMem (by decide) (by rcases hc with rfl | rfl <;> decide)
    rw [List.mem_cons, List.mem_cons, not_or, not_or]
    refine ⟨?_, ?_, hnot⟩
    · rcases hc with rfl | rfl <;> decide
    · rcases hc with rfl | rfl <;> rcases hx with rfl | rfl <;> decide

theorem Spells.not_signBehindPrefix {text : List Char} {n : Int} (h : Spells text n) :
    ¬ SignBehindPrefix text := by
  rintro ⟨sign, s, x, c, rest, hsign, -, hc, rfl⟩
  refine h.notMem_tail hc ?_
  cases hsign <;> simp

/-! ## Reading -/

namespace Conversion

/-- The number that stands behind the sign, with a sign of its own behind `0x`. -/
def magnitude? : List Char → Option Int
  | [] | '+' :: _ | '-' :: _ => none
  | '0' :: 'x' :: hex | '0' :: 'X' :: hex => (Number.readInteger 16 integerLimit hex).toOption
  | decimal => (Number.readInteger 10 integerLimit decimal).toOption

theorem readInteger?_eq (cs : List Char) : readInteger? cs =
    (magnitude? (splitSign (cs.filter (· ≠ '_'))).2).map fun n =>
      if (splitSign (cs.filter (· ≠ '_'))).1 then -n else n := rfl

theorem exists_of_toOption {α ε : Type} {result : Except ε α} {a : α}
    (h : result.toOption = some a) : result = .ok a := by
  cases result with
  | error e => cases h
  | ok b =>
    cases h
    rfl

/-- What stands behind the sign is a number in decimal or in hexadecimal, or has a second sign
behind `0x`. -/
theorem magnitude?_sound {body sign : List Char} {s m : Int} (hsign : Sign sign s)
    (h : magnitude? body = some m) :
    Spells (sign ++ body) (s * m) ∨ SpellsTwice (sign ++ body) (s * m) := by
  have hprefix : ∀ {x : Char} {hex : List Char}, x = 'x' ∨ x = 'X' →
      (Number.readInteger 16 integerLimit hex).toOption = some m →
      Spells (sign ++ '0' :: x :: hex) (s * m) ∨ SpellsTwice (sign ++ '0' :: x :: hex) (s * m) := by
    intro x hex hx hread
    obtain ⟨inner, s', digits, n, hinner, rfl, hdigits, rfl⟩ :=
      readInteger_sound (by decide) (by decide) (exists_of_toOption hread)
    by_cases hnone : inner = []
    · subst hnone
      cases hinner
      rw [one_mul]
      exact .inl (.hexadecimal hsign hx hdigits)
    · exact .inr (.mk hsign hx hinner hnone hdigits)
  unfold magnitude? at h
  split at h
  · cases h
  · cases h
  · cases h
  · exact hprefix (.inl rfl) h
  · exact hprefix (.inr rfl) h
  · next _ hplus hminus _ _ =>
    obtain ⟨inner, s', digits, n, hinner, rfl, hdigits, rfl⟩ :=
      readInteger_sound (by decide) (by decide) (exists_of_toOption h)
    cases hinner with
    | none =>
      rw [one_mul]
      exact .inl (.decimal hsign hdigits)
    -- a sign was taken before
    | plus => exact (hplus digits rfl).elim
    | minus => exact (hminus digits rfl).elim

theorem magnitude?_decimal {digits : List Char} {n : Nat} (h : Numeral 10 digits n)
    (hlimit : n ≤ integerLimit) : magnitude? digits = some (n : Int) := by
  have hunsigned := h.unsigned (by decide)
  unfold magnitude?
  split
  · exact absurd rfl h.1
  · exact absurd rfl hunsigned.1
  · exact absurd rfl hunsigned.2
  · exact absurd (by simp) (h.notMem (x := 'x') (by decide) (by decide))
  · exact absurd (by simp) (h.notMem (x := 'X') (by decide) (by decide))
  · rw [readInteger_numeral (by decide) (by decide) h hlimit]
    rfl

theorem magnitude?_hexadecimal {x : Char} (hx : x = 'x' ∨ x = 'X') {digits : List Char} {n : Nat}
    (h : Numeral 16 digits n) (hlimit : n ≤ integerLimit) :
    magnitude? ('0' :: x :: digits) = some (n : Int) := by
  have hread := readInteger_numeral (by decide) (by decide) h hlimit
  rcases hx with rfl | rfl
  · rw [magnitude?, hread]
    rfl
  · rw [magnitude?, hread]
    rfl

/-- Every number that is read was spelled, perhaps with a second sign. -/
theorem readInteger?_sound {cs : List Char} {n : Int} (h : readInteger? cs = some n) :
    Spells (cs.filter (· ≠ '_')) n ∨ SpellsTwice (cs.filter (· ≠ '_')) n := by
  obtain ⟨sign, hsign, hcs⟩ := splitSign_spec (cs.filter (· ≠ '_'))
  rw [readInteger?_eq] at h
  obtain ⟨m, hm, hn⟩ := Option.map_eq_some_iff.mp h
  have hvalue : (if (splitSign (cs.filter (· ≠ '_'))).1 = true then -1 else 1) * m = n := by
    rw [← hn]
    cases (splitSign (cs.filter (· ≠ '_'))).1 <;> simp
  rw [hcs, ← hvalue]
  exact magnitude?_sound hsign hm

/-- Every spelling within the limit of the reader is read. -/
theorem readInteger?_complete {cs text : List Char} {n : Int}
    (htext : cs.filter (· ≠ '_') = text) (h : Spells text n) (hlimit : n.natAbs ≤ integerLimit) :
    readInteger? cs = some n := by
  rw [readInteger?_eq, htext]
  cases h with
  | @decimal _ _ _ m hsign hdigits =>
    obtain ⟨hm, hn⟩ := hsign.signed m
    rw [splitSign_append hsign (hdigits.unsigned (by decide)),
      magnitude?_decimal hdigits (hm ▸ hlimit)]
    exact congrArg some hn
  | @hexadecimal _ _ _ _ m hsign hx hdigits =>
    obtain ⟨hm, hn⟩ := hsign.signed m
    rw [splitSign_append hsign ⟨by simp, by simp⟩, magnitude?_hexadecimal hx hdigits (hm ▸ hlimit)]
    exact congrArg some hn

end Conversion

/-! ## Converting -/

/-- The value of an integer type that stands for a number. -/
def ValueType.Holds (t : ValueType) (v : Value) (n : Int) : Prop :=
  if t.isUnsigned then ∃ word : UInt64, v = .unsigned word ∧ (word.toNat : Int) = n
  else ∃ word : Int64, v = .signed word ∧ word.toInt = n

/-- A type holds a number in one way only. -/
theorem ValueType.Holds.unique {t : ValueType} {v v' : Value} {n : Int} (h : t.Holds v n)
    (h' : t.Holds v' n) : v = v' := by
  unfold ValueType.Holds at h h'
  split at h
  · rw [if_pos ‹_›] at h'
    obtain ⟨word, rfl, hword⟩ := h
    obtain ⟨word', rfl, hword'⟩ := h'
    rw [UInt64.toNat_inj.mp (by omega : word.toNat = word'.toNat)]
  · rw [if_neg ‹_›] at h'
    obtain ⟨word, rfl, hword⟩ := h
    obtain ⟨word', rfl, hword'⟩ := h'
    rw [Int64.toInt_inj.mp (hword.trans hword'.symm)]

namespace Conversion

variable {t : ValueType} {least largest : Int} (hrange : t.integerRange? = some (least, largest))
include hrange

theorem convert_eq_integer (raw : List Char) : convert raw t = integer raw t := by
  cases t <;> cases hrange <;> rfl

/-- The ranges of all integer types lie within the limit of the reader. -/
theorem natAbs_le_integerLimit {n : Int} (hlow : least ≤ n) (hhigh : n ≤ largest) :
    n.natAbs ≤ integerLimit := by
  cases hu : t.isUnsigned with
  | true =>
    have := t.range_unsigned hrange hu
    unfold integerLimit
    omega
  | false =>
    have := t.range_signed hrange hu
    unfold integerLimit
    omega

/-- A number of the range is held by the word of its type. -/
theorem convert_of_read {raw : List Char} {n : Int} (hread : readInteger? (trim raw) = some n)
    (hlow : least ≤ n) (hhigh : n ≤ largest) : ∃ v, convert raw t = .ok v ∧ t.Holds v n := by
  have hin : ¬ (n < least ∨ largest < n) := by omega
  rw [convert_eq_integer hrange]
  unfold integer ValueType.Holds
  rw [hrange]
  dsimp only
  rw [hread]
  dsimp only
  rw [if_neg hin]
  cases hu : t.isUnsigned with
  | true =>
    obtain ⟨hl, hr⟩ := t.range_unsigned hrange hu
    have hword : (UInt64.ofNat n.toNat).toNat = n.toNat :=
      UInt64.toNat_ofNat_of_lt' (by have h64 : UInt64.size = 2 ^ 64 := rfl; omega)
    exact ⟨_, rfl, _, rfl, by omega⟩
  | false =>
    obtain ⟨hl, hr⟩ := t.range_signed hrange hu
    exact ⟨_, rfl, _, rfl, Int64.toInt_ofInt_of_le (by omega) (by omega)⟩

theorem exists_read_of_convert {raw : List Char} {v : Value} (h : convert raw t = .ok v) :
    ∃ n, readInteger? (trim raw) = some n ∧ least ≤ n ∧ n ≤ largest := by
  rw [convert_eq_integer hrange] at h
  unfold integer at h
  rw [hrange] at h
  dsimp only at h
  split at h
  · cases h
  · next n hread =>
    split at h
    · cases h
    · next hin => exact ⟨n, hread, by omega, by omega⟩

/-- What is converted to an integer type is the number that is read, if it is in the range. -/
theorem convert_integer_eq_ok {raw : List Char} {v : Value} : convert raw t = .ok v ↔
    ∃ n, readInteger? (trim raw) = some n ∧ least ≤ n ∧ n ≤ largest ∧ t.Holds v n := by
  constructor
  · intro h
    obtain ⟨n, hread, hlow, hhigh⟩ := exists_read_of_convert hrange h
    obtain ⟨v', hv', hholds⟩ := convert_of_read hrange hread hlow hhigh
    cases h.symm.trans hv'
    exact ⟨n, hread, hlow, hhigh, hholds⟩
  · rintro ⟨n, hread, hlow, hhigh, hholds⟩
    obtain ⟨v', hv', hholds'⟩ := convert_of_read hrange hread hlow hhigh
    rw [hv', hholds.unique hholds']

end Conversion

/-- Every text that converts to an integer type stands for a number of the range, and the value is
exactly that number. Without its blanks and underscores the text spells the number by the grammar,
unless a second sign stands behind `0x`: that sign is read as well. -/
theorem accepted_integer_follows_grammar_iff {t : ValueType} {least largest : Int}
    (hrange : t.integerRange? = some (least, largest)) {raw : String} {v : Value}
    (h : t.convert raw = .ok v) :
    let text := (trim raw.toList).filter (· ≠ '_')
    ∃ n, least ≤ n ∧ n ≤ largest ∧ t.Holds v n ∧ (Spells text n ↔ ¬ SignBehindPrefix text) ∧
      (SignBehindPrefix text → SpellsTwice text n) := by
  intro text
  obtain ⟨n, hread, hlow, hhigh, hholds⟩ := (Conversion.convert_integer_eq_ok hrange).mp h
  refine ⟨n, hlow, hhigh, hholds, ?_⟩
  rcases Conversion.readInteger?_sound hread with hspells | htwice
  · have hnone := hspells.not_signBehindPrefix
    exact ⟨iff_of_true hspells hnone, fun hsecond => absurd hsecond hnone⟩
  · have hsecond := htwice.signBehindPrefix
    exact ⟨iff_of_false (fun hspells => hspells.not_signBehindPrefix hsecond) (not_not_intro hsecond),
      fun _ => htwice⟩

theorem hexadecimal_follows_grammar :
    let text := "-0x7F".toList
    (trim "\t-_0x7_F ".toList).filter (· ≠ '_') = text ∧
    ValueType.i8.convert "\t-_0x7_F " = .ok (.signed (-127)) ∧
    ∃ n, ValueType.i8.Holds (.signed (-127)) n ∧ Spells text n := by
  intro text
  have hvalue : ValueType.i8.convert "\t-_0x7_F " = .ok (.signed (-127)) := by
    have hword : (-127 : Int64) = Int64.ofInt (-127) := by decide
    rw [hword]
    rfl
  obtain ⟨n, -, -, hholds, hspells, -⟩ := accepted_integer_follows_grammar_iff (t := .i8) rfl hvalue
  refine ⟨rfl, hvalue, n, hholds, hspells.mpr ?_⟩
  rintro ⟨sign, s, x, c, rest, hsign, -, hc, htext⟩
  cases hsign with
  | none => cases htext
  | plus => cases htext
  | minus =>
    cases htext
    rcases hc with hc | hc <;> cases hc

/-- `0x+5` is converted, but it spells no number. -/
theorem sign_behind_prefix_accepted :
    ValueType.u8.convert "0x+5" = .ok (.unsigned 5) ∧
    ¬ ∃ n, Spells ((trim "0x+5".toList).filter (· ≠ '_')) n := by
  refine ⟨rfl, ?_⟩
  rintro ⟨n, hspells⟩
  exact hspells.not_signBehindPrefix ⟨[], 1, 'x', '+', ['5'], .none, .inl rfl, .inl rfl, rfl⟩

/-! ## Every spelling -/

inductive SignOf (n : Int) : List Char → Prop where
  | none (h : 0 ≤ n) : SignOf n []
  | plus (h : 0 ≤ n) : SignOf n ['+']
  | minus (h : n ≤ 0) : SignOf n ['-']

/-- The ways to write an integer: its digits in decimal, or in hexadecimal behind `0x` and in any
case, behind any zeros and a sign. -/
inductive Writes (n : Int) : List Char → Prop where
  | decimal {sign : List Char} (zeros : Nat) (hsign : SignOf n sign) :
    Writes n (sign ++ (List.replicate zeros '0' ++ Nat.toDigits 10 n.natAbs))
  | hexadecimal {sign digits : List Char} {x : Char} (zeros : Nat) (hsign : SignOf n sign)
    (hx : x = 'x' ∨ x = 'X') (hdigits : digits.map Char.toLower = Nat.toDigits 16 n.natAbs) :
    Writes n (sign ++ '0' :: x :: (List.replicate zeros '0' ++ digits))

/-- Any number of underscores is inserted at any places of a text. -/
inductive Underscored : List Char → List Char → Prop where
  | nil : Underscored [] []
  | keep (c : Char) {plain text : List Char} (h : Underscored plain text) :
    Underscored (c :: plain) (c :: text)
  | insert {plain text : List Char} (h : Underscored plain text) : Underscored plain ('_' :: text)

theorem SignOf.sign {n : Int} {sign : List Char} (h : SignOf n sign) :
    ∃ s, Sign sign s ∧ s * (n.natAbs : Int) = n := by
  cases h with
  | none h => exact ⟨1, .none, by omega⟩
  | plus h => exact ⟨1, .plus, by omega⟩
  | minus h => exact ⟨-1, .minus, by omega⟩

/-- Zeros in front and upper case do not change the number that a text spells. -/
theorem Writes.spells {n : Int} {text : List Char} (h : Writes n text) : Spells text n := by
  cases h with
  | decimal zeros hsign =>
    obtain ⟨s, hs, hn⟩ := hsign.sign
    have hdigits : (Nat.toDigits 10 n.natAbs).map Char.toLower = Nat.toDigits 10 n.natAbs :=
      toDigits_toLower (by decide) (by decide) n.natAbs
    have hspells := Spells.decimal hs (numeral_of_toDigits (by decide) hdigits zeros)
    rwa [hn] at hspells
  | hexadecimal zeros hsign hx hdigits =>
    obtain ⟨s, hs, hn⟩ := hsign.sign
    have hspells := Spells.hexadecimal hs hx (numeral_of_toDigits (by decide) hdigits zeros)
    rwa [hn] at hspells

theorem Underscored.refl (text : List Char) : Underscored text text := by
  induction text with
  | nil => exact .nil
  | cons c text ih => exact .keep c ih

theorem Underscored.filter_eq {plain text : List Char} (h : Underscored plain text)
    (hplain : '_' ∉ plain) : text.filter (· ≠ '_') = plain := by
  induction h with
  | nil => rfl
  | keep c _ ih =>
    rw [List.mem_cons, not_or] at hplain
    rw [List.filter_cons_of_pos (by simpa using Ne.symm hplain.1), ih hplain.2]
  | insert _ ih => rw [List.filter_cons_of_neg (by simp), ih hplain]

theorem Underscored.mem {plain text : List Char} (h : Underscored plain text) {c : Char}
    (hc : c ∈ text) : c = '_' ∨ c ∈ plain := by
  induction h with
  | nil => cases hc
  | keep d _ ih =>
    rcases List.mem_cons.mp hc with rfl | hc
    · exact .inr List.mem_cons_self
    · exact (ih hc).imp_right (List.mem_cons_of_mem _)
  | insert _ ih =>
    rcases List.mem_cons.mp hc with rfl | hc
    · exact .inl rfl
    · exact ih hc

theorem Spells.mem {text : List Char} {n : Int} (h : Spells text n) {c : Char} (hc : c ∈ text) :
    c ∈ ['+', '-', 'x', 'X'] ∨ (digit? 16 c).isSome := by
  have hsigns : ∀ {sign : List Char} {s : Int}, Sign sign s → c ∈ sign → c ∈ ['+', '-', 'x', 'X'] := by
    intro sign s hsign hmem
    cases hsign with
    | none => cases hmem
    | plus =>
      rw [List.mem_singleton.mp hmem]
      decide
    | minus =>
      rw [List.mem_singleton.mp hmem]
      decide
  cases h with
  | decimal hsign hdigits =>
    refine (List.mem_append.mp hc).imp (hsigns hsign) fun hmem => ?_
    exact hdigits.digit?_isSome (by decide) c hmem
  | hexadecimal hsign hx hdigits =>
    rcases List.mem_append.mp hc with hmem | hmem
    · exact .inl (hsigns hsign hmem)
    · rcases List.mem_cons.mp hmem with rfl | hmem
      · exact .inr (by decide)
      · rcases List.mem_cons.mp hmem with rfl | hmem
        · left
          rcases hx with rfl | rfl <;> decide
        · exact .inr (hdigits.digit?_isSome (by decide) c hmem)

/-- A test that fails on signs, on the letters of the prefix and on digits fails all along a
spelling. -/
theorem Spells.test {text : List Char} {n : Int} (h : Spells text n) {p : Char → Bool}
    (hp : ∀ n < 128, Char.ofNat n ∈ ['+', '-', 'x', 'X'] ∨ (digit? 16 (Char.ofNat n)).isSome →
      p (Char.ofNat n) = false) : ∀ c ∈ text, p c = false := by
  intro c hc
  have hclass := h.mem hc
  have hascii : c.toNat < 128 := by
    rcases hclass with hsign | hdigit
    · have hall : ['+', '-', 'x', 'X'].all (fun x => x.toNat < 128) = true := rfl
      exact of_decide_eq_true (List.all_eq_true.mp hall c hsign)
    · refine Nat.lt_of_not_le fun hge => ?_
      rw [digit?_not_ascii hge] at hdigit
      cases hdigit
  have htest := hp c.toNat hascii
  rw [Char.ofNat_toNat] at htest
  exact htest hclass

theorem Spells.not_blank {text : List Char} {n : Int} (h : Spells text n) :
    ∀ c ∈ text, isBlank c = false := h.test (by decide +kernel)

theorem Spells.no_underscore {text : List Char} {n : Int} (h : Spells text n) : '_' ∉ text := by
  have htest : ∀ c ∈ text, (c == '_') = false := h.test (by decide +kernel)
  exact fun hc => absurd (htest '_' hc) (by decide)

theorem Spells.ne_nil {text : List Char} {n : Int} (h : Spells text n) : text ≠ [] := by
  cases h with
  | decimal hsign hdigits => exact List.append_ne_nil_of_right_ne_nil _ hdigits.1
  | hexadecimal hsign hx hdigits => exact List.append_ne_nil_of_right_ne_nil _ (List.cons_ne_nil _ _)

/-- A number of the range converts from its spelling, with underscores anywhere in it. -/
theorem Conversion.convert_of_spells {t : ValueType} {least largest : Int}
    (hrange : t.integerRange? = some (least, largest)) {n : Int} (hlow : least ≤ n)
    (hhigh : n ≤ largest) {plain spaced raw : List Char} (hplain : Spells plain n)
    (hspaced : Underscored plain spaced) (hpadded : Padded spaced raw) :
    ∃ v, convert raw t = .ok v ∧ t.Holds v n := by
  have hblank : ∀ c ∈ spaced, isBlank c = false := by
    intro c hc
    rcases hspaced.mem hc with rfl | hc
    · decide
    · exact hplain.not_blank c hc
  have htrim : trim raw = spaced := hpadded.trim_of_trimmed (trim_of_no_blank hblank)
  refine convert_of_read hrange ?_ hlow hhigh
  rw [htrim]
  exact readInteger?_complete (hspaced.filter_eq hplain.no_underscore) hplain
    (natAbs_le_integerLimit hrange hlow hhigh)

/-- Every spelling of every number in the range of an integer type converts to the value that is
exactly that number. -/
theorem every_spelling_converts {t : ValueType} {least largest : Int}
    (hrange : t.integerRange? = some (least, largest)) {n : Int} (hlow : least ≤ n)
    (hhigh : n ≤ largest) {plain spaced : List Char} {text : String} (hplain : Writes n plain)
    (hspaced : Underscored plain spaced) (hpadded : Padded spaced text.toList) :
    ∃ v, t.convert text = .ok v ∧ t.Holds v n :=
  Conversion.convert_of_spells hrange hlow hhigh hplain.spells hspaced hpadded

/-- The largest value of a type, with everything that a spelling may have. -/
theorem largest_byte_converts :
    Writes 255 "+0X0fF".toList ∧ Underscored "+0X0fF".toList "+_0X_0f__F_".toList ∧
    ValueType.u8.convert "\u3000+_0X_0f__F_\n" = .ok (.unsigned 255) := by
  have hwrites : Writes 255 "+0X0fF".toList :=
    @Writes.hexadecimal 255 ['+'] ['f', 'F'] 'X' 1 (.plus (by decide)) (.inr rfl) (by decide)
  have hspaced : Underscored "+0X0fF".toList "+_0X_0f__F_".toList :=
    .keep _ <| .insert <| .keep _ <| .keep _ <| .insert <| .keep _ <| .keep _ <| .insert <|
      .insert <| .keep _ <| .insert .nil
  have hpadded : Padded "+_0X_0f__F_".toList "\u3000+_0X_0f__F_\n".toList :=
    ⟨['\u3000'], ['\n'], List.all_eq_true.mp rfl, List.all_eq_true.mp rfl, rfl⟩
  obtain ⟨v, hv, hholds⟩ :=
    every_spelling_converts (t := .u8) rfl (by decide) (by decide) hwrites hspaced hpadded
  have hbyte : ValueType.u8.Holds (.unsigned 255) 255 := ⟨255, rfl, rfl⟩
  refine ⟨hwrites, hspaced, ?_⟩
  rw [hv, hholds.unique hbyte]

end NodeProbe
