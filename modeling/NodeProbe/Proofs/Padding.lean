import Mathlib.Data.List.TakeWhile
import NodeProbe.Text.Blank
import NodeProbe.Text.Cut

/-!
# Blanks around a text and separators between its pieces

Trimming takes away the blanks that stand around a text and nothing else. The pieces of a text
are its stretches without a separator, however many separators stand around them. Neither
depends on the case of letters.
-/
namespace NodeProbe.Text

/-! ## Padding -/

/-- `padded` is `text` with any blanks before and behind it. -/
def Padded (text padded : List Char) : Prop :=
  ∃ before behind, (∀ c ∈ before, isBlank c = true) ∧ (∀ c ∈ behind, isBlank c = true) ∧
    padded = before ++ text ++ behind

theorem Padded.refl (text : List Char) : Padded text text :=
  ⟨[], [], List.forall_mem_nil _, List.forall_mem_nil _, (List.append_nil text).symm⟩

theorem dropWhile_blank {cs : List Char} (h : ∀ c ∈ cs, isBlank c = true) :
    cs.dropWhile isBlank = [] := List.dropWhile_eq_nil_iff.mpr h

theorem trimEnd_append {behind : List Char} (h : ∀ c ∈ behind, isBlank c = true) (cs : List Char) :
    trimEnd (cs ++ behind) = trimEnd cs := by
  unfold trimEnd
  rw [List.reverse_append,
    List.dropWhile_append_of_pos fun c hc => h c (List.mem_reverse.mp hc)]

theorem Padded.trim_eq {text padded : List Char} (h : Padded text padded) :
    trim padded = trim text := by
  obtain ⟨before, behind, hbefore, hbehind, rfl⟩ := h
  unfold trim trimStart
  rw [List.append_assoc, List.dropWhile_append_of_pos hbefore, List.dropWhile_append]
  -- when the text is blank itself, nothing is left of either side
  cases hstart : text.dropWhile isBlank with
  | nil => simp [dropWhile_blank hbehind]
  | cons c cs => simpa using trimEnd_append hbehind (c :: cs)

/-- Every text is its trimmed form with blanks around it. -/
theorem padded_trim (cs : List Char) : Padded (trim cs) cs := by
  refine ⟨cs.takeWhile isBlank, ((trimStart cs).reverse.takeWhile isBlank).reverse,
    fun c hc => List.mem_takeWhile_imp hc,
    fun c hc => List.mem_takeWhile_imp (List.mem_reverse.mp hc), ?_⟩
  have hend : trim cs ++ ((trimStart cs).reverse.takeWhile isBlank).reverse = trimStart cs := by
    unfold trim trimEnd
    rw [← List.reverse_append, List.takeWhile_append_dropWhile, List.reverse_reverse]
  rw [List.append_assoc, hend]
  exact List.takeWhile_append_dropWhile.symm

theorem trim_trim (cs : List Char) : trim (trim cs) = trim cs := (padded_trim cs).trim_eq.symm

/-- A trimmed text is read back from any padding. -/
theorem Padded.trim_of_trimmed {text padded : List Char} (h : Padded text padded)
    (htrimmed : trim text = text) : trim padded = text := h.trim_eq.trans htrimmed

theorem Padded.notMem {text padded : List Char} (h : Padded text padded) {c : Char}
    (hblank : isBlank c = false) (hc : c ∉ text) : c ∉ padded := by
  obtain ⟨before, behind, hbefore, hbehind, rfl⟩ := h
  have hnone : ∀ cs : List Char, (∀ c ∈ cs, isBlank c = true) → c ∉ cs := by
    intro cs hcs hmem
    rw [hcs c hmem] at hblank
    cases hblank
  simp only [List.mem_append, not_or]
  exact ⟨⟨hnone before hbefore, hc⟩, hnone behind hbehind⟩

/-- Trimming takes away nothing but blanks. -/
theorem mem_trim {cs : List Char} {c : Char} (hc : c ∈ cs) (hblank : isBlank c = false) :
    c ∈ trim cs := by
  by_contra hnone
  exact (padded_trim cs).notMem hblank hnone hc

theorem trim_eq_nil {cs : List Char} : trim cs = [] ↔ ∀ c ∈ cs, isBlank c = true := by
  constructor
  · intro hnil c hc
    by_contra hblank
    have hkept := mem_trim hc (Bool.not_eq_true _ ▸ hblank)
    rw [hnil] at hkept
    cases hkept
  · intro hblank
    have hpadded : Padded [] cs := ⟨cs, [], hblank, List.forall_mem_nil _, by simp⟩
    exact hpadded.trim_eq

theorem mem_of_mem_trim {cs : List Char} {c : Char} (h : c ∈ trim cs) : c ∈ cs := by
  obtain ⟨before, behind, -, -, hcs⟩ := padded_trim cs
  rw [hcs]
  simp [h]

/-! ## Pieces -/

section Pieces

variable {p : Char → Bool}

theorem pieces_append_cons {sep : Char} (h : p sep = true) (before behind : List Char) :
    pieces p (before ++ sep :: behind) = pieces p before ++ pieces p behind := by
  unfold pieces
  rw [List.splitOnP_append_cons before behind h, List.filter_append]

theorem pieces_separators {cs : List Char} (h : ∀ c ∈ cs, p c = true) : pieces p cs = [] := by
  induction cs with
  | nil => rfl
  | cons c cs ih =>
    obtain ⟨hc, hcs⟩ := List.forall_mem_cons.mp h
    have hcut := pieces_append_cons hc [] cs
    rw [List.nil_append] at hcut
    rw [hcut, ih hcs]
    rfl

theorem pieces_append_separators {cs : List Char} (h : ∀ c ∈ cs, p c = true) (before : List Char) :
    pieces p (before ++ cs) = pieces p before := by
  cases cs with
  | nil => rw [List.append_nil]
  | cons c cs =>
    obtain ⟨hc, hcs⟩ := List.forall_mem_cons.mp h
    rw [pieces_append_cons hc, pieces_separators hcs, List.append_nil]

/-- Separators in front give no piece. -/
theorem pieces_separators_append {cs : List Char} (h : ∀ c ∈ cs, p c = true) (behind : List Char) :
    pieces p (cs ++ behind) = pieces p behind := by
  induction cs with
  | nil => rfl
  | cons c cs ih =>
    obtain ⟨hc, hcs⟩ := List.forall_mem_cons.mp h
    have hcut := pieces_append_cons hc [] (cs ++ behind)
    rw [List.nil_append] at hcut
    rw [List.cons_append, hcut, ih hcs]
    rfl

def Solid (p : Char → Bool) (cs : List Char) : Prop := cs ≠ [] ∧ ∀ c ∈ cs, p c = false

theorem Solid.of_any {cs : List Char} (hne : cs ≠ []) (h : cs.any p = false) : Solid p cs :=
  ⟨hne, fun c hc => Bool.not_eq_true _ ▸ List.any_eq_false.mp h c hc⟩

theorem Solid.pieces_eq {cs : List Char} (h : Solid p cs) : pieces p cs = [cs] := by
  unfold pieces
  rw [List.splitOnP_eq_singleton h.2, List.filter_cons_of_pos, List.filter_nil]
  rw [List.isEmpty_eq_false_iff.mpr h.1]
  rfl

/-- A piece is never empty and holds no separator. -/
theorem solid_of_mem_pieces {cs piece : List Char} (h : piece ∈ pieces p cs) : Solid p piece := by
  obtain ⟨hmem, hkept⟩ := List.mem_filter.mp h
  refine ⟨by simpa using hkept, ?_⟩
  clear h hkept
  induction cs generalizing piece with
  | nil =>
    rw [List.splitOnP_nil, List.mem_singleton] at hmem
    rw [hmem]
    exact List.forall_mem_nil _
  | cons c cs ih =>
    rw [List.splitOnP_cons_eq_if_modifyHead] at hmem
    obtain ⟨first, rest, hsplit⟩ := List.exists_cons_of_ne_nil (List.splitOnP_ne_nil p cs)
    split at hmem
    · rcases List.mem_cons.mp hmem with rfl | hlater
      · exact List.forall_mem_nil _
      · exact ih hlater
    · next hc =>
      rw [hsplit, List.modifyHead_cons] at hmem
      rcases List.mem_cons.mp hmem with rfl | hlater
      · refine List.forall_mem_cons.mpr ⟨Bool.not_eq_true _ ▸ hc, ih ?_⟩
        rw [hsplit]
        exact List.mem_cons_self
      · exact ih (hsplit ▸ List.mem_cons_of_mem _ hlater)

/-- Solid texts that are joined by a separator are the pieces of the joined text. -/
theorem pieces_intercalate {sep : Char} (hsep : p sep = true) {items : List (List Char)}
    (h : ∀ item ∈ items, Solid p item) : pieces p ([sep].intercalate items) = items := by
  induction items with
  | nil => rfl
  | cons item items ih =>
    obtain ⟨hitem, hitems⟩ := List.forall_mem_cons.mp h
    cases items with
    | nil => rw [List.intercalate_singleton, hitem.pieces_eq]
    | cons next items =>
      rw [List.intercalate_cons_cons, List.append_assoc, List.singleton_append,
        pieces_append_cons hsep, hitem.pieces_eq, ih hitems]
      rfl

/-- The items stand in the text in their order, with one or more separators between them and any
separators before the first and behind the last. -/
inductive Spread (p : Char → Bool) : List (List Char) → List Char → Prop where
  | none {gap : List Char} (hgap : ∀ c ∈ gap, p c = true) : Spread p [] gap
  | last {gap item : List Char} (hgap : ∀ c ∈ gap, p c = true) : Spread p [item] (gap ++ item)
  | cons {gap item rest : List Char} {sep : Char} {items : List (List Char)}
    (hgap : ∀ c ∈ gap, p c = true) (hsep : p sep = true) (hrest : Spread p items rest) :
    Spread p (item :: items) (gap ++ item ++ sep :: rest)

/-- Solid texts are the pieces of every text that they are spread over. -/
theorem Spread.pieces_eq {items : List (List Char)} {cs : List Char} (h : Spread p items cs)
    (hsolid : ∀ item ∈ items, Solid p item) : pieces p cs = items := by
  induction h with
  | none hgap => exact pieces_separators hgap
  | @last gap item hgap =>
    rw [pieces_separators_append hgap, (hsolid item List.mem_cons_self).pieces_eq]
  | @cons gap item rest sep items hgap hsep _ ih =>
    obtain ⟨hitem, hitems⟩ := List.forall_mem_cons.mp hsolid
    rw [List.append_assoc, pieces_separators_append hgap, pieces_append_cons hsep,
      hitem.pieces_eq, ih hitems]
    rfl

/-- What is no separator and stands in no item does not stand between the items either. -/
theorem Spread.notMem {items : List (List Char)} {cs : List Char} (h : Spread p items cs) {x : Char}
    (hx : p x = false) (hitems : ∀ item ∈ items, x ∉ item) : x ∉ cs := by
  have hnone : ∀ gap : List Char, (∀ c ∈ gap, p c = true) → x ∉ gap := by
    intro gap hgap hmem
    rw [hgap x hmem] at hx
    cases hx
  induction h with
  | none hgap => exact hnone _ hgap
  | @last gap item hgap =>
    rw [List.mem_append, not_or]
    exact ⟨hnone gap hgap, hitems item List.mem_cons_self⟩
  | @cons gap item rest sep items hgap hsep _ ih =>
    obtain ⟨hitem, hrest⟩ := List.forall_mem_cons.mp hitems
    have hother : x ≠ sep := by
      rintro rfl
      rw [hsep] at hx
      cases hx
    simp only [List.mem_append, List.mem_cons, not_or]
    exact ⟨⟨hnone gap hgap, hitem⟩, hother, ih hrest⟩

theorem Spread.separator_cons {items : List (List Char)} {cs : List Char} (h : Spread p items cs)
    {sep : Char} (hsep : p sep = true) : Spread p items (sep :: cs) := by
  have hmore : ∀ gap : List Char, (∀ c ∈ gap, p c = true) → ∀ c ∈ sep :: gap, p c = true :=
    fun gap hgap => List.forall_mem_cons.mpr ⟨hsep, hgap⟩
  cases h with
  | none hgap => exact .none (hmore _ hgap)
  | last hgap => exact .last (hmore _ hgap)
  | cons hgap hinner hrest => exact .cons (hmore _ hgap) hinner hrest

/-- Every text is its pieces, spread. -/
theorem spread_pieces (cs : List Char) : Spread p (pieces p cs) cs := by
  induction hlength : cs.length using Nat.strongRecOn generalizing cs with
  | ind n ih =>
    cases cs with
    | nil => exact .none (List.forall_mem_nil _)
    | cons c cs =>
      rw [List.length_cons] at hlength
      cases hc : p c with
      | true =>
        have hcut := pieces_append_cons hc [] cs
        rw [List.nil_append] at hcut
        rw [hcut]
        exact (ih cs.length (by omega) cs rfl).separator_cons hc
      | false =>
        -- the first piece goes on to the next separator or to the end
        have hsolid : Solid p (c :: cs.takeWhile (!p ·)) := by
          refine ⟨List.cons_ne_nil _ _, List.forall_mem_cons.mpr ⟨hc, fun x hx => ?_⟩⟩
          simpa using List.mem_takeWhile_imp hx
        have hwhole : c :: cs = (c :: cs.takeWhile (!p ·)) ++ cs.dropWhile (!p ·) := by
          rw [List.cons_append, List.takeWhile_append_dropWhile]
        have hshort := List.length_dropWhile_le (!p ·) cs
        have hhead := List.head?_dropWhile_not (!p ·) cs
        rw [hwhole]
        cases hrest : cs.dropWhile (!p ·) with
        | nil =>
          rw [List.append_nil, hsolid.pieces_eq]
          exact .last (List.forall_mem_nil _)
        | cons sep rest =>
          rw [hrest] at hshort hhead
          have hsep : p sep = true := by simpa using hhead
          rw [List.length_cons] at hshort
          rw [pieces_append_cons hsep, hsolid.pieces_eq]
          exact .cons (List.forall_mem_nil _) hsep (ih rest.length (by omega) rest rfl)

/-- Where blanks are separators, trimming keeps the pieces. -/
theorem pieces_trim (h : ∀ c, isBlank c = true → p c = true) (cs : List Char) :
    pieces p (trim cs) = pieces p cs := by
  obtain ⟨before, behind, hbefore, hbehind, hcs⟩ := padded_trim cs
  have hpadded := pieces_append_separators (fun c hc => h c (hbehind c hc)) (before ++ trim cs)
  rw [← hcs, pieces_separators_append fun c hc => h c (hbefore c hc)] at hpadded
  exact hpadded.symm

end Pieces

/-! ## The case of letters -/

theorem toLower_of_not_ascii {c : Char} (h : 128 ≤ c.toNat) : c.toLower = c := by
  refine dif_neg fun hupper => ?_
  have hle : c.toNat ≤ 90 := hupper.2
  omega

/-- A test that tells no capital from its small letter does not depend on case. -/
theorem test_toLower {p : Char → Bool}
    (h : ∀ n < 128, p (Char.ofNat n).toLower = p (Char.ofNat n)) (c : Char) : p c.toLower = p c := by
  rcases Nat.lt_or_ge c.toNat 128 with hlt | hge
  · have hc := h c.toNat hlt
    rwa [Char.ofNat_toNat] at hc
  · rw [toLower_of_not_ascii hge]

theorem isBlank_toLower (c : Char) : isBlank c.toLower = isBlank c :=
  test_toLower (by decide +kernel) c

theorem trim_map_toLower (cs : List Char) : trim (cs.map Char.toLower) = (trim cs).map Char.toLower := by
  have htest : isBlank ∘ Char.toLower = isBlank := funext isBlank_toLower
  unfold trim trimEnd trimStart
  rw [List.dropWhile_map, htest, ← List.map_reverse, List.dropWhile_map, htest, ← List.map_reverse]

theorem sameLetters_iff {a b : List Char} :
    sameLetters a b = true ↔ a.map Char.toLower = b.map Char.toLower := beq_iff_eq

end NodeProbe.Text
