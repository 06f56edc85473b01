/-!
# Cutting texts

Cutting at the first or after the last occurrence of a character, removing a
leading text or sign, and comparing without regard to the case of ASCII letters.
-/
namespace NodeProbe.Text

/-- The text before and the text after the first `c`. -/
def cut (c : Char) : List Char → Option (List Char × List Char)
  | [] => none
  | x :: xs => if x = c then some ([], xs) else (cut c xs).map fun (before, after) => (x :: before, after)

def afterLast (c : Char) : List Char → Option (List Char)
  | [] => none
  | x :: xs => match afterLast c xs with
    | some rest => some rest
    | none => if x = c then some xs else none

def dropLeading : List Char → List Char → Option (List Char)
  | [], cs => some cs
  | _ :: _, [] => none
  | p :: ps, c :: cs => if p = c then dropLeading ps cs else none

/-- The lines of a text. A line ends with `\n` or `\r\n`; the last may be without an end. -/
def lines (cs : List Char) : List (List Char) :=
  let parts := cs.splitOn '\n'
  let ended := parts.dropLast.map fun line =>
    if line.getLast? = some '\r' then line.dropLast else line
  ended ++ parts.getLast?.toList.filter (!·.isEmpty)

/-- Whether a text begins with a minus sign, and the text behind its sign, if it has one. -/
def splitSign : List Char → Bool × List Char
  | '-' :: rest => (true, rest)
  | '+' :: rest => (false, rest)
  | rest => (false, rest)

/-- The same text up to the case of ASCII letters. -/
def sameLetters (a b : List Char) : Bool := a.map Char.toLower == b.map Char.toLower

theorem cut_eq_none {c : Char} {cs : List Char} : cut c cs = none ↔ c ∉ cs := by
  induction cs with
  | nil => simp [cut]
  | cons x xs ih =>
    by_cases h : x = c
    · simp [cut, h]
    · simp [cut, h, ih, Ne.symm h]

theorem cut_append {c : Char} {before : List Char} (h : c ∉ before) (after : List Char) :
    cut c (before ++ c :: after) = some (before, after) := by
  induction before with
  | nil => simp [cut]
  | cons x xs ih =>
    simp only [List.mem_cons, not_or] at h
    simp [cut, Ne.symm h.1, ih h.2]

theorem eq_append_of_cut {c : Char} {cs before after : List Char}
    (h : cut c cs = some (before, after)) : cs = before ++ c :: after ∧ c ∉ before := by
  induction cs generalizing before with
  | nil => simp [cut] at h
  | cons x xs ih =>
    by_cases hx : x = c
    · simp only [cut, hx, if_true, Option.some.injEq, Prod.mk.injEq] at h
      obtain ⟨rfl, rfl⟩ := h
      simp [hx]
    · simp only [cut, hx, if_false, Option.map_eq_some_iff, Prod.exists, Prod.mk.injEq] at h
      obtain ⟨b, a, hc, rfl, rfl⟩ := h
      obtain ⟨rfl, hb⟩ := ih hc
      simp [Ne.symm hx, hb]

theorem dropLeading_eq_some {lead cs rest : List Char} :
    dropLeading lead cs = some rest ↔ cs = lead ++ rest := by
  induction lead generalizing cs with
  | nil => simp [dropLeading]
  | cons p ps ih =>
    cases cs with
    | nil => simp [dropLeading]
    | cons c cs =>
      by_cases h : p = c
      · simp [dropLeading, h, ih]
      · simp [dropLeading, h, Ne.symm h]

end NodeProbe.Text

def String.cut? (s : String) (c : Char) : Option (String × String) :=
  (NodeProbe.Text.cut c s.toList).map fun (before, after) => (.ofList before, .ofList after)

def String.dropLeading? (s lead : String) : Option String :=
  (NodeProbe.Text.dropLeading lead.toList s.toList).map .ofList

namespace String

theorem dropLeading?_eq_some {s lead rest : String} :
    s.dropLeading? lead = some rest ↔ s = lead ++ rest := by
  unfold dropLeading?
  rw [Option.map_eq_some_iff]
  constructor
  · rintro ⟨cs, hcs, rfl⟩
    rw [← toList_inj, toList_append, toList_ofList]
    exact NodeProbe.Text.dropLeading_eq_some.mp hcs
  · rintro rfl
    exact ⟨rest.toList, NodeProbe.Text.dropLeading_eq_some.mpr toList_append, ofList_toList⟩

/-- A text is cut behind a part that does not hold the character. -/
theorem cut?_append {c : Char} {before : String} (h : c ∉ before.toList) (after : String) :
    (before ++ singleton c ++ after).cut? c = some (before, after) := by
  have hchars : (before ++ singleton c ++ after).toList = before.toList ++ c :: after.toList := by
    rw [toList_append, toList_append, toList_singleton, List.append_assoc]
    rfl
  unfold cut?
  rw [hchars, NodeProbe.Text.cut_append h]
  simp only [Option.map_some, ofList_toList]

theorem cut?_eq_none {c : Char} {s : String} : s.cut? c = none ↔ c ∉ s.toList := by
  unfold cut?
  rw [Option.map_eq_none_iff, NodeProbe.Text.cut_eq_none]

end String
