import NodeProbe.Component.Scripted
import NodeProbe.Request.Operations

/-!
# What is listed can be called

The listing goes through the tables line by line, a call looks for a name and a number of
arguments and may go back from one part to the next. Both follow one list, the operations
under the names by which calls reach them: a call finds the first that fits.
-/
namespace NodeProbe

variable {σ : Type}

/-- The line of the listing for a name and parameter types. -/
def listingLine (name : String) (params : List ValueType) : String :=
  "  " ++ name ++ "(" ++ ",".intercalate (params.map ValueType.text) ++ ")"

def fitsCall (name : String) (arity : Nat) (line : String × Operation σ) : Bool :=
  line.1 == name && line.2.arity == arity

theorem fitsCall_iff {name : String} {arity : Nat} {line : String × Operation σ} :
    fitsCall name arity line = true ↔ line.1 = name ∧ line.2.arity = arity := by
  unfold fitsCall
  rw [Bool.and_eq_true, beq_iff_eq, beq_iff_eq]

namespace Surface

/-- The names and parameter types that the lines of the listing are for. -/
def printed (surface : Surface σ) : List (String × List ValueType) :=
  surface.listed.map fun (name, o) => (name, o.params)

theorem listing_eq (surface : Surface σ) :
    surface.listing = surface.printed.map fun line => listingLine line.1 line.2 := by
  unfold listing printed listed
  simp only [List.map_append, List.map_map, List.map_flatMap, Function.comp_def,
    Operation.signature, listingLine, String.append_assoc]

/-- The lookup in one part is a lookup among its lines. -/
theorem find?_part (p : Part σ) (name : String) (arity : Nat) :
    (name.dropLeading? (p.name ++ ".")).bind (fun rest => p.table.operation? rest arity) =
      ((p.table.operations.map fun o => (p.name ++ "." ++ o.name, o)).find?
        (fitsCall name arity)).map (·.2) := by
  rw [List.find?_map, Option.map_map]
  cases hrest : name.dropLeading? (p.name ++ ".") with
  | none =>
    -- the name of every line of the part begins with the name of the part and a dot
    have hnone : p.table.operations.find?
        (fitsCall name arity ∘ fun o => (p.name ++ "." ++ o.name, o)) = none := by
      refine List.find?_eq_none.mpr fun o _ hfits => ?_
      have hname := (fitsCall_iff.mp hfits).1
      rw [String.dropLeading?_eq_some.mpr hname.symm] at hrest
      cases hrest
    rw [hnone]
    rfl
  | some rest =>
    have hname := String.dropLeading?_eq_some.mp hrest
    subst hname
    have hsame : ∀ o : Operation σ, (p.name ++ "." ++ o.name == p.name ++ "." ++ rest) =
        (o.name == rest) := by
      intro o
      rw [Bool.eq_iff_iff, beq_iff_eq, beq_iff_eq, String.append_right_inj]
    simp only [Function.comp_def, fitsCall, hsame, Option.map_id']
    rfl

/-- A call finds the first operation of the listing that has its name and its number of
arguments. -/
theorem operation?_eq_find? (surface : Surface σ) (name : String) (arity : Nat) :
    surface.operation? name arity =
      (surface.listed.find? (fitsCall name arity)).map (·.2) := by
  have hown : surface.own.operation? name arity =
      ((surface.own.operations.map fun o => (o.name, o)).find? (fitsCall name arity)).map (·.2) := by
    rw [List.find?_map, Option.map_map]
    simp only [Function.comp_def, Option.map_id']
    rfl
  have hparts : (surface.parts.findSome? fun p =>
      (name.dropLeading? (p.name ++ ".")).bind fun rest => p.table.operation? rest arity) =
      ((surface.parts.flatMap fun p =>
        p.table.operations.map fun o => (p.name ++ "." ++ o.name, o)).find?
          (fitsCall name arity)).map (·.2) := by
    rw [List.find?_flatMap, List.map_findSome?]
    exact congrArg (surface.parts.findSome? ·) (funext fun p => find?_part p name arity)
  unfold operation? listed
  rw [hown, hparts, List.find?_append, Option.map_or]

/-- A found operation is the earliest of the listing under its name with its arity. -/
theorem listed_of_operation? {surface : Surface σ} {name : String} {arity : Nat} {o : Operation σ}
    (h : surface.operation? name arity = some o) :
    o.arity = arity ∧ ∃ before after, surface.listed = before ++ (name, o) :: after ∧
      ∀ line ∈ before, ¬ (line.1 = name ∧ line.2.arity = arity) := by
  rw [operation?_eq_find?] at h
  obtain ⟨⟨name', o'⟩, hfound, rfl⟩ := Option.map_eq_some_iff.mp h
  obtain ⟨hfits, before, after, hlisted, hbefore⟩ := List.find?_eq_some_iff_append.mp hfound
  obtain ⟨rfl, harity⟩ := fitsCall_iff.mp hfits
  refine ⟨harity, before, after, hlisted, fun line hline hsame => ?_⟩
  have hnot := hbefore line hline
  rw [fitsCall_iff.mpr hsame] at hnot
  cases hnot

/-- An operation is found when a line of the listing has its name and its arity. -/
theorem exists_operation?_iff {surface : Surface σ} {name : String} {arity : Nat} :
    (∃ o, surface.operation? name arity = some o) ↔
      ∃ params, (name, params) ∈ surface.printed ∧ params.length = arity := by
  rw [← Option.isSome_iff_exists, operation?_eq_find?, Option.isSome_map, List.find?_isSome]
  constructor
  · rintro ⟨⟨name', o⟩, hmem, hfits⟩
    obtain ⟨rfl, harity⟩ := fitsCall_iff.mp hfits
    exact ⟨o.params, List.mem_map_of_mem hmem, harity⟩
  · rintro ⟨params, hmem, hlength⟩
    obtain ⟨⟨name', o⟩, hlisted, heq⟩ := List.mem_map.mp hmem
    cases heq
    exact ⟨(name, o), hlisted, fitsCall_iff.mpr ⟨rfl, hlength⟩⟩

/-- An operation of the component itself hides those of its parts. -/
theorem operation?_of_own {surface : Surface σ} {own : Operation σ}
    (hmem : own ∈ surface.own.operations) :
    surface.operation? own.name own.arity = surface.own.operation? own.name own.arity := by
  have hsome : (surface.own.operation? own.name own.arity).isSome :=
    List.find?_isSome.mpr ⟨own, hmem, by rw [beq_self_eq_true, beq_self_eq_true]; rfl⟩
  exact Option.or_of_isSome hsome

end Surface

/-- The listing shows exactly what can be called. Each of its lines is for a name and
parameter types; a name with a number of arguments is found when a line is for both, and
then it is the operation of the earliest such line, the component's own before all others. -/
theorem listed_iff_callable (c : Component σ) (name : String) (arity : Nat) :
    c.listing = c.className ++ ":\n" ++
      String.join (c.surface.printed.map fun line => listingLine line.1 line.2 ++ "\n") ∧
    ((∃ o, c.surface.operation? name arity = some o) ↔
      ∃ params, (name, params) ∈ c.surface.printed ∧ params.length = arity) ∧
    ∀ o, c.surface.operation? name arity = some o →
      o.arity = arity ∧
      (∃ before after, c.surface.listed = before ++ (name, o) :: after ∧
        ∀ line ∈ before, ¬ (line.1 = name ∧ line.2.arity = arity)) ∧
      ∀ own ∈ c.surface.own.operations, own.name = name → own.arity = arity →
        c.surface.own.operation? name arity = some o := by
  refine ⟨?_, Surface.exists_operation?_iff, fun o ho => ?_⟩
  · unfold Component.listing
    rw [Surface.listing_eq, List.map_map]
    rfl
  · obtain ⟨harity, hearliest⟩ := Surface.listed_of_operation? ho
    refine ⟨harity, hearliest, fun own hmem hname hown => ?_⟩
    subst hname hown
    rw [← Surface.operation?_of_own hmem]
    exact ho

/-- Parts `a` and `a.b` share the names behind `a.b.`; the second is reached where the first
has no operation of the arity. -/
theorem listed_of_overlapping_parts :
    let run (arity : Nat) (body : Scripted.Body) : Scripted.OperationScript :=
      { name := "run", params := List.replicate arity .u8, body }
    let c := Scripted.ComponentScript.component {
      name := "X", className := "X"
      own := { operations := [{ name := "a.b.run" }] }
      parts := [⟨"a", { operations := [{ name := "b.run", params := [.bool] }, run 2 .all] }⟩,
        ⟨"a.b", { operations := [run 0 .all, run 1 .all, run 2 .nothing, run 2 .all] }⟩] }
    (∃ o, c.surface.operation? "a.b.run" 2 = some o ∧ o.arity = 2 ∧
      ("a.b.run", [.u8, .u8]) ∈ c.surface.printed ∧
      ∃ before after, c.surface.listed = before ++ ("a.b.run", o) :: after ∧
        ∀ line ∈ before, ¬ (line.1 = "a.b.run" ∧ line.2.arity = 2)) ∧
    c.surface.operation? "a.b.run" 3 = none := by
  intro run c
  obtain ⟨o, ho⟩ := (listed_iff_callable c "a.b.run" 2).2.1.mpr
    ⟨[.u8, .u8], by decide, rfl⟩
  obtain ⟨harity, hearliest, -⟩ := (listed_iff_callable c "a.b.run" 2).2.2 o ho
  exact ⟨⟨o, ho, harity, by decide, hearliest⟩, by decide⟩

end NodeProbe
