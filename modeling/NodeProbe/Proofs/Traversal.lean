import Mathlib.Data.List.Forall2
import NodeProbe.Value.Conversion

/-!
# Traversals that can fail

A list is gone through from its front. Every item succeeds, or the first one that fails decides the
failure of the whole. The text of a list is converted piece by piece in this way.
-/
namespace NodeProbe

open Text

section

variable {α β ε : Type} {f : α → Except ε β} {xs : List α}

/-- A traversal succeeds when every item does, and keeps their order. -/
theorem mapM_eq_ok_iff {ys : List β} :
    xs.mapM f = .ok ys ↔ List.Forall₂ (fun x y => f x = .ok y) xs ys := by
  induction xs generalizing ys with
  | nil =>
    rw [List.mapM_nil, List.forall₂_nil_left_iff]
    constructor
    · intro h
      cases h
      rfl
    · rintro rfl
      rfl
  | cons x xs ih =>
    rw [List.mapM_cons, List.forall₂_cons_left_iff]
    constructor
    · intro h
      cases hx : f x with
      | error e => rw [hx] at h; cases h
      | ok y =>
        cases hxs : xs.mapM f with
        | error e => rw [hx, hxs] at h; cases h
        | ok rest =>
          rw [hx, hxs] at h
          cases h
          exact ⟨y, rest, rfl, ih.mp hxs, rfl⟩
    · rintro ⟨y, rest, hy, hrest, rfl⟩
      rw [hy, ih.mpr hrest]
      rfl

/-- A traversal fails with the failure of the first item that fails. -/
theorem mapM_eq_error_iff {e : ε} :
    xs.mapM f = .error e ↔ ∃ before x behind, xs = before ++ x :: behind ∧
      (∀ earlier ∈ before, ∃ y, f earlier = .ok y) ∧ f x = .error e := by
  induction xs with
  | nil =>
    constructor
    · intro h
      cases h
    · rintro ⟨before, x, behind, hparts, -⟩
      simp at hparts
  | cons x xs ih =>
    rw [List.mapM_cons]
    constructor
    · intro h
      cases hx : f x with
      | error e' =>
        rw [hx] at h
        cases h
        exact ⟨[], x, xs, rfl, List.forall_mem_nil _, hx⟩
      | ok y =>
        cases hxs : xs.mapM f with
        | ok rest => rw [hx, hxs] at h; cases h
        | error e' =>
          rw [hx, hxs] at h
          cases h
          obtain ⟨before, x', behind, rfl, hbefore, hfails⟩ := ih.mp hxs
          exact ⟨x :: before, x', behind, rfl, List.forall_mem_cons.mpr ⟨⟨y, hx⟩, hbefore⟩, hfails⟩
    · rintro ⟨before, x', behind, hparts, hbefore, hfails⟩
      cases before with
      | nil =>
        cases hparts
        rw [hfails]
        rfl
      | cons x'' before =>
        cases hparts
        obtain ⟨⟨y, hy⟩, hrest⟩ := List.forall_mem_cons.mp hbefore
        have hlater := ih.mpr ⟨before, x', behind, rfl, hrest, hfails⟩
        rw [hy, hlater]
        rfl

theorem map_eq_ok_iff {γ : Type} {x : Except ε α} {g : α → γ} {y : γ} :
    x.map g = .ok y ↔ ∃ a, x = .ok a ∧ g a = y := by
  cases x with
  | error e => simp [Except.map]
  | ok a => simp [Except.map]

theorem map_eq_error_iff {γ : Type} {x : Except ε α} {g : α → γ} {e : ε} :
    x.map g = .error e ↔ x = .error e := by
  cases x with
  | error e' => simp [Except.map]
  | ok a => simp [Except.map]

end

namespace Conversion

variable {raw : List Char} {element : ValueType}

theorem convert_list_eq_ok {v : Value} :
    convert raw (.list element) = .ok v ↔ ∃ values, v = .list values ∧
      List.Forall₂ (fun piece value => convert piece element = .ok value)
        (pieces isListSeparator (trim raw)) values := by
  simp only [convert, map_eq_ok_iff, mapM_eq_ok_iff]
  exact exists_congr fun values => and_comm.trans (and_congr_left fun _ => eq_comm)

theorem convert_list_eq_error {e : Failure} :
    convert raw (.list element) = .error e ↔ ∃ before piece behind,
      pieces isListSeparator (trim raw) = before ++ piece :: behind ∧
      (∀ earlier ∈ before, ∃ value, convert earlier element = .ok value) ∧
      convert piece element = .error e := by
  simp only [convert, map_eq_error_iff, mapM_eq_error_iff]

end Conversion

end NodeProbe
