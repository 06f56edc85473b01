import NodeProbe.Proofs.RenderedText

/-!
# Lists in text

A text holds items with separators around them, in one way only. It converts to a list item by
item, however the separators stand, and the first item that does not convert fails the whole list
with its own failure.
-/
namespace NodeProbe

open Text

/-- The type of the values in a list, through all levels of lists. -/
def ValueType.innermost : ValueType → ValueType
  | .list element => element.innermost
  | t => t

namespace Conversion

/-! ## The items of a text -/

/-- The text is made of the items, in their order, and of separators: one or more between two items
and any before the first and behind the last. -/
structure Holds (text : String) (items : List String) : Prop where
  item : ∀ item ∈ items, Item item.toList
  spread : Spread isListSeparator (items.map String.toList) text.toList

/-- A text holds the items that it is cut into. -/
theorem holds_iff {text : String} {items : List String} :
    Holds text items ↔ pieces isListSeparator text.toList = items.map String.toList := by
  constructor
  · intro h
    refine h.spread.pieces_eq fun piece hpiece => ?_
    obtain ⟨item, hitem, rfl⟩ := List.mem_map.mp hpiece
    exact h.item item hitem
  · intro hpieces
    constructor
    · intro item hitem
      have hpiece : item.toList ∈ pieces isListSeparator text.toList := by
        rw [hpieces]
        exact List.mem_map_of_mem hitem
      exact solid_of_mem_pieces hpiece
    · rw [← hpieces]
      exact spread_pieces text.toList

/-- Every text holds some items, and no others. -/
theorem existsUnique_holds (text : String) : ∃! items, Holds text items := by
  have hchars : ((pieces isListSeparator text.toList).map String.ofList).map String.toList =
      pieces isListSeparator text.toList := by
    rw [List.map_map]
    exact List.map_id'' (fun _ => String.toList_ofList) _
  refine ⟨(pieces isListSeparator text.toList).map String.ofList, holds_iff.mpr hchars.symm, ?_⟩
  intro items h
  refine List.map_injective_iff.mpr (fun _ _ => String.toList_injective) ?_
  rw [hchars, ← holds_iff.mp h]

/-! ## Failures -/

/-- A failure names the type in which all lists end, and the text itself when that is an item. -/
theorem convert_error {raw : List Char} {t : ValueType} {e : Failure}
    (h : convert raw t = .error e) :
    ∃ text reason, e = failure text t.innermost reason ∧ (Item raw → text = raw) := by
  induction t generalizing raw with
  | string => cases h
  | bool | f32 | f64 | duration | enum _ _ =>
    simp only [convert] at h
    split at h <;> cases h
    exact ⟨raw, _, rfl, fun _ => rfl⟩
  | list element ih =>
    obtain ⟨before, piece, behind, hparts, -, hpiece⟩ := convert_list_eq_error.mp h
    obtain ⟨text, reason, he, hsame⟩ := ih hpiece
    refine ⟨text, reason, he, fun hraw => ?_⟩
    -- an item is a list of one, so it is the piece that fails
    rw [hraw.trim_eq, hraw.pieces_eq] at hparts
    have hone : piece = raw := by
      have hmem : piece ∈ [raw] := by rw [hparts]; simp
      exact List.mem_singleton.mp hmem
    rw [hone] at hsame
    exact hsame hraw
  | _ =>
    simp only [convert, integer] at h
    split at h
    · cases h
      exact ⟨raw, _, rfl, fun _ => rfl⟩
    · split at h
      · cases h
        exact ⟨raw, _, rfl, fun _ => rfl⟩
      · split at h
        · cases h
          exact ⟨raw, _, rfl, fun _ => rfl⟩
        · split at h <;> cases h

/-! ## The conversion of the items -/

section

variable {text : String} {items : List String} (h : Holds text items) {element : ValueType}
include h

theorem Holds.pieces_trim_eq :
    pieces isListSeparator (trim text.toList) = items.map String.toList := by
  rw [pieces_trim fun _ => isListSeparator_of_blank, holds_iff.mp h]

theorem Holds.convert_eq_ok {v : Value} :
    element.list.convert text = .ok v ↔ ∃ values, v = .list values ∧
      List.Forall₂ (fun item value => element.convert item = .ok value) items values := by
  unfold ValueType.convert
  simp only [convert_list_eq_ok, h.pieces_trim_eq, List.forall₂_map_left_iff]

theorem Holds.convert_eq_error {e : Failure} :
    element.list.convert text = .error e ↔ ∃ before item behind,
      items = before ++ item :: behind ∧
      (∀ earlier ∈ before, ∃ value, element.convert earlier = .ok value) ∧
      element.convert item = .error e := by
  unfold ValueType.convert
  rw [convert_list_eq_error, h.pieces_trim_eq]
  constructor
  · rintro ⟨_, _, _, hparts, hbefore, hpiece⟩
    obtain ⟨before, later, rfl, rfl, hlater⟩ := List.map_eq_append_iff.mp hparts
    obtain ⟨item, behind, rfl, rfl, rfl⟩ := List.map_eq_cons_iff.mp hlater
    refine ⟨before, item, behind, rfl, fun earlier hearlier => ?_, hpiece⟩
    exact hbefore earlier.toList (List.mem_map_of_mem hearlier)
  · rintro ⟨before, item, behind, rfl, hbefore, hitem⟩
    refine ⟨before.map String.toList, item.toList, behind.map String.toList, ?_, ?_, hitem⟩
    · rw [List.map_append, List.map_cons]
    · intro piece hpiece
      obtain ⟨earlier, hearlier, rfl⟩ := List.mem_map.mp hpiece
      exact hbefore earlier hearlier

end

end Conversion

open Conversion

/-- A text converts to a list by its items, which it has in one way only. It converts exactly when
every item does, to the list of their values. Else it fails with the failure of the first item
that fails, which names this item and the type in which all lists end. -/
theorem list_converts_by_its_items (text : String) :
    (∃! items, Holds text items) ∧
    ∀ items, Holds text items → ∀ element : ValueType,
      (∀ v, element.list.convert text = .ok v ↔ ∃ values, v = .list values ∧
        List.Forall₂ (fun item value => element.convert item = .ok value) items values) ∧
      (∀ e, element.list.convert text = .error e ↔ ∃ before item behind,
        items = before ++ item :: behind ∧
        (∀ earlier ∈ before, ∃ value, element.convert earlier = .ok value) ∧
        element.convert item = .error e) ∧
      ∀ item ∈ items, ∀ e, element.convert item = .error e →
        ∃ reason, e = .argumentConversion item element.innermost.text reason := by
  refine ⟨existsUnique_holds text, fun items h element => ⟨?_, ?_, ?_⟩⟩
  · intro v
    exact h.convert_eq_ok
  · intro e
    exact h.convert_eq_error
  · intro item hitem e he
    obtain ⟨raw, reason, rfl, hraw⟩ := convert_error he
    refine ⟨reason, ?_⟩
    rw [Conversion.failure, hraw (h.item item hitem), String.ofList_toList]

/-- Blanks of every kind around the items, and a second item that would fail behind the first. -/
theorem list_of_ports_fails_at_first_name :
    let text := "\u00a07800;; nope\t99999;\n"
    let items := ["7800", "nope", "99999"]
    Holds text items ∧
    ValueType.u16.list.convert text =
      .error (.argumentConversion "nope" "u16" "not an integer") := by
  intro text items
  have h : Holds text items := holds_iff.mpr (by decide +kernel)
  obtain ⟨-, herror, -⟩ := (list_converts_by_its_items text).2 items h .u16
  refine ⟨h, (herror _).mpr ⟨["7800"], "nope", ["99999"], rfl, ?_, rfl⟩⟩
  intro earlier hearlier
  rw [List.mem_singleton.mp hearlier]
  exact ⟨.unsigned 7800, rfl⟩

/-- An item of a list of lists is a list of one, so what fails in it fails as a number: the failure
does not name the element type of the outer list. -/
theorem item_of_nested_list_fails_as_number :
    let element : ValueType := ValueType.i32.list
    Holds "7 abc" ["7", "abc"] ∧
    element.list.convert "7 abc" = .error (.argumentConversion "abc" "i32" "not an integer") ∧
    ∀ reason, element.list.convert "7 abc" ≠
      .error (.argumentConversion "abc" element.text reason) := by
  intro element
  have h : Holds "7 abc" ["7", "abc"] := holds_iff.mpr (by decide +kernel)
  have hfails : element.list.convert "7 abc" =
      .error (.argumentConversion "abc" "i32" "not an integer") := rfl
  refine ⟨h, hfails, fun reason hsame => ?_⟩
  have htype : element.text = "Vec<i32>" := rfl
  rw [hfails, htype] at hsame
  simp at hsame

end NodeProbe
