import NodeProbe.Proofs.IntegerText

/-!
# Rendered values convert back

A value that a text was converted to shows as a text that converts to the same value. Within a
list this rests on one more fact: an item has no separator, and the value it was converted to
shows as a text without one.
-/
namespace NodeProbe

open Number Text

/-- The types without fractions and durations: integers, truth values, texts, enums, and lists of
these, nested to any depth. -/
def ValueType.Discrete : ValueType → Prop
  | .f32 | .f64 | .duration => False
  | .list element => element.Discrete
  | _ => True

/-! ## Shown values -/

theorem writes_toDigits {n : Int} (h : 0 ≤ n) : Writes n (Nat.toDigits 10 n.natAbs) :=
  .decimal 0 (.none h)

theorem writes_toString (n : Int) : Writes n (toString n).toList := by
  have htext : (toString n).toList = n.repr.toList := rfl
  rw [htext, toList_repr]
  split
  · next hneg => exact .decimal 0 (.minus (by omega))
  · next hpos => exact writes_toDigits (by omega)

/-- An integer shows as one of its spellings. -/
theorem ValueType.Holds.writes {t : ValueType} {v : Value} {n : Int} (h : t.Holds v n) :
    Writes n v.render.toList := by
  unfold ValueType.Holds at h
  split at h
  · obtain ⟨word, rfl, rfl⟩ := h
    rw [Value.render, Nat.toList_repr]
    exact writes_toDigits (Int.natCast_nonneg _)
  · obtain ⟨word, rfl, rfl⟩ := h
    rw [Value.render]
    exact writes_toString _

theorem render_list_toList (items : List Value) : (Value.list items).render.toList =
    [' '].intercalate (items.map fun item => item.render.toList) := by
  rw [Value.render, String.toList_intercalate, List.map_map]
  rfl

/-! ## Items of a list -/

namespace Conversion

theorem isListSeparator_toLower (c : Char) : isListSeparator c.toLower = isListSeparator c :=
  test_toLower (by decide +kernel) c

theorem isListSeparator_of_blank {c : Char} (h : isBlank c = true) : isListSeparator c = true := by
  unfold isListSeparator
  rw [h, Bool.or_true]

abbrev Item (cs : List Char) : Prop := Solid isListSeparator cs

theorem Item.trim_eq {cs : List Char} (h : Item cs) : trim cs = cs := by
  refine trim_of_no_blank fun c hc => ?_
  cases hblank : isBlank c with
  | false => rfl
  | true => exact absurd (isListSeparator_of_blank hblank) (by rw [h.2 c hc]; decide)

theorem Item.of_sameLetters {cs cs' : List Char} (h : Item cs)
    (hsame : cs'.map Char.toLower = cs.map Char.toLower) : Item cs' := by
  constructor
  · rintro rfl
    exact h.1 (List.map_eq_nil_iff.mp hsame.symm)
  · intro c' hc'
    obtain ⟨c, hc, hlower⟩ := List.mem_map.mp (hsame ▸ List.mem_map_of_mem hc')
    rw [← isListSeparator_toLower, ← hlower, isListSeparator_toLower]
    exact h.2 c hc

theorem Item.of_spells {cs : List Char} {n : Int} (h : Spells cs n) : Item cs :=
  ⟨h.ne_nil, h.test (by decide +kernel)⟩

/-! ## Conversion of what is shown -/

/-- The value shows as a text that converts to it, and that is an item when the text it came from
is one. -/
structure ConvertsBack (raw : List Char) (t : ValueType) (v : Value) : Prop where
  convert_render : convert v.render.toList t = .ok v
  item : Item raw → Item v.render.toList

/-- An integer shows as its decimal numeral, which every integer type reads. -/
theorem convertsBack_integer {t : ValueType} {range : Int × Int}
    (hrange : t.integerRange? = some range) {raw : List Char} {v : Value}
    (h : convert raw t = .ok v) : ConvertsBack raw t v := by
  obtain ⟨n, -, hlow, hhigh, hholds⟩ := (convert_integer_eq_ok hrange).mp h
  have hspells := hholds.writes.spells
  constructor
  · obtain ⟨v', hv', hholds'⟩ := convert_of_spells hrange hlow hhigh hspells (.refl _) (.refl _)
    rw [hv', hholds'.unique hholds]
  · exact fun _ => .of_spells hspells

theorem convertsBack_enum {name : String} {variants : List String} {raw : List Char} {v : Value}
    (h : convert raw (.enum name variants) = .ok v) : ConvertsBack raw (.enum name variants) v := by
  simp only [convert] at h
  split at h
  · next variant hfound =>
    cases h
    have hletters : sameLetters variant.toList (trim raw) = true := by
      simpa using List.find?_some hfound
    have hsame := sameLetters_iff.mp hletters
    have hlower : (trim variant.toList).map Char.toLower = (trim raw).map Char.toLower := by
      rw [← trim_map_toLower, hsame, trim_map_toLower, trim_trim]
    have htest : ∀ cs, sameLetters cs (trim variant.toList) = sameLetters cs (trim raw) := by
      intro cs
      rw [sameLetters, hlower]
      rfl
    constructor
    · rw [Value.render]
      simp only [convert, htest, hfound]
    · intro hraw
      rw [Value.render]
      rw [hraw.trim_eq] at hsame
      exact hraw.of_sameLetters hsame
  · cases h

/-- The items of a list show with a blank between them and hold none, so they are cut apart again. -/
theorem convertsBack_list {element : ValueType} {raw : List Char} {v : Value}
    (helement : ∀ {raw v}, convert raw element = .ok v → ConvertsBack raw element v)
    (h : convert raw (.list element) = .ok v) : ConvertsBack raw (.list element) v := by
  obtain ⟨items, rfl, hitems⟩ := convert_list_eq_ok.mp h
  have hpieces := (List.forall₂_and_left _ _).mpr
    ⟨fun _ hpiece => solid_of_mem_pieces hpiece, hitems⟩
  -- an item shows as an item again, which converts to the same value
  have hshown : ∀ item ∈ items,
      Item item.render.toList ∧ convert item.render.toList element = .ok item := by
    have hback := hpieces.flip.imp fun item piece hpiece =>
      And.intro (And.intro ((helement hpiece.2).item hpiece.1) (helement hpiece.2).convert_render)
        hpiece.1
    exact ((List.forall₂_and_left _ _).mp hback).1
  constructor
  · have hagain : pieces isListSeparator (trim (Value.list items).render.toList) =
        items.map fun item => item.render.toList := by
      rw [pieces_trim fun _ => isListSeparator_of_blank, render_list_toList]
      refine pieces_intercalate (by decide) fun text htext => ?_
      obtain ⟨item, hitem, rfl⟩ := List.mem_map.mp htext
      exact (hshown item hitem).1
    refine convert_list_eq_ok.mpr ⟨items, rfl, ?_⟩
    rw [hagain, List.forall₂_map_left_iff]
    exact List.forall₂_same.mpr fun item hitem => (hshown item hitem).2
  · intro hraw
    rw [hraw.trim_eq, hraw.pieces_eq] at hpieces
    obtain ⟨item, rfl⟩ : ∃ item, items = [item] := by
      cases hpieces with
      | cons _ hnone =>
        cases hnone
        exact ⟨_, rfl⟩
    rw [render_list_toList, List.map_singleton, List.intercalate_singleton]
    exact (hshown item List.mem_cons_self).1

/-- Induction on the type: the items of a list are converted at its element type. -/
theorem convertsBack {t : ValueType} (ht : t.Discrete) {raw : List Char} {v : Value}
    (h : convert raw t = .ok v) : ConvertsBack raw t v := by
  induction t generalizing raw v with
  | f32 | f64 | duration => exact ht.elim
  | string =>
    cases h
    constructor
    · rw [Value.render, String.toList_ofList]
      rfl
    · rw [Value.render, String.toList_ofList]
      exact id
  | bool =>
    simp only [convert] at h
    split at h
    · next b _ =>
      cases h
      have hrender : (Value.bool b).render = if b then "true" else "false" := by rw [Value.render]
      constructor
      · rw [hrender]
        cases b <;> rfl
      · rw [hrender]
        intro _
        cases b <;> exact .of_any (by decide) rfl
    · cases h
  | enum name variants => exact convertsBack_enum h
  | list element ih => exact convertsBack_list (ih ht) h
  | _ => exact convertsBack_integer rfl h

end Conversion

/-- What a value of a discrete type shows as converts back to it, when the value was converted from
a text. -/
theorem rendered_value_converts_back {t : ValueType} (ht : t.Discrete) {raw : String} {v : Value}
    (h : t.convert raw = .ok v) : t.convert v.render = .ok v :=
  (Conversion.convertsBack ht h).convert_render

/-- Both spellings show as the first variant with their letters. -/
theorem nested_modes_convert_back :
    let modes : ValueType := .list (.list (.enum "Mode" ["", "a b", "Wrap", "WRAP"]))
    let v := Value.list [.list [.enum "Wrap"], .list [.enum "Wrap"]]
    modes.Discrete ∧ modes.convert " wrap;WRAP\t" = .ok v ∧ v.render = "Wrap Wrap" ∧
    modes.convert "Wrap Wrap" = .ok v := by
  intro modes v
  have hdiscrete : modes.Discrete := trivial
  have hconvert : modes.convert " wrap;WRAP\t" = .ok v := rfl
  have hrender : v.render = "Wrap Wrap" := by simp [v, Value.render]
  refine ⟨hdiscrete, hconvert, hrender, ?_⟩
  rw [← hrender]
  exact rendered_value_converts_back hdiscrete hconvert

end NodeProbe
