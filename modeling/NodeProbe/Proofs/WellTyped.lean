import Mathlib.Algebra.Group.Int.Defs
import Mathlib.Algebra.Group.Nat.Defs
import NodeProbe.Proofs.Traversal
import NodeProbe.Request.Operations

/-!
# Converted text is well typed

Conversion gives a value of the form and the range of its type, or it fails. The range of
an integer type fits its 64-bit word, so the word stands for the number that was read.
-/
namespace NodeProbe

namespace ValueType

/-- The range of a type without negative values fits an unsigned word. -/
theorem range_unsigned {t : ValueType} {least largest : Int}
    (h : t.integerRange? = some (least, largest)) (hu : t.isUnsigned = true) :
    0 ≤ least ∧ largest < 2 ^ 64 := by
  cases t <;> cases hu <;> cases h <;> decide

/-- The range of any other integer type fits a signed word. -/
theorem range_signed {t : ValueType} {least largest : Int}
    (h : t.integerRange? = some (least, largest)) (hs : t.isUnsigned = false) :
    -2 ^ 63 ≤ least ∧ largest < 2 ^ 63 := by
  cases t <;> cases hs <;> cases h <;> decide

end ValueType

theorem wellTyped_unsigned {t : ValueType} {n : UInt64} (hu : t.isUnsigned = true) :
    WellTyped t (.unsigned n) ↔ t.InRange n.toNat := by
  cases t <;> cases hu <;> simp [WellTyped, ValueType.isUnsigned]

theorem wellTyped_signed {t : ValueType} {n : Int64} {range : Int × Int}
    (h : t.integerRange? = some range) (hs : t.isUnsigned = false) :
    WellTyped t (.signed n) ↔ t.InRange n.toInt := by
  cases t <;> cases hs <;> cases h <;> simp [WellTyped, ValueType.isUnsigned]

theorem WellTyped.unsigned {t : ValueType} {v : Value} {range : Int × Int}
    (hrange : t.integerRange? = some range) (hu : t.isUnsigned = true) (h : WellTyped t v) :
    ∃ n : UInt64, v = .unsigned n ∧ range.1 ≤ n.toNat ∧ (n.toNat : Int) ≤ range.2 := by
  have hform : ∃ n : UInt64, v = .unsigned n ∧ t.InRange n.toNat := by
    cases t <;> cases hu <;> simpa [WellTyped, ValueType.isUnsigned] using h
  obtain ⟨n, hv, range', hrange', hin⟩ := hform
  cases hrange.symm.trans hrange'
  exact ⟨n, hv, hin⟩

theorem WellTyped.signed {t : ValueType} {v : Value} {range : Int × Int}
    (hrange : t.integerRange? = some range) (hs : t.isUnsigned = false) (h : WellTyped t v) :
    ∃ n : Int64, v = .signed n ∧ range.1 ≤ n.toInt ∧ n.toInt ≤ range.2 := by
  have hform : ∃ n : Int64, v = .signed n ∧ t.InRange n.toInt := by
    cases t <;> cases hs <;> cases hrange <;> simpa [WellTyped, ValueType.isUnsigned] using h
  obtain ⟨n, hv, range', hrange', hin⟩ := hform
  cases hrange.symm.trans hrange'
  exact ⟨n, hv, hin⟩

namespace Conversion

/-- A number in the range of its type becomes the word that stands for it. -/
theorem integer_wellTyped {raw : List Char} {t : ValueType} {v : Value}
    (h : integer raw t = .ok v) : WellTyped t v := by
  unfold integer at h
  split at h
  · cases h
  · next least largest hrange =>
    split at h
    · cases h
    · next n hread =>
      split at h
      · cases h
      · next hin =>
        rw [not_or] at hin
        have hlow : least ≤ n := by omega
        have hhigh : n ≤ largest := by omega
        split at h
        · next hu =>
          cases h
          obtain ⟨hl, hr⟩ := t.range_unsigned hrange hu
          have hn : (UInt64.ofNat n.toNat).toNat = n.toNat :=
            UInt64.toNat_ofNat_of_lt' (by have h64 : UInt64.size = 2 ^ 64 := rfl; omega)
          rw [wellTyped_unsigned hu, hn]
          exact ⟨(least, largest), hrange, by omega, by omega⟩
        · next hs =>
          cases h
          have hs := Bool.not_eq_true _ ▸ hs
          obtain ⟨hl, hr⟩ := t.range_signed hrange hs
          have hn : (Int64.ofInt n).toInt = n := Int64.toInt_ofInt_of_le (by omega) (by omega)
          rw [wellTyped_signed hrange hs, hn]
          exact ⟨(least, largest), hrange, hlow, hhigh⟩

/-- Induction on the type: the items of a list are converted at its element type. -/
theorem convert_wellTyped {raw : List Char} {t : ValueType} {v : Value}
    (h : convert raw t = .ok v) : WellTyped t v := by
  induction t generalizing raw v with
  | string => cases h; exact ⟨_, rfl⟩
  | bool =>
    simp only [convert] at h
    split at h <;> cases h
    exact ⟨_, rfl⟩
  | f32 =>
    simp only [convert] at h
    split at h <;> cases h
    exact ⟨_, rfl⟩
  | f64 =>
    simp only [convert] at h
    split at h <;> cases h
    exact ⟨_, rfl⟩
  | duration =>
    simp only [convert] at h
    split at h <;> cases h
    exact ⟨_, rfl⟩
  | enum name variants =>
    simp only [convert] at h
    split at h
    · next variant hfound =>
      cases h
      exact ⟨variant, List.mem_of_find?_eq_some hfound, rfl⟩
    · cases h
  | list element ih =>
    obtain ⟨items, rfl, hitems⟩ := convert_list_eq_ok.mp h
    have hall := hitems.flip.imp fun item text htext => And.intro (ih htext) htext
    exact ⟨items, rfl, ((List.forall₂_and_left _ _).mp hall).1⟩
  | _ => exact integer_wellTyped h

end Conversion

/-- Converted arguments are as many as the parameters, and well typed one by one. -/
theorem convertArguments_typed {params : List ValueType} {texts : List String} {args : List Value}
    (harity : params.length = texts.length) (h : convertArguments params texts = .ok args) :
    List.Forall₂ WellTyped params args := by
  have hall := mapM_eq_ok_iff.mp h
  rw [List.forall₂_iff_get] at hall ⊢
  obtain ⟨hlength, hget⟩ := hall
  rw [List.length_zip, ← harity, Nat.min_self] at hlength
  refine ⟨hlength, fun i hp ha => ?_⟩
  have hconverted := hget i (by rw [List.length_zip]; omega) ha
  rw [List.get_eq_getElem, List.getElem_zip] at hconverted
  exact Conversion.convert_wellTyped hconverted

end NodeProbe
