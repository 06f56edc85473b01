import Mathlib.Data.List.Nodup
import NodeProbe.Component.Counter
import NodeProbe.Component.Diagnostics

/-!
# Registered names are unique

Adding a part drops an earlier one of its name, and the tables of the counter and of the
diagnostics know each name once. Where that holds, a lookup by name finds the very member that
stands in the table.
-/
namespace NodeProbe

variable {σ τ α : Type}

/-- A member with a name of its own is the one that is found under it. -/
theorem find?_of_nodup {key : α → String} {xs : List α} (h : (xs.map key).Nodup) {x : α}
    (hx : x ∈ xs) : xs.find? (key · == key x) = some x := by
  have hsome : (xs.find? (key · == key x)).isSome :=
    List.find?_isSome.mpr ⟨x, hx, beq_self_eq_true _⟩
  obtain ⟨y, hy⟩ := Option.isSome_iff_exists.mp hsome
  have hkey := List.find?_some hy
  rw [beq_iff_eq] at hkey
  rw [hy, List.inj_on_of_nodup_map h (List.mem_of_find?_eq_some hy) hx hkey]

theorem find?_eq_some_of_nodup {key : α → String} {xs : List α} (h : (xs.map key).Nodup)
    {k : String} {x : α} : xs.find? (key · == k) = some x ↔ x ∈ xs ∧ key x = k := by
  constructor
  · intro hfound
    have hkey := List.find?_some hfound
    exact ⟨List.mem_of_find?_eq_some hfound, beq_iff_eq.mp hkey⟩
  · rintro ⟨hx, rfl⟩
    exact find?_of_nodup h hx

theorem nodup_replaced (key : α → String) {xs : List α} (h : (xs.map key).Nodup) (x : α) :
    ((xs.filter (key · ≠ key x) ++ [x]).map key).Nodup := by
  have hkept : ((xs.filter (key · ≠ key x)).map key).Nodup := h.sublist (List.filter_sublist.map key)
  rw [List.map_append, List.nodup_append]
  refine ⟨hkept, List.nodup_singleton _, ?_⟩
  intro k hk k' hk' heq
  obtain ⟨y, hy, rfl⟩ := List.mem_map.mp hk
  rw [List.map_singleton, List.mem_singleton] at hk'
  exact of_decide_eq_true (List.mem_filter.mp hy).2 (heq.trans hk')

def Table.Distinct (t : Table σ) : Prop := (t.attributes.map (·.name)).Nodup

instance (t : Table σ) : Decidable t.Distinct :=
  inferInstanceAs (Decidable (t.attributes.map (·.name)).Nodup)

namespace Table.Distinct

variable {t : Table σ}

theorem focus (h : t.Distinct) (place : Lens τ σ) : (t.focus place).Distinct := by
  unfold Distinct Table.focus
  rw [List.map_map]
  exact h

theorem attribute?_eq (h : t.Distinct) {a : Attribute σ} (ha : a ∈ t.attributes) :
    t.attribute? a.name = some a := find?_of_nodup h ha

end Table.Distinct

/-- The tables of the surface know each name once, and so does the list of its parts. -/
structure Surface.Distinct (surface : Surface σ) : Prop where
  own : surface.own.Distinct
  parts : (surface.parts.map (·.name)).Nodup
  tables : ∀ p ∈ surface.parts, p.table.Distinct

namespace Surface.Distinct

variable {surface : Surface σ}

theorem ofTable {t : Table σ} (h : t.Distinct) : ({ own := t } : Surface σ).Distinct where
  own := h
  parts := List.nodup_nil
  tables _ hp := absurd hp List.not_mem_nil

theorem withPart (h : surface.Distinct) (name : String) {t : Table σ} (ht : t.Distinct) :
    (surface.withPart name t).Distinct where
  own := h.own
  parts := nodup_replaced Part.name h.parts ⟨name, t⟩
  tables p hp := by
    rcases List.mem_append.mp hp with hold | hnew
    · exact h.tables p (List.mem_of_mem_filter hold)
    · rw [List.mem_singleton.mp hnew]
      exact ht

theorem focus (h : surface.Distinct) (place : Lens τ σ) : (surface.focus place).Distinct where
  own := h.own.focus place
  parts := by
    unfold Surface.focus
    rw [List.map_map]
    exact h.parts
  tables p hp := by
    obtain ⟨q, hq, rfl⟩ := List.mem_map.mp hp
    exact (h.tables q hq).focus place

end Surface.Distinct

theorem counter_distinct : counter.surface.Distinct := by
  have hown : Counter.table.Distinct := by decide
  have hhistory : Counter.historyTable.Distinct := by decide
  exact .withPart (.ofTable hown) "history" hhistory

theorem diagnostics_distinct : diagnostics.surface.Distinct := by
  have htable : Diagnostics.table.Distinct := by decide
  exact .ofTable htable

end NodeProbe
