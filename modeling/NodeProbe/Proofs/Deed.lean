import Mathlib.Data.List.Forall2
import NodeProbe.Request.Attributes
import NodeProbe.Request.Operations

/-!
# What can be done to a component

A command reaches the state of a component through the bodies of its tables and through
its reset, and in no other way. A deed is one such access. The lookups below only find
members that stand in a table of the component they start from.
-/
namespace NodeProbe

variable {σ μ : Type}

/-- One access to the state of a component. -/
inductive Deed (μ : Type) where
  /-- The setter of an attribute is given a value. -/
  | store (a : Attribute μ) (v : Value)
  /-- The body of an operation is given arguments, in a call or in place of a setter. -/
  | run (o : Operation μ) (args : List Value)
  | reset

namespace Component

def tables (c : Component μ) : List (Table μ) := c.surface.own :: c.surface.parts.map (·.table)

def attributes (c : Component μ) : List (Attribute μ) := c.tables.flatMap (·.attributes)

def operations (c : Component μ) : List (Operation μ) := c.tables.flatMap (·.operations)

end Component

namespace Deed

def On (c : Component μ) : Deed μ → Prop
  | store a _ => a ∈ c.attributes
  | run o _ => o ∈ c.operations
  | reset => True

/-- The body is given as many values as it declares, each well typed at its declared type. -/
def Typed : Deed μ → Prop
  | store a v => WellTyped a.type v
  | run o args => List.Forall₂ WellTyped o.params args
  | reset => True

/-- Carries out a deed; a setter and a reset give no value. -/
def perform (c : Component μ) : Deed μ → Action μ (Option Value)
  | store a v => (a.store v).map fun _ => none
  | run o args => o.run args
  | reset => fun m => (.ok none, c.reset m)

@[simp] theorem perform_store (c : Component μ) (a : Attribute μ) (v : Value) (m : μ) :
    ((store a v).perform c m).2 = (a.store v m).2 := rfl

@[simp] theorem perform_run (c : Component μ) (o : Operation μ) (args : List Value) :
    (run o args).perform c = o.run args := rfl

theorem Typed.value {a : Attribute μ} {v : Value} {t : ValueType} (h : (store a v).Typed)
    (htype : a.type = t) : WellTyped t v := by
  subst htype
  exact h

theorem Typed.arguments {o : Operation μ} {args : List Value} {params : List ValueType}
    (h : (run o args).Typed) (hparams : o.params = params) :
    List.Forall₂ WellTyped params args := by
  subst hparams
  exact h

end Deed

theorem Attribute.store_of_set {a : Attribute μ} {set : Value → Action μ Unit}
    (h : a.set? = some set) (v : Value) : a.store v = (set v).map fun _ => true := by
  unfold store
  rw [h]

theorem Attribute.store_of_readOnly {a : Attribute μ} (h : a.set? = none) (v : Value) (m : μ) :
    a.store v m = (.ok false, m) := by
  unfold store
  rw [h]

/-- Setters and operation bodies of the component change nothing when they fail. -/
def Component.Atomic (c : Component μ) : Prop :=
  ∀ d : Deed μ, d.On c → ∀ m e, (d.perform c m).1 = .error e → (d.perform c m).2 = m

namespace Table

theorem attribute?_mem {t : Table μ} {name : String} {a : Attribute μ}
    (h : t.attribute? name = some a) : a ∈ t.attributes := List.mem_of_find?_eq_some h

theorem field?_mem {t : Table μ} {name : String} {a : Attribute μ}
    (h : t.field? name = some a) : a ∈ t.attributes :=
  attribute?_mem (Option.eq_some_of_filter_eq_some h)

/-- A found operation stands in the table, under the name and with the arity asked for. -/
theorem operation?_spec {t : Table μ} {name : String} {arity : Nat} {o : Operation μ}
    (h : t.operation? name arity = some o) : o ∈ t.operations ∧ o.name = name ∧ o.arity = arity := by
  have hfound := List.find?_some h
  simp only [Bool.and_eq_true, beq_iff_eq] at hfound
  exact ⟨List.mem_of_find?_eq_some h, hfound⟩

/-- A found setter is an accessor of the table or one of its operations with one parameter. -/
theorem setter?_spec {t : Table μ} {name : String} {setter : Setter μ}
    (h : t.setter? name = some setter) :
    (∃ a ∈ t.attributes, setter = .accessor a) ∨
      ∃ o ∈ t.operations, ∃ param, o.params = [param] ∧ setter = .operation o param := by
  unfold setter? at h
  split at h
  · next a ha =>
    cases h
    exact .inl ⟨a, attribute?_mem (Option.eq_some_of_filter_eq_some ha), rfl⟩
  · obtain ⟨candidate, -, hc⟩ := List.exists_of_findSome?_eq_some h
    obtain ⟨o, ho, hp⟩ := Option.bind_eq_some_iff.mp hc
    obtain ⟨param, hparam, rfl⟩ := Option.map_eq_some_iff.mp hp
    obtain ⟨hmem, -, harity⟩ := operation?_spec ho
    refine .inr ⟨o, hmem, param, ?_, rfl⟩
    obtain ⟨p, hparams⟩ := List.length_eq_one_iff.mp harity
    rw [hparams] at hparam ⊢
    exact congrArg (fun p => [p]) (Option.some.inj hparam)

end Table

namespace Component

theorem part_tables_mem {c : Component μ} {p : Part μ} (h : p ∈ c.surface.parts) :
    p.table ∈ c.tables := List.mem_cons_of_mem _ (List.mem_map_of_mem h)

theorem table_attributes_mem {c : Component μ} {t : Table μ} {a : Attribute μ}
    (ht : t ∈ c.tables) (ha : a ∈ t.attributes) : a ∈ c.attributes :=
  List.mem_flatMap.mpr ⟨t, ht, ha⟩

theorem table_operations_mem {c : Component μ} {t : Table μ} {o : Operation μ}
    (ht : t ∈ c.tables) (ho : o ∈ t.operations) : o ∈ c.operations :=
  List.mem_flatMap.mpr ⟨t, ht, ho⟩

/-- A call only reaches operations of its component, with the arity asked for. -/
theorem operation?_spec {c : Component μ} {name : String} {arity : Nat} {o : Operation μ}
    (h : c.surface.operation? name arity = some o) : o ∈ c.operations ∧ o.arity = arity := by
  rcases Option.or_eq_some_iff.mp h with hown | ⟨-, hpart⟩
  · obtain ⟨hmem, -, harity⟩ := Table.operation?_spec hown
    exact ⟨table_operations_mem List.mem_cons_self hmem, harity⟩
  · obtain ⟨p, hp, hfound⟩ := List.exists_of_findSome?_eq_some hpart
    obtain ⟨rest, -, hrest⟩ := Option.bind_eq_some_iff.mp hfound
    obtain ⟨hmem, -, harity⟩ := Table.operation?_spec hrest
    exact ⟨table_operations_mem (part_tables_mem hp) hmem, harity⟩

end Component

/-- The target stands in a table of the component; an operation takes exactly one value. -/
def WriteTarget.On (c : Component μ) : WriteTarget μ → Prop
  | field a | setter (.accessor a) => a ∈ c.attributes
  | setter (.operation o param) => o ∈ c.operations ∧ o.params = [param]

theorem Table.writeTargets_on {c : Component μ} {t : Table μ} (ht : t ∈ c.tables) {name : String}
    {target : WriteTarget μ × String} (h : target ∈ t.writeTargets name) : target.1.On c := by
  rcases List.mem_append.mp h with hfield | hsetter
  · obtain ⟨a, ha, rfl⟩ := Option.map_eq_some_iff.mp (Option.mem_toList.mp hfield)
    exact Component.table_attributes_mem ht (field?_mem ha)
  · obtain ⟨setter, hs, rfl⟩ := Option.map_eq_some_iff.mp (Option.mem_toList.mp hsetter)
    rcases setter?_spec hs with ⟨a, ha, rfl⟩ | ⟨o, ho, param, hparams, rfl⟩
    · exact Component.table_attributes_mem ht ha
    · exact ⟨Component.table_operations_mem ht ho, hparams⟩

/-- A write only reaches members of its component. -/
theorem Component.writeTargets_on {c : Component μ} {name : String}
    {target : WriteTarget μ × String} (h : target ∈ c.writeTargets name) : target.1.On c := by
  rcases List.mem_append.mp h with hown | hpart
  · exact Table.writeTargets_on List.mem_cons_self hown
  · split at hpart
    · next p rest hsplit =>
      obtain ⟨q, hq, hfound⟩ := List.exists_of_findSome?_eq_some hsplit
      obtain ⟨text, -, he⟩ := Option.map_eq_some_iff.mp hfound
      cases he
      exact Table.writeTargets_on (part_tables_mem hq) hpart
    · cases hpart

end NodeProbe
