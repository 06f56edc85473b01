import NodeProbe.Proofs.Deed

/-!
# Carrying a component to another state

A carrier turns members over one state into members over another and keeps what they
declare. Lookups follow declarations only, so they find the carried members; and where
the carried bodies act on a view of the new state as the bodies did, so does the
component.
-/
namespace NodeProbe

/-- A way to carry members over `σ` to members over `τ` with the same declarations. -/
structure Carrier (σ τ : Type) where
  ofAttribute : Attribute σ → Attribute τ
  ofOperation : Operation σ → Operation τ
  name_ofAttribute : ∀ a, (ofAttribute a).name = a.name
  type_ofAttribute : ∀ a, (ofAttribute a).type = a.type
  backing_ofAttribute : ∀ a, (ofAttribute a).backing = a.backing
  isWritable_ofAttribute : ∀ a, (ofAttribute a).isWritable = a.isWritable
  name_ofOperation : ∀ o, (ofOperation o).name = o.name
  params_ofOperation : ∀ o, (ofOperation o).params = o.params

variable {σ τ : Type}

def Lens.carrier (place : Lens τ σ) : Carrier σ τ where
  ofAttribute a := a.focus place
  ofOperation o := o.focus place
  name_ofAttribute _ := rfl
  type_ofAttribute _ := rfl
  backing_ofAttribute _ := rfl
  isWritable_ofAttribute a := by
    unfold Attribute.isWritable Attribute.focus
    exact Option.isSome_map
  name_ofOperation _ := rfl
  params_ofOperation _ := rfl

section

variable (k : Carrier σ τ)

def Table.carry (t : Table σ) : Table τ where
  attributes := t.attributes.map k.ofAttribute
  operations := t.operations.map k.ofOperation

def Part.carry (p : Part σ) : Part τ := ⟨p.name, p.table.carry k⟩

def Surface.carry (surface : Surface σ) : Surface τ where
  own := surface.own.carry k
  parts := surface.parts.map (·.carry k)

def Component.carry (reset : τ → τ) (c : Component σ) : Component τ where
  name := c.name
  className := c.className
  surface := c.surface.carry k
  reset := reset

def Setter.carry : Setter σ → Setter τ
  | .accessor a => .accessor (k.ofAttribute a)
  | .operation o param => .operation (k.ofOperation o) param

def WriteTarget.carry : WriteTarget σ → WriteTarget τ
  | .field a => .field (k.ofAttribute a)
  | .setter s => .setter (s.carry k)

def Deed.carry : Deed σ → Deed τ
  | .store a v => .store (k.ofAttribute a) v
  | .run o args => .run (k.ofOperation o) args
  | .reset => .reset

end

theorem Component.focus_eq_carry (place : Lens τ σ) (c : Component σ) :
    c.focus place = c.carry place.carrier fun m => place.put (c.reset (place.get m)) m := rfl

/-- The operation with one parameter that a name stands for, as a setter. -/
def Table.operationSetter? (t : Table σ) (candidate : String) : Option (Setter σ) :=
  (t.operation? candidate 1).bind fun o => o.params.head?.map (Setter.operation o)

theorem Table.setter?_eq (t : Table σ) (name : String) :
    t.setter? name =
      match (t.attribute? name).filter fun a => a.backing == .accessor && a.isWritable with
      | some a => some (.accessor a)
      | none => (setterNames name).findSome? t.operationSetter? := rfl

/-! ## Lookups -/

section

variable {k : Carrier σ τ}

theorem Table.attribute?_carry (t : Table σ) (name : String) :
    (t.carry k).attribute? name = (t.attribute? name).map k.ofAttribute := by
  unfold attribute? carry
  rw [List.find?_map]
  simp only [Function.comp_def, k.name_ofAttribute]

theorem Table.field?_carry (t : Table σ) (name : String) :
    (t.carry k).field? name = (t.field? name).map k.ofAttribute := by
  unfold field?
  rw [attribute?_carry]
  cases t.attribute? name with
  | none => rfl
  | some a => cases h : a.backing <;> simp [Option.filter, k.backing_ofAttribute, h]

theorem Table.operation?_carry (t : Table σ) (name : String) (arity : Nat) :
    (t.carry k).operation? name arity = (t.operation? name arity).map k.ofOperation := by
  unfold operation? carry
  rw [List.find?_map]
  simp only [Function.comp_def, Operation.arity, k.name_ofOperation, k.params_ofOperation]

theorem Table.operationSetter?_carry (t : Table σ) (candidate : String) :
    (t.carry k).operationSetter? candidate = (t.operationSetter? candidate).map (·.carry k) := by
  unfold operationSetter?
  rw [operation?_carry]
  cases t.operation? candidate 1 with
  | none => rfl
  | some o =>
    simp only [Option.map_some, Option.bind_some, k.params_ofOperation, Option.map_map]
    rfl

theorem Table.setter?_carry (t : Table σ) (name : String) :
    (t.carry k).setter? name = (t.setter? name).map (·.carry k) := by
  have hoperations : (setterNames name).findSome? (t.carry k).operationSetter? =
      ((setterNames name).findSome? t.operationSetter?).map (·.carry k) := by
    rw [List.map_findSome?]
    exact congrArg (List.findSome? · _) (funext t.operationSetter?_carry)
  rw [setter?_eq, setter?_eq, attribute?_carry, hoperations]
  cases t.attribute? name with
  | none => rfl
  | some a =>
    simp only [Option.map_some, Option.filter, k.backing_ofAttribute, k.isWritable_ofAttribute]
    by_cases h : (a.backing == .accessor && a.isWritable) = true
    · rw [if_pos h, if_pos h]; rfl
    · rw [if_neg h, if_neg h]

theorem Table.writeTargets_carry (t : Table σ) (name : String) :
    (t.carry k).writeTargets name =
      (t.writeTargets name).map fun target => (target.1.carry k, target.2) := by
  unfold writeTargets
  rw [field?_carry, setter?_carry, List.map_append]
  cases t.field? name <;> cases t.setter? name <;> rfl

theorem Surface.splitName?_carry (surface : Surface σ) (name : String) :
    (surface.carry k).splitName? name =
      (surface.splitName? name).map fun (p, rest) => (p.carry k, rest) := by
  unfold splitName? carry
  rw [List.findSome?_map, List.map_findSome?]
  congr 1
  funext p
  simp only [Function.comp_apply, Part.carry, Option.map_map]
  rfl

/-- An operation is looked up by its name and its arity, and carrying keeps both. -/
theorem Surface.operation?_carry (surface : Surface σ) (name : String) (arity : Nat) :
    (surface.carry k).operation? name arity = (surface.operation? name arity).map k.ofOperation := by
  have hparts : (surface.parts.map (·.carry k)).findSome? (fun p =>
      (name.dropLeading? (p.name ++ ".")).bind fun rest => p.table.operation? rest arity) =
      (surface.parts.findSome? fun p =>
        (name.dropLeading? (p.name ++ ".")).bind fun rest =>
          p.table.operation? rest arity).map k.ofOperation := by
    rw [List.findSome?_map, List.map_findSome?]
    congr 1
    funext p
    show ((name.dropLeading? (p.name ++ ".")).bind fun rest =>
        (p.table.carry k).operation? rest arity) =
      ((name.dropLeading? (p.name ++ ".")).bind fun rest =>
        p.table.operation? rest arity).map k.ofOperation
    cases name.dropLeading? (p.name ++ ".") with
    | none => rfl
    | some rest => exact Table.operation?_carry p.table rest arity
  unfold operation? carry
  rw [Table.operation?_carry, hparts]
  cases surface.own.operation? name arity <;> rfl

/-- A write finds the same targets in the same order on a carried component. -/
theorem Component.writeTargets_carry (c : Component σ) (r : τ → τ) (name : String) :
    (c.carry k r).writeTargets name =
      (c.writeTargets name).map fun target => (target.1.carry k, target.2) := by
  have hown : (c.carry k r).surface.own.writeTargets name =
      (c.surface.own.writeTargets name).map fun target => (target.1.carry k, target.2) :=
    Table.writeTargets_carry c.surface.own name
  have hsplit : (c.carry k r).surface.splitName? name =
      (c.surface.splitName? name).map fun (p, rest) => (p.carry k, rest) :=
    Surface.splitName?_carry c.surface name
  unfold writeTargets
  rw [hown, hsplit, List.map_append]
  cases c.surface.splitName? name with
  | none => rfl
  | some found => exact congrArg _ (Table.writeTargets_carry found.1.table found.2)

theorem Component.findAttribute?_carry (c : Component σ) (r : τ → τ) (name : String) :
    (c.carry k r).findAttribute? name = (c.findAttribute? name).map k.ofAttribute := by
  unfold findAttribute?
  change ((c.surface.own.carry k).attribute? name).or
    (((c.surface.carry k).splitName? name).bind fun (p, rest) => p.table.attribute? rest) = _
  rw [Table.attribute?_carry, Surface.splitName?_carry]
  cases c.surface.own.attribute? name with
  | some a => rfl
  | none =>
    cases c.surface.splitName? name with
    | none => rfl
    | some found => exact Table.attribute?_carry found.1.table found.2

/-! ## Deeds -/

theorem Component.attributes_carry (c : Component σ) (r : τ → τ) :
    (c.carry k r).attributes = c.attributes.map k.ofAttribute := by
  simp [attributes, tables, carry, Surface.carry, Part.carry, Table.carry, List.map_flatMap,
    List.flatMap_map]

theorem Component.operations_carry (c : Component σ) (r : τ → τ) :
    (c.carry k r).operations = c.operations.map k.ofOperation := by
  simp [operations, tables, carry, Surface.carry, Part.carry, Table.carry, List.map_flatMap,
    List.flatMap_map]

theorem Component.of_mem_attributes_carry {c : Component σ} {r : τ → τ} {a' : Attribute τ}
    (h : a' ∈ (c.carry k r).attributes) : ∃ a ∈ c.attributes, a' = k.ofAttribute a := by
  rw [attributes_carry] at h
  obtain ⟨a, ha, rfl⟩ := List.mem_map.mp h
  exact ⟨a, ha, rfl⟩

theorem Component.of_mem_operations_carry {c : Component σ} {r : τ → τ} {o' : Operation τ}
    (h : o' ∈ (c.carry k r).operations) : ∃ o ∈ c.operations, o' = k.ofOperation o := by
  rw [operations_carry] at h
  obtain ⟨o, ho, rfl⟩ := List.mem_map.mp h
  exact ⟨o, ho, rfl⟩

/-- Every deed on a carried component is a carried deed. -/
theorem Deed.on_carry {c : Component σ} {r : τ → τ} {d' : Deed τ} (h : d'.On (c.carry k r)) :
    ∃ d : Deed σ, d.On c ∧ d' = d.carry k := by
  cases d' with
  | store a' v =>
    obtain ⟨a, ha, rfl⟩ := Component.of_mem_attributes_carry h
    exact ⟨.store a v, ha, rfl⟩
  | run o' args =>
    obtain ⟨o, ho, rfl⟩ := Component.of_mem_operations_carry h
    exact ⟨.run o args, ho, rfl⟩
  | reset => exact ⟨.reset, trivial, rfl⟩

theorem Deed.typed_carry (d : Deed σ) : (d.carry k).Typed ↔ d.Typed := by
  cases d with
  | store a v => exact iff_of_eq (congrArg (WellTyped · v) (k.type_ofAttribute a))
  | run o args =>
    exact iff_of_eq (congrArg (List.Forall₂ WellTyped · args) (k.params_ofOperation o))
  | reset => exact Iff.rfl

end

theorem Component.of_mem_attributes_focus {place : Lens τ σ} {c : Component σ} {a' : Attribute τ}
    (h : a' ∈ (c.focus place).attributes) : ∃ a ∈ c.attributes, a' = a.focus place := by
  rw [focus_eq_carry] at h
  exact of_mem_attributes_carry h

theorem Component.of_mem_operations_focus {place : Lens τ σ} {c : Component σ} {o' : Operation τ}
    (h : o' ∈ (c.focus place).operations) : ∃ o ∈ c.operations, o' = o.focus place := by
  rw [focus_eq_carry] at h
  exact of_mem_operations_carry h

theorem Deed.on_focus {place : Lens τ σ} {c : Component σ} {d' : Deed τ}
    (h : d'.On (c.focus place)) : ∃ d : Deed σ, d.On c ∧ d' = d.carry place.carrier := by
  rw [Component.focus_eq_carry] at h
  exact Deed.on_carry h

end NodeProbe
