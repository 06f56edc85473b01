import Mathlib.Logic.Relation
import NodeProbe.Proofs.Deed
import NodeProbe.Proofs.WellTyped
import NodeProbe.Request.Dispatch

/-!
# How a command moves the memory of a node

Whatever a command does, the memory moves by deeds of the node's components on well-typed
values. Every invariant of the components' state is derived from this.
-/
namespace NodeProbe

variable {σ μ : Type}

/-- The component carries out one deed, on well-typed values. -/
def Component.Does (c : Component μ) (m m' : μ) : Prop :=
  ∃ d : Deed μ, d.On c ∧ d.Typed ∧ m' = (d.perform c m).2

/-- The components carry out deeds one after the other. -/
def Moves (components : List (Component μ)) : μ → μ → Prop :=
  Relation.ReflTransGen fun m m' => ∃ c ∈ components, c.Does m m'

namespace Moves

theorem refl (components : List (Component μ)) (m : μ) : Moves components m m :=
  Relation.ReflTransGen.refl

theorem trans {components : List (Component μ)} {m m' m'' : μ} (h : Moves components m m')
    (h' : Moves components m' m'') : Moves components m m'' :=
  Relation.ReflTransGen.trans h h'

theorem of_does {c : Component μ} {m m' : μ} (h : c.Does m m') : Moves [c] m m' :=
  .single ⟨c, List.mem_singleton_self c, h⟩

/-- The moves of one component are moves of every list that holds it. -/
theorem of_mem {components : List (Component μ)} {c : Component μ} (hc : c ∈ components)
    {m m' : μ} (h : Moves [c] m m') : Moves components m m' := by
  refine Relation.ReflTransGen.mono (fun a b hab => ?_) m m' h
  obtain ⟨c', hc', hdoes⟩ := hab
  rw [List.mem_singleton] at hc'
  subst c'
  exact ⟨c, hc, hdoes⟩

/-- What every deed preserves, every sequence of deeds preserves. -/
theorem preserves {components : List (Component μ)} {P : μ → Prop}
    (hstep : ∀ c ∈ components, ∀ m m', c.Does m m' → P m → P m') {m m' : μ}
    (h : Moves components m m') (hm : P m) : P m' := by
  induction h with
  | refl => exact hm
  | tail _ hdoes ih =>
    obtain ⟨c, hc, hdoes⟩ := hdoes
    exact hstep c hc _ _ hdoes ih

end Moves

theorem WriteTarget.write_field_snd (a : Attribute μ) (name raw : String) (m : μ) :
    ((field a).write name raw m).2 = match a.type.convert raw with
      | .error _ => m
      | .ok v => (a.store v m).2 := by
  simp only [write]
  cases a.type.convert raw with
  | error e => rfl
  | ok v =>
    dsimp only
    split <;> simp_all

theorem WriteTarget.write_setter_snd (s : Setter μ) (name raw : String) (m : μ) :
    ((setter s).write name raw m).2 = match s.type.convert raw with
      | .error _ => m
      | .ok v => (s.apply v m).2 := by
  simp only [write]
  cases s.type.convert raw with
  | error e => rfl
  | ok v =>
    dsimp only
    split <;> simp_all

/-- A write through one target is one deed on a converted value, or nothing. -/
theorem WriteTarget.write_moves {c : Component μ} {target : WriteTarget μ} (h : target.On c)
    (name raw : String) (m : μ) : Moves [c] m (target.write name raw m).2 := by
  cases target with
  | field a =>
    rw [write_field_snd]
    cases hv : a.type.convert raw with
    | error e => exact .refl _ _
    | ok v => exact .of_does ⟨.store a v, h, Conversion.convert_wellTyped hv, rfl⟩
  | setter s =>
    rw [write_setter_snd]
    cases hv : s.type.convert raw with
    | error e => exact .refl _ _
    | ok v =>
      cases s with
      | accessor a => exact .of_does ⟨.store a v, h, Conversion.convert_wellTyped hv, rfl⟩
      | operation o param =>
        obtain ⟨ho, hparams⟩ := h
        refine .of_does ⟨.run o [v], ho, ?_, rfl⟩
        change List.Forall₂ WellTyped o.params [v]
        rw [hparams]
        exact .cons (Conversion.convert_wellTyped hv) .nil

/-- Targets that are tried and fail may leave their mark, so each of them counts as a deed. -/
theorem tryTargets_moves {c : Component μ} (raw : String) {targets : List (WriteTarget μ × String)}
    (h : ∀ target ∈ targets, target.1.On c) (failures : List String) (m : μ) :
    Moves [c] m (tryTargets raw targets failures m).2 := by
  induction targets generalizing failures m with
  | nil => exact .refl _ _
  | cons head targets ih =>
    obtain ⟨target, name⟩ := head
    have hhead := WriteTarget.write_moves (h _ List.mem_cons_self) name raw m
    have htail := fun failures m => ih (fun t ht => h t (List.mem_cons_of_mem _ ht)) failures m
    rw [tryTargets]
    split
    · next hw => rwa [hw] at hhead
    · next hw => rw [hw] at hhead; exact hhead.trans (htail _ _)

namespace Component

theorem write_snd (c : Component μ) (name raw : String) (m : μ) :
    (c.write name raw m).2 = (tryTargets raw (c.writeTargets name) [] m).2 := by
  unfold write
  split <;> simp_all

theorem write_moves (c : Component μ) (name raw : String) (m : μ) :
    Moves [c] m (c.write name raw m).2 := by
  rw [write_snd]
  exact tryTargets_moves raw (fun _ h => writeTargets_on h) [] m

theorem writeAll_snd_cons (c : Component μ) (name raw : String) (writes : List (String × String))
    (m : μ) : (c.writeAll ((name, raw) :: writes) m).2 =
      (c.writeAll writes (c.write name raw m).2).2 := by
  simp only [writeAll]
  split <;> rfl

theorem writeAll_moves (c : Component μ) (writes : List (String × String)) (m : μ) :
    Moves [c] m (c.writeAll writes m).2 := by
  induction writes generalizing m with
  | nil => exact .refl _ _
  | cons w writes ih =>
    rw [writeAll_snd_cons]
    exact (c.write_moves w.1 w.2 m).trans (ih _)

/-- A call runs one body on converted arguments, or it fails before and does nothing. -/
theorem call_cases (c : Component μ) (call : OperationCall) (m : μ) :
    (∃ e, c.call call m = (.error e, m)) ∨
      ∃ o args, (Deed.run o args).On c ∧ (Deed.run o args).Typed ∧
        c.surface.operation? call.method call.args.length = some o ∧
        convertArguments o.params call.args = .ok args ∧
        c.call call m = match o.run args m with
          | (.error e, m') => (.error (.withContext (c.name ++ "." ++ call.method) e), m')
          | (.ok r, m') => (.ok (r.map fun v => (c.name ++ "." ++ call.method, v.render)), m') := by
  unfold Component.call
  split
  · exact .inl ⟨_, rfl⟩
  · next o ho =>
    split
    · exact .inl ⟨_, rfl⟩
    · next args hargs =>
      obtain ⟨hmem, harity⟩ := operation?_spec ho
      exact .inr ⟨o, args, hmem, convertArguments_typed harity hargs, ho, hargs, rfl⟩

theorem call_moves (c : Component μ) (call : OperationCall) (m : μ) :
    Moves [c] m (c.call call m).2 := by
  rcases c.call_cases call m with ⟨e, h⟩ | ⟨o, args, hon, htyped, -, -, h⟩
  · rw [h]; exact .refl _ _
  · refine .of_does ⟨.run o args, hon, htyped, ?_⟩
    rw [h, Deed.perform_run]
    split <;> simp_all

end Component

end NodeProbe
