import NodeProbe.Component.Counter
import NodeProbe.Component.Diagnostics
import NodeProbe.Proofs.View

/-!
# The bodies of the counter

Every deed of the counter is one of eleven bodies, told apart by the name and the declared
types of its member. What the counter does is proved from this list and from nothing else.
-/
namespace NodeProbe.Counter

/-- The setter of a value that reads as `read` says and leads to the state `next`. -/
def stored {α : Type} (read : Except Failure α) (next : State → α → Except Failure State)
    (s : State) : Except Failure (Option Value) × State :=
  match read with
  | .error e => (.error e, s)
  | .ok a =>
    match next s a with
    | .error e => (.error e, s)
    | .ok s' => (.ok none, s')

/-- A setter fails and changes nothing, or it reads a value and leads to its next state. -/
theorem stored_cases {α : Type} (read : Except Failure α) (next : State → α → Except Failure State)
    (s : State) :
    (∃ e, stored read next s = (.error e, s) ∧
      (read = .error e ∨ ∃ a, read = .ok a ∧ next s a = .error e)) ∨
    ∃ a s', stored read next s = (.ok none, s') ∧ read = .ok a ∧ next s a = .ok s' := by
  unfold stored
  cases read with
  | error e => exact .inl ⟨e, rfl, .inl rfl⟩
  | ok a =>
    dsimp only
    cases hnext : next s a with
    | error e => exact .inl ⟨e, rfl, .inr ⟨a, rfl, hnext⟩⟩
    | ok s' => exact .inr ⟨a, s', rfl, rfl, hnext⟩

/-- What the member of a deed declares, and what its body does. -/
inductive Body : Deed State → (State → Except Failure (Option Value) × State) → Prop
  | count {a v} (hname : a.name = "count") (htype : a.type = .i64) :
    Body (.store a v) (stored v.asInt64 fun s count => .ok { s with count })
  | step {a v} (hname : a.name = "step") (htype : a.type = .u32) :
    Body (.store a v) (stored v.asUInt64 State.setStep)
  | mode {a v} (hname : a.name = "mode") (htype : a.type = Mode.type) :
    Body (.store a v) (stored v.asText fun s name => do return { s with mode := ← Mode.ofText name })
  | label {a v} (hname : a.name = "label") (htype : a.type = .string) :
    Body (.store a v) (stored v.asText fun s label => .ok { s with label })
  | capacity {a v} (hname : a.name = "capacity") (htype : a.type = .usize) :
    Body (.store a v) (stored v.asUInt64 fun s capacity => .ok (s.setCapacity capacity))
  /-- The history is shown by an attribute that cannot be written. -/
  | recent {a v} (hname : a.name = "recent")
    (hget : ∀ s, a.get s = some (.list (s.history.map .signed))) :
    Body (.store a v) fun s => (.ok none, s)
  | increment {o args} (hname : o.name = "increment") (hparams : o.params = []) :
    Body (.run o args) fun s => (.ok (some (.signed s.increment.count)), s.increment)
  | add {o args} (hname : o.name = "add") (hparams : o.params = [.i64]) :
    Body (.run o args) fun s =>
      match (argument args).asInt64 with
      | .error e => (.error e, s)
      | .ok delta => (.ok (some (.signed (s.add delta).count)), s.add delta)
  | reset {o args} (hname : o.name = "reset") (hparams : o.params = []) :
    Body (.run o args) fun s => (.ok none, { s with count := 0 })
  | clear {o args} (hname : o.name = "clear") (hparams : o.params = []) :
    Body (.run o args) fun s => (.ok none, { s with history := [] })
  | resetStatistics : Body .reset fun s => (.ok none, s.clear)

/-- A setter leaves the state alone unless both the reading of the value and the next state succeed.
-/
theorem setter_apply {α : Type} (read : Value → Except Failure α)
    (next : State → α → Except Failure State) (v : Value) (s : State) :
    setter read next v s = match read v with
      | .error e => (.error e, s)
      | .ok a =>
        match next s a with
        | .error e => (.error e, s)
        | .ok s' => (.ok (), s') := by
  unfold setter Action.atomic
  cases read v with
  | error e => rfl
  | ok a =>
    dsimp only
    cases hnext : next s a <;> simp [bind, Except.bind, pure, Except.pure, hnext]

/-- A member that is written through a setter stores what the setter reads. -/
theorem perform_setter {α : Type} {a : Attribute State} {read : Value → Except Failure α}
    {next : State → α → Except Failure State} (hset : a.set? = some (setter read next)) (v : Value) :
    (Deed.store a v).perform counter = stored (read v) next := by
  funext s
  unfold Deed.perform stored
  dsimp only
  rw [Attribute.store_of_set hset]
  simp only [Action.map, setter_apply]
  cases read v with
  | error e => rfl
  | ok x => cases hnext : next s x <;> simp [hnext, Except.map]

/-- The attributes of the counter, each with what its setter does. -/
theorem attributes_eq : ∃ count step mode label capacity recent : Attribute State,
    counter.attributes = [count, step, mode, label, capacity, recent] ∧
    (count.name = "count" ∧ count.type = .i64 ∧
      count.set? = some (setter Value.asInt64 fun s count => .ok { s with count })) ∧
    (step.name = "step" ∧ step.type = .u32 ∧
      step.set? = some (setter Value.asUInt64 State.setStep)) ∧
    (mode.name = "mode" ∧ mode.type = Mode.type ∧ mode.set? = some (setter Value.asText
      fun s name => do return { s with mode := ← Mode.ofText name })) ∧
    (label.name = "label" ∧ label.type = .string ∧
      label.set? = some (setter Value.asText fun s label => .ok { s with label })) ∧
    (capacity.name = "capacity" ∧ capacity.type = .usize ∧ capacity.set? = some (setter
      Value.asUInt64 fun s capacity => .ok (s.setCapacity capacity))) ∧
    (recent.name = "recent" ∧ recent.set? = none ∧
      ∀ s, recent.get s = some (.list (s.history.map .signed))) :=
  ⟨_, _, _, _, _, _, rfl, ⟨rfl, rfl, rfl⟩, ⟨rfl, rfl, rfl⟩, ⟨rfl, rfl, rfl⟩, ⟨rfl, rfl, rfl⟩,
    ⟨rfl, rfl, rfl⟩, ⟨rfl, rfl, fun _ => rfl⟩⟩

theorem body_store {a : Attribute State} (h : a ∈ counter.attributes) (v : Value) :
    Body (.store a v) ((Deed.store a v).perform counter) := by
  obtain ⟨count, step, mode, label, capacity, recent, hlist, ⟨hn₁, ht₁, hs₁⟩, ⟨hn₂, ht₂, hs₂⟩,
    ⟨hn₃, ht₃, hs₃⟩, ⟨hn₄, ht₄, hs₄⟩, ⟨hn₅, ht₅, hs₅⟩, ⟨hn₆, hs₆, hg₆⟩⟩ := attributes_eq
  rw [hlist] at h
  simp only [List.mem_cons, List.not_mem_nil, or_false] at h
  rcases h with rfl | rfl | rfl | rfl | rfl | rfl
  · rw [perform_setter hs₁]; exact .count hn₁ ht₁
  · rw [perform_setter hs₂]; exact .step hn₂ ht₂
  · rw [perform_setter hs₃]; exact .mode hn₃ ht₃
  · rw [perform_setter hs₄]; exact .label hn₄ ht₄
  · rw [perform_setter hs₅]; exact .capacity hn₅ ht₅
  · have hnone : (Deed.store a v).perform counter = fun s => (.ok none, s) := by
      funext s
      exact congrArg (fun p : Except Failure Bool × State => (p.1.map fun _ => none, p.2))
        (Attribute.store_of_readOnly hs₆ v s)
    rw [hnone]
    exact .recent hn₆ hg₆

/-- The operations of the counter, each with what its body does. -/
theorem operations_eq : ∃ increment add reset clear : Operation State,
    counter.operations = [increment, add, reset, clear] ∧
    (increment.name = "increment" ∧ increment.params = [] ∧
      ∀ args, increment.run args = fun s => (.ok (some (.signed s.increment.count)), s.increment)) ∧
    (add.name = "add" ∧ add.params = [.i64] ∧ ∀ args, add.run args = .atomic fun s =>
      (argument args).asInt64.map fun delta => added (s.add delta)) ∧
    (reset.name = "reset" ∧ reset.params = [] ∧
      ∀ args, reset.run args = fun s => (.ok none, { s with count := 0 })) ∧
    (clear.name = "clear" ∧ clear.params = [] ∧
      ∀ args, clear.run args = fun s => (.ok none, { s with history := [] })) :=
  ⟨_, _, _, _, rfl, ⟨rfl, rfl, fun _ => rfl⟩, ⟨rfl, rfl, fun _ => rfl⟩, ⟨rfl, rfl, fun _ => rfl⟩,
    ⟨rfl, rfl, fun _ => rfl⟩⟩

theorem body_run {o : Operation State} (h : o ∈ counter.operations) (args : List Value) :
    Body (.run o args) (o.run args) := by
  obtain ⟨increment, add, reset, clear, hlist, ⟨hn₁, hp₁, hr₁⟩, ⟨hn₂, hp₂, hr₂⟩, ⟨hn₃, hp₃, hr₃⟩,
    ⟨hn₄, hp₄, hr₄⟩⟩ := operations_eq
  rw [hlist] at h
  simp only [List.mem_cons, List.not_mem_nil, or_false] at h
  rcases h with rfl | rfl | rfl | rfl
  · rw [hr₁]; exact .increment hn₁ hp₁
  · have hrun : o.run args = fun s =>
        match (argument args).asInt64 with
        | .error e => (.error e, s)
        | .ok delta => (.ok (some (.signed (s.add delta).count)), s.add delta) := by
      funext s
      rw [hr₂]
      unfold Action.atomic
      cases (argument args).asInt64 <;> rfl
    rw [hrun]
    exact .add hn₂ hp₂
  · rw [hr₃]; exact .reset hn₃ hp₃
  · rw [hr₄]; exact .clear hn₄ hp₄

/-- Every deed of the counter runs one of its bodies. -/
theorem body_of_on {d : Deed State} (h : d.On counter) : Body d (d.perform counter) := by
  cases d with
  | store a v => exact body_store h v
  | run o args => exact body_run h args
  | reset => exact .resetStatistics

end NodeProbe.Counter
