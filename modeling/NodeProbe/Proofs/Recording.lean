import NodeProbe.Proofs.NodeSimulation
import NodeProbe.Proofs.View

/-!
# Recording the bodies that run

A recorded node runs the same commands on the same components, each of whose bodies also
notes that it runs, on what, and in which memory. Without its trace the recorded node is
the node itself, so what holds of the trace holds of the bodies that the node runs.
-/
namespace NodeProbe

variable {σ α : Type}

/-- A body that ran or a reset: of which component, and in which memory. -/
structure Event (μ : Type) where
  component : Component μ
  deed : Deed μ
  before : μ

/-- A store with the trace of the deeds that led to it. -/
structure Recorded (σ : Type) where
  store : σ
  trace : List (Event (Memory σ)) := []

namespace Memory

def plain (m : Memory (Recorded σ)) : Memory σ := ⟨m.statistics, m.store.store⟩

def traced (m : Memory σ) (trace : List (Event (Memory σ))) : Memory (Recorded σ) :=
  ⟨m.statistics, ⟨m.store, trace⟩⟩

end Memory

/-- The action on the memory without its trace, which a deed is added to. -/
def Action.recorded (c : Component (Memory σ)) (d : Deed (Memory σ)) (act : Action (Memory σ) α) :
    Action (Memory (Recorded σ)) α := fun m =>
  let (result, m') := act m.plain
  (result, m'.traced (m.store.trace ++ [⟨c, d, m.plain⟩]))

/-- The carrier that lets every body of a component note that it runs. -/
def Component.recorder (c : Component (Memory σ)) : Carrier (Memory σ) (Memory (Recorded σ)) where
  ofAttribute a := {
    name := a.name
    type := a.type
    backing := a.backing
    description := a.description
    get := fun m => a.get m.plain
    set? := a.set?.map fun set v => (set v).recorded c (.store a v) }
  ofOperation o := {
    name := o.name
    params := o.params
    returns := o.returns
    description := o.description
    run := fun args => (o.run args).recorded c (.run o args) }
  name_ofAttribute _ := rfl
  type_ofAttribute _ := rfl
  backing_ofAttribute _ := rfl
  isWritable_ofAttribute _ := Option.isSome_map
  name_ofOperation _ := rfl
  params_ofOperation _ := rfl

theorem Component.recorder_set? (c : Component (Memory σ)) (a : Attribute (Memory σ)) :
    (c.recorder.ofAttribute a).set? =
      a.set?.map fun set v => (set v).recorded c (.store a v) := rfl

/-- Beside the note that it leaves, a recorded body does what the body does. -/
theorem Component.recorder_shows (c : Component (Memory σ)) : c.recorder.Shows Memory.plain where
  get _ _ := rfl
  store a v m := by
    cases hset : a.set? with
    | none =>
      have hnone : (c.recorder.ofAttribute a).set? = none := by
        rw [recorder_set?, hset, Option.map_none]
      rw [Attribute.store_of_readOnly hnone, Attribute.store_of_readOnly hset]
      rfl
    | some set =>
      have hsome : (c.recorder.ofAttribute a).set? =
          some fun v => (set v).recorded c (.store a v) := by
        rw [recorder_set?, hset, Option.map_some]
      rw [Attribute.store_of_set hsome, Attribute.store_of_set hset]
      rfl
  run _ _ _ := rfl

def Component.recorded (c : Component (Memory σ)) : Component (Memory (Recorded σ)) :=
  c.carry c.recorder fun m =>
    (c.reset m.plain).traced (m.store.trace ++ [⟨c, .reset, m.plain⟩])

theorem Component.recorded_simulates (c : Component (Memory σ)) :
    c.Simulates (fun m m' => m'.plain = m) c.recorded := by
  refine (c.recorder_shows.simulates c).component fun m m' h => ?_
  rw [← h]
  rfl

/-- A deed of a recorded component is a deed of the component that is noted, or a write to
an attribute that cannot be written. -/
theorem Component.recorded_does {c : Component (Memory σ)} {m m' : Memory (Recorded σ)}
    (h : c.recorded.Does m m') : m' = m ∨ ∃ d : Deed (Memory σ), d.On c ∧ d.Typed ∧
      m' = (d.perform c m.plain).2.traced (m.store.trace ++ [⟨c, d, m.plain⟩]) := by
  obtain ⟨d', hon, htyped, rfl⟩ := h
  obtain ⟨d, hd, rfl⟩ := Deed.on_carry hon
  rw [Deed.typed_carry] at htyped
  cases d with
  | store a v =>
    cases hset : a.set? with
    | none =>
      left
      have hnone : (c.recorder.ofAttribute a).set? = none := by
        rw [recorder_set?, hset, Option.map_none]
      exact congrArg Prod.snd (Attribute.store_of_readOnly hnone v m)
    | some set =>
      right
      refine ⟨.store a v, hd, htyped, ?_⟩
      have hsome : (c.recorder.ofAttribute a).set? =
          some fun v => (set v).recorded c (.store a v) := by
        rw [recorder_set?, hset, Option.map_some]
      rw [Deed.perform_store, Attribute.store_of_set hset]
      exact congrArg (fun act : Action _ _ => (act m).2) (Attribute.store_of_set hsome v)
  | run o args => exact .inr ⟨.run o args, hd, htyped, rfl⟩
  | reset => exact .inr ⟨.reset, trivial, trivial, rfl⟩

namespace NodeState

def plain (s : NodeState (Recorded σ)) : NodeState σ := ⟨s.memory.plain, s.flags⟩

def recorded (s : NodeState σ) : NodeState (Recorded σ) := ⟨s.memory.traced [], s.flags⟩

end NodeState

def Reply.plain (r : Reply (Recorded σ)) : Reply σ := ⟨r.state.plain, r.entries, r.log, r.failure⟩

theorem Reply.Agree.plain_eq {r : Reply σ} {r' : Reply (Recorded σ)}
    (h : r.Agree (fun m m' => m'.plain = m) r') : r'.plain = r := by
  obtain ⟨⟨memory, flags⟩, entries, log, failure⟩ := r
  obtain ⟨⟨hmemory, hflags⟩, hentries, hlog, hfailure⟩ := h
  cases hmemory
  cases hflags
  cases hentries
  cases hlog
  cases hfailure
  rfl

namespace Node

/-- The node whose components note every body that runs. -/
def recorded (node : Node σ) : Node (Recorded σ) where
  components := node.components.map (·.recorded)
  threads := node.threads
  layout := node.layout

theorem recorded_components (node : Node σ) :
    node.recorded.components = node.components.map (·.recorded) := rfl

theorem recorded_simulates (node : Node σ) :
    node.Simulates (fun m m' => m'.plain = m) node.recorded where
  components := by
    rw [recorded_components, List.forall₂_map_right_iff]
    exact List.forall₂_same.mpr fun c _ => c.recorded_simulates
  threads := rfl
  layout := rfl

/-- Recording does not change what a command does. -/
theorem dispatch_recorded (node : Node σ) (token : String) (s : NodeState (Recorded σ)) :
    (node.recorded.dispatch token s).plain = node.dispatch token s.plain := by
  have hs : s.plain.Related (fun m m' => m'.plain = m) s := ⟨rfl, rfl⟩
  exact (node.recorded_simulates.dispatch_agree hs token).plain_eq

def Batch.plain (batch : Batch (Recorded σ)) : Batch σ :=
  ⟨batch.state.plain, batch.entries, batch.handled, batch.failed, batch.log⟩

theorem step_recorded (node : Node σ) (batch : Batch (Recorded σ)) (token : String) :
    (node.recorded.step batch token).plain = node.step batch.plain token := by
  unfold step
  rw [show batch.plain.state = batch.state.plain from rfl, ← dispatch_recorded]
  rcases node.recorded.dispatch token batch.state with ⟨state, entries, log, _ | e⟩ <;> rfl

/-- The recorded node runs every batch as the node does. -/
theorem runBatch_recorded (node : Node σ) (tokens : List String) (s : NodeState (Recorded σ)) :
    (node.recorded.runBatch tokens s).plain = node.runBatch tokens s.plain := by
  suffices h : ∀ batch : Batch (Recorded σ),
      (tokens.foldl node.recorded.step batch).plain = tokens.foldl node.step batch.plain from h _
  induction tokens with
  | nil => intro batch; rfl
  | cons token tokens ih =>
    intro batch
    rw [List.foldl_cons, List.foldl_cons, ih, step_recorded]

theorem handle_recorded (node : Node σ) (micros : UInt64) (commands : List String)
    (s : NodeState (Recorded σ)) :
    (node.recorded.handle micros commands s).plain = node.handle micros commands s.plain := by
  unfold handle
  dsimp only
  rw [← runBatch_recorded]
  rfl

/-- Recording does not change where a run leads. -/
theorem afterRun_recorded (node : Node σ) (batches : List (UInt64 × List String))
    (tokens : List String) (s : NodeState (Recorded σ)) :
    (node.recorded.afterRun batches tokens s).plain = node.afterRun batches tokens s.plain := by
  have hbatches : (node.recorded.afterBatches batches s).plain =
      node.afterBatches batches s.plain := by
    unfold afterBatches
    induction batches generalizing s with
    | nil => rfl
    | cons batch batches ih =>
      have hbatch : (node.recorded.handle batch.1 batch.2 s).state.plain =
          (node.handle batch.1 batch.2 s.plain).state :=
        congrArg Batch.state (node.handle_recorded batch.1 batch.2 s)
      rw [List.foldl_cons, List.foldl_cons, ih, hbatch]
  unfold afterRun
  rw [← hbatches, ← runBatch_recorded]
  rfl

/-- The bodies that a command runs, in order. -/
def bodiesOf (node : Node σ) (token : String) (s : NodeState σ) : List (Event (Memory σ)) :=
  (node.recorded.dispatch token s.recorded).state.memory.store.trace

def bodiesOfRun (node : Node σ) (batches : List (UInt64 × List String)) (tokens : List String)
    (s : NodeState σ) : List (Event (Memory σ)) :=
  (node.recorded.afterRun batches tokens s.recorded).memory.store.trace

/-- What every noted deed preserves, every command of the recorded node preserves. -/
theorem dispatch_recorded_preserves {node : Node σ}
    {P : Memory σ → List (Event (Memory σ)) → Prop}
    (hdeed : ∀ c ∈ node.components, ∀ d : Deed (Memory σ), d.On c → d.Typed → ∀ m trace,
      P m trace → P (d.perform c m).2 (trace ++ [⟨c, d, m⟩]))
    (token : String) {s : NodeState (Recorded σ)} (hs : P s.memory.plain s.memory.store.trace) :
    P (node.recorded.dispatch token s).state.memory.plain
      (node.recorded.dispatch token s).state.memory.store.trace := by
  refine (node.recorded.dispatch_moves token s).preserves
    (P := fun m => P m.plain m.store.trace) ?_ hs
  intro c' hc' m m' hdoes hm
  rw [recorded_components] at hc'
  obtain ⟨c, hc, rfl⟩ := List.mem_map.mp hc'
  rcases Component.recorded_does hdoes with rfl | ⟨d, hon, htyped, rfl⟩
  · exact hm
  · exact hdeed c hc d hon htyped m.plain m.store.trace hm

/-- What every noted deed and every recorded request preserve holds after every token of a
run, of the memory that the run leads to and of the bodies that it ran. -/
theorem bodiesOfRun_preserves {node : Node σ} {P : Memory σ → List (Event (Memory σ)) → Prop}
    (hdeed : ∀ c ∈ node.components, ∀ d : Deed (Memory σ), d.On c → d.Typed → ∀ m trace,
      P m trace → P (d.perform c m).2 (trace ++ [⟨c, d, m⟩]))
    (hrecord : ∀ m trace statistics, P m trace → P { m with statistics } trace)
    (batches : List (UInt64 × List String)) (tokens : List String) {s : NodeState σ}
    (hs : P s.memory []) :
    P (node.afterRun batches tokens s).memory (node.bodiesOfRun batches tokens s) := by
  have hrun : P (node.recorded.afterRun batches tokens s.recorded).memory.plain
      (node.bodiesOfRun batches tokens s) :=
    afterRun_preserves (P := fun s => P s.memory.plain s.memory.store.trace)
      (fun token _ hs => dispatch_recorded_preserves hdeed token hs)
      (fun s statistics hs => hrecord s.memory.plain _ statistics hs)
      batches tokens hs
  have hplain := congrArg NodeState.memory (node.afterRun_recorded batches tokens s.recorded)
  change _ = (node.afterRun batches tokens s).memory at hplain
  rw [← hplain]
  exact hrun

end Node

end NodeProbe
