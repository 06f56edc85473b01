import NodeProbe.CommandLine
import NodeProbe.Proofs.EntryLookup
import NodeProbe.Proofs.NodeSimulation
import NodeProbe.Proofs.View

/-!
# Batches compose

Between two batches only the statistics change. Where no component reads them, a batch can
be cut in two anywhere: the second half goes on as if nothing had happened, and its entries
override those of the first.
-/
namespace NodeProbe

variable {σ : Type}

def Carrier.same (σ : Type) : Carrier σ σ where
  ofAttribute a := a
  ofOperation o := o
  name_ofAttribute _ := rfl
  type_ofAttribute _ := rfl
  backing_ofAttribute _ := rfl
  isWritable_ofAttribute _ := rfl
  name_ofOperation _ := rfl
  params_ofOperation _ := rfl

theorem Component.carry_same (c : Component σ) : c.carry (.same σ) c.reset = c := by
  have htable : ∀ t : Table σ, t.carry (.same σ) = t := by
    intro t
    unfold Table.carry Carrier.same
    rw [List.map_id', List.map_id']
  have hpart : ∀ p : Part σ, p.carry (.same σ) = p := fun p => congrArg (Part.mk p.name) (htable _)
  unfold Component.carry Surface.carry
  rw [htable, funext hpart, List.map_id']

/-- A component agrees with itself in related states when its bodies and its reset do. -/
theorem Component.simulates_itself {R : σ → σ → Prop} {c : Component σ}
    (h : (Carrier.same σ).Simulates R c) (hreset : ∀ s m, R s m → R (c.reset s) (c.reset m)) :
    c.Simulates R c := by
  have hcarried := h.component (r := c.reset) hreset
  rw [c.carry_same] at hcarried
  exact hcarried

/-- Memories that differ at most in the statistics. -/
def SameStore (m m' : Memory σ) : Prop := m'.store = m.store

/-- The component does not read the statistics: what its members give, and what they leave
in the store, does not depend on them. -/
structure Component.IgnoresStatistics (c : Component (Memory σ)) : Prop where
  get : ∀ a ∈ c.attributes, ∀ m m', SameStore m m' → a.get m' = a.get m
  store : ∀ a ∈ c.attributes, ∀ v m m', SameStore m m' → Agree SameStore (a.store v m) (a.store v m')
  run : ∀ o ∈ c.operations, ∀ args m m', SameStore m m' →
    Agree SameStore (o.run args m) (o.run args m')
  reset : ∀ m m', SameStore m m' → SameStore (c.reset m) (c.reset m')

theorem Agree.sameStore {α : Type} {x : α × σ} {y y' : α × Memory σ}
    (h : Agree (fun s m => m.store = s) x y) (h' : Agree (fun s m => m.store = s) x y') :
    Agree SameStore y y' := ⟨h'.result.trans h.result.symm, h'.state.trans h.state.symm⟩

/-- A component that works on the store alone does not read the statistics. -/
theorem Component.focus_ignoresStatistics (c : Component σ) :
    (c.focus Memory.storePlace).IgnoresStatistics := by
  have hk : (Memory.storePlace : Lens (Memory σ) σ).carrier.Simulates (fun s m => m.store = s) c :=
    Memory.storePlace_lawful.shows.simulates c
  rw [focus_eq_carry]
  refine ⟨fun a' ha' m m' h => ?_, fun a' ha' v m m' h => ?_, fun o' ho' args m m' h => ?_,
    fun m m' h => congrArg c.reset h⟩
  · obtain ⟨a, ha, rfl⟩ := of_mem_attributes_carry ha'
    exact (hk.get a ha m.store m' h).trans (hk.get a ha m.store m rfl).symm
  · obtain ⟨a, ha, rfl⟩ := of_mem_attributes_carry ha'
    exact (hk.store a ha v m.store m rfl).sameStore (hk.store a ha v m.store m' h)
  · obtain ⟨o, ho, rfl⟩ := of_mem_operations_carry ho'
    exact (hk.run o ho args m.store m rfl).sameStore (hk.run o ho args m.store m' h)

/-- Nor does it change them. -/
theorem Component.focus_statistics (c : Component σ) {d' : Deed (Memory σ)}
    (hon : d'.On (c.focus Memory.storePlace)) (m : Memory σ) :
    (d'.perform (c.focus Memory.storePlace) m).2.statistics = m.statistics := by
  obtain ⟨d, -, rfl⟩ := Deed.on_focus hon
  rw [Deed.perform_focus Memory.storePlace_lawful]
  rfl

theorem Component.IgnoresStatistics.simulates {c : Component (Memory σ)} (h : c.IgnoresStatistics) :
    c.Simulates SameStore c :=
  Component.simulates_itself ⟨h.get, h.store, h.run⟩ h.reset

namespace Node

variable {node : Node σ}

theorem simulates_itself (h : ∀ c ∈ node.components, c.IgnoresStatistics) :
    node.Simulates SameStore node where
  components := List.forall₂_same.mpr fun c hc => (h c hc).simulates
  threads := rfl
  layout := rfl

/-- A batch that went on from another, beside the same commands run on their own. -/
structure Continues (first whole second : Batch σ) : Prop where
  state : second.state.Related SameStore whole.state
  entries : ∀ key, whole.entries.get? key = (second.entries.get? key).or (first.entries.get? key)
  handled : whole.handled = first.handled + second.handled
  failed : whole.failed = first.failed + second.failed

/-- One more command keeps two runs alike that differ in their statistics. -/
theorem Continues.step (hignores : ∀ c ∈ node.components, c.IgnoresStatistics)
    {first whole second : Batch σ} (h : Continues first whole second) (token : String) :
    Continues first (node.step whole token) (node.step second token) := by
  -- the batches differ in statistics, entries and counts, and no reply depends on these
  have hreply := (simulates_itself hignores).dispatch_agree h.state token
  refine ⟨?_, fun key => ?_, ?_, ?_⟩
  · rw [step_state, step_state]
    exact hreply.state
  · rw [step_entries, step_entries, Entries.get?_insertAll, Entries.get?_insertAll second.entries,
      hreply.entries, h.entries, Option.or_assoc]
  · rw [step_handled, step_handled, hreply.failure, h.handled, UInt64.add_assoc]
  · rw [step_failed, step_failed, hreply.failure, h.failed, UInt64.add_assoc]

theorem Continues.steps (hignores : ∀ c ∈ node.components, c.IgnoresStatistics)
    {first whole second : Batch σ} (h : Continues first whole second) (tokens : List String) :
    Continues first (tokens.foldl node.step whole) (tokens.foldl node.step second) := by
  induction tokens generalizing whole second with
  | nil => exact h
  | cons token tokens ih => exact ih (h.step hignores token)

theorem runBatch_append (node : Node σ) (first second : List String) (s : NodeState σ) :
    node.runBatch (first ++ second) s = second.foldl node.step (node.runBatch first s) :=
  List.foldl_append

/-- A batch goes on from its first half as its second half does from any state with the
same store and the same flags. -/
theorem runBatch_continues (hignores : ∀ c ∈ node.components, c.IgnoresStatistics)
    (first second : List String) {s s' : NodeState σ}
    (hs : s'.Related SameStore (node.runBatch first s).state) :
    Continues (node.runBatch first s) (node.runBatch (first ++ second) s)
      (node.runBatch second s') := by
  have hstart : Continues (node.runBatch first s) (node.runBatch first s) { state := s' } := by
    refine ⟨hs, fun key => rfl, ?_, ?_⟩
    · exact (UInt64.add_zero _).symm
    · exact (UInt64.add_zero _).symm
  rw [runBatch_append]
  exact hstart.steps hignores second

def KeepsStatistics (node : Node σ) : Prop :=
  ∀ c ∈ node.components, ∀ d : Deed (Memory σ), d.On c → ∀ m, (d.perform c m).2.statistics = m.statistics

theorem KeepsStatistics.runBatch (h : node.KeepsStatistics) (commands : List String)
    (s : NodeState σ) : (node.runBatch commands s).state.memory.statistics = s.memory.statistics := by
  refine runBatch_preserves (P := fun s' => s'.memory.statistics = s.memory.statistics) ?_ commands rfl
  intro token s' hs'
  refine (node.dispatch_moves token s').preserves
    (P := fun m => m.statistics = s.memory.statistics) ?_ hs'
  rintro c hc m m' ⟨d, hon, -, rfl⟩ hm
  exact (h c hc d hon m).trans hm

theorem handle_statistics (node : Node σ) (micros : UInt64) (commands : List String)
    (s : NodeState σ) :
    (node.handle micros commands s).state.memory.statistics =
      (node.runBatch commands s).state.memory.statistics.record micros
        (node.runBatch commands s).handled (node.runBatch commands s).failed := rfl

/-- What a command does never depends on the entries before it, and it only adds entries. -/
theorem step_with_entries (node : Node σ) (batch : Batch σ) (entries : Entries) (token : String) :
    node.step { batch with entries } token = { node.step batch token with
      entries := entries.insertAll (node.dispatch token batch.state).entries } := by
  unfold step
  dsimp only
  split <;> rfl

end Node

/-- Where no component reads the statistics, handling two batches in one is handling them
one after the other: the same store and flags, the entries of the first overridden key by
key by those of the second, and counts that add up, also in the recorded statistics where no
component writes them. -/
theorem batches_compose (node : Node σ) (hignores : ∀ c ∈ node.components, c.IgnoresStatistics)
    (first second : List String) (s : NodeState σ) (micros micros₁ micros₂ : UInt64) :
    let whole := node.handle micros (first ++ second) s
    let one := node.handle micros₁ first s
    let two := node.handle micros₂ second one.state
    whole.state.memory.store = two.state.memory.store ∧
    whole.state.flags = two.state.flags ∧
    (∀ key, whole.entries.get? key = (two.entries.get? key).or (one.entries.get? key)) ∧
    whole.handled = one.handled + two.handled ∧
    whole.failed = one.failed + two.failed ∧
    (node.KeepsStatistics →
      whole.state.memory.statistics.handled = two.state.memory.statistics.handled ∧
      whole.state.memory.statistics.failed = two.state.memory.statistics.failed) ∧
    ∀ (batch : Node.Batch σ) (entries : Entries) (token : String),
      node.step { batch with entries } token = { node.step batch token with
        entries := entries.insertAll (node.dispatch token batch.state).entries } := by
  intro whole one two
  -- all that the end of the first request adds is its record in the statistics
  have hbetween : one.state.Related SameStore (node.runBatch first s).state := ⟨rfl, rfl⟩
  have hruns : Node.Continues (node.runBatch first s) (node.runBatch (first ++ second) s)
      (node.runBatch second one.state) := Node.runBatch_continues hignores first second hbetween
  refine ⟨hruns.state.memory, hruns.state.flags, hruns.entries, hruns.handled, hruns.failed,
    fun hkeeps => ?_, node.step_with_entries⟩
  have hwhole := hkeeps.runBatch (first ++ second) s
  have hone := hkeeps.runBatch first s
  have htwo := hkeeps.runBatch second one.state
  have hfirst : one.state.memory.statistics = s.memory.statistics.record micros₁
      (node.runBatch first s).handled (node.runBatch first s).failed := by
    rw [node.handle_statistics, hone]
  constructor
  · change (node.runBatch (first ++ second) s).state.memory.statistics.handled +
        (node.runBatch (first ++ second) s).handled =
      (node.runBatch second one.state).state.memory.statistics.handled +
        (node.runBatch second one.state).handled
    rw [hwhole, htwo, hfirst, hruns.handled, ← UInt64.add_assoc]
    rfl
  · change (node.runBatch (first ++ second) s).state.memory.statistics.failed +
        (node.runBatch (first ++ second) s).failed =
      (node.runBatch second one.state).state.memory.statistics.failed +
        (node.runBatch second one.state).failed
    rw [hwhole, htwo, hfirst, hruns.failed, ← UInt64.add_assoc]
    rfl

theorem batches_of_counter_compose :
    let node : Node Counter.State :=
      { components := [counter.focus Memory.storePlace], threads := .numbered true true [] }
    let s : NodeState Counter.State := { memory := { store := {} } }
    let first := ["COUNTER.add[4]", "COUNTER.count", "disable-cpu", "op=COUNTER.add[x]"]
    let second := ["COUNTER.label=a", "COUNTER.increment[]", "threads=cpu=lots", "COUNTER.count"]
    let whole := node.handle 9 (first ++ second) s
    let one := node.handle 4 first s
    let two := node.handle 3 second one.state
    (∀ c ∈ node.components, c.IgnoresStatistics) ∧ node.KeepsStatistics ∧
    whole.state.memory.store = two.state.memory.store ∧
    whole.entries.get? "COUNTER.count" = two.entries.get? "COUNTER.count" ∧
    whole.entries.get? "COUNTER.add" = one.entries.get? "COUNTER.add" ∧
    whole.handled = one.handled + two.handled ∧ one.handled = 3 ∧ two.handled = 3 ∧
    whole.failed = one.failed + two.failed ∧ one.failed = 1 ∧ two.failed = 1 ∧
    whole.state.memory.statistics.handled = two.state.memory.statistics.handled := by
  intro node s first second whole one two
  have hignores : ∀ c ∈ node.components, c.IgnoresStatistics := by
    intro c hc
    rw [List.mem_singleton.mp hc]
    exact counter.focus_ignoresStatistics
  have hkeeps : node.KeepsStatistics := by
    intro c hc
    rw [List.mem_singleton.mp hc]
    exact fun d hon m => counter.focus_statistics hon m
  have h := batches_compose node hignores first second s 9 4 3
  have hoverride : ∀ key, whole.entries.get? key =
      (two.entries.get? key).or (one.entries.get? key) := h.2.2.1
  have hcount : (two.entries.get? "COUNTER.count").isSome := by decide +kernel
  have hadd : two.entries.get? "COUNTER.add" = none := by decide +kernel
  refine ⟨hignores, hkeeps, h.1, ?_, ?_, h.2.2.2.1, rfl, rfl, h.2.2.2.2.1, rfl, rfl,
    (h.2.2.2.2.2.1 hkeeps).1⟩
  · rw [hoverride, Option.or_of_isSome hcount]
  · rw [hoverride, hadd, Option.none_or]

end NodeProbe
