import Mathlib.Algebra.Group.Int.Defs
import Mathlib.Algebra.Group.Nat.Defs
import NodeProbe.CommandLine
import NodeProbe.Proofs.CounterBodies
import NodeProbe.Proofs.Recording

/-!
# The counter along a run

A counter among other components keeps a positive step of 32 bits and a history within its
capacity, whatever the batches say. The step bound comes from conversion, so the invariant is
kept by well typed deeds and not by arbitrary ones.
-/
namespace NodeProbe

namespace Counter

/-- What every command keeps of the state of a counter. -/
structure State.Sound (s : State) : Prop where
  step_pos : 1 ≤ s.step.toNat
  step_le : s.step.toNat ≤ 2 ^ 32 - 1
  history_le : s.history.length ≤ s.capacity.toNat

theorem State.sound_fresh : ({} : State).Sound := by
  constructor
  · decide
  · decide
  · decide

theorem length_lastItems {α : Type} (n : Nat) (items : List α) :
    (lastItems n items).length = min items.length n := by
  unfold lastItems
  rw [List.length_drop]
  omega

namespace State.Sound

variable {s : State}

theorem add (h : s.Sound) (delta : Int64) : (s.add delta).Sound := by
  constructor
  · exact h.step_pos
  · exact h.step_le
  · change (lastItems s.capacity.toNat _).length ≤ s.capacity.toNat
    rw [length_lastItems]
    exact Nat.min_le_right _ _

theorem setCapacity (h : s.Sound) (capacity : UInt64) : (s.setCapacity capacity).Sound := by
  constructor
  · exact h.step_pos
  · exact h.step_le
  · change (lastItems capacity.toNat s.history).length ≤ capacity.toNat
    rw [length_lastItems]
    exact Nat.min_le_right _ _

/-- A step of 32 bits is refused when it is zero. -/
theorem setStep {s' : State} {step : UInt64} (h : s.Sound) (hstep : step.toNat ≤ 2 ^ 32 - 1)
    (hs' : s.setStep step = .ok s') : s'.Sound := by
  unfold State.setStep at hs'
  by_cases hzero : step = 0
  · rw [if_pos hzero] at hs'
    cases hs'
  · rw [if_neg hzero] at hs'
    cases hs'
    have hpos : step.toNat ≠ 0 := fun h0 => hzero (UInt64.toNat_inj.mp h0)
    constructor
    · show 1 ≤ step.toNat
      omega
    · exact hstep
    · exact h.history_le

theorem emptied (h : s.Sound) (count : Int64) : { s with count, history := [] }.Sound := by
  constructor
  · exact h.step_pos
  · exact h.step_le
  · exact Nat.zero_le _

end State.Sound

/-- A setter keeps the state sound when every state that it leads to is sound. -/
theorem stored_sound {α : Type} {read : Except Failure α} {next : State → α → Except Failure State}
    {s : State} (h : s.Sound) (hnext : ∀ a s', read = .ok a → next s a = .ok s' → s'.Sound) :
    (stored read next s).2.Sound := by
  rcases stored_cases read next s with ⟨e, hstored, -⟩ | ⟨a, s', hstored, hread, hs'⟩
  · rw [hstored]
    exact h
  · rw [hstored]
    exact hnext a s' hread hs'

/-- Every well typed deed of the counter keeps its state sound. -/
theorem perform_sound {d : Deed State} (hon : d.On counter) (htyped : d.Typed) {s : State}
    (h : s.Sound) : (d.perform counter s).2.Sound := by
  have hbody := body_of_on hon
  generalize d.perform counter = act at hbody ⊢
  cases hbody with
  | count =>
    refine stored_sound h fun count s' _ hs' => ?_
    cases hs'
    exact ⟨h.step_pos, h.step_le, h.history_le⟩
  | step hname htype =>
    obtain ⟨n, rfl, -, hn⟩ := (htyped.value htype).unsigned rfl rfl
    refine stored_sound h fun step s' hread hs' => ?_
    cases hread
    exact h.setStep (by omega) hs'
  | mode =>
    refine stored_sound h fun name s' _ hs' => ?_
    cases hmode : Mode.ofText name with
    | error e => rw [hmode] at hs'; cases hs'
    | ok mode =>
      rw [hmode] at hs'
      cases hs'
      exact ⟨h.step_pos, h.step_le, h.history_le⟩
  | label =>
    refine stored_sound h fun label s' _ hs' => ?_
    cases hs'
    exact ⟨h.step_pos, h.step_le, h.history_le⟩
  | capacity =>
    refine stored_sound h fun capacity s' _ hs' => ?_
    cases hs'
    exact h.setCapacity capacity
  | recent => exact h
  | increment => exact h.add _
  | @add o args =>
    cases (argument args).asInt64 with
    | error e => exact h
    | ok delta => exact h.add delta
  | reset => exact ⟨h.step_pos, h.step_le, h.history_le⟩
  | clear => exact h.emptied s.count
  | resetStatistics => exact h.emptied 0

/-! ## What an increment leaves -/

theorem saturatingAdd_toInt (a b : Int64) :
    (saturatingAdd a b).toInt = max (-2 ^ 63) (min (2 ^ 63 - 1) (a.toInt + b.toInt)) := by
  unfold saturatingAdd Number.clampInt64 Number.minInt64 Number.maxInt64
  rw [Int64.toInt_ofInt_of_le (by omega) (by omega)]
  rfl

/-- The outcome of an increment: it gives and stores the sum of the count and the step as
integers, cut at the largest count or reduced into the range of 64 bits. -/
structure Incremented (s : State) (outcome : Except Failure (Option Value) × State) : Prop where
  result : outcome.1 = .ok (some (.signed outcome.2.count))
  saturating : s.mode = .saturating →
    outcome.2.count.toInt = min (s.count.toInt + s.step.toNat) (2 ^ 63 - 1)
  wrapping : s.mode = .wrapping →
    outcome.2.count.toInt = (s.count.toInt + s.step.toNat).bmod (2 ^ 64)

/-- The step is the same number as a signed word. -/
theorem State.Sound.step_toInt {s : State} (h : s.Sound) : s.step.toInt64.toInt = s.step.toNat := by
  have hle := h.step_le
  have hhalf : s.step.toNat ≤ Number.maxInt64 := by unfold Number.maxInt64; omega
  rw [Number.toInt_toInt64, if_pos hhalf]

/-- With a positive step a saturating increment can only be cut at the largest count. -/
theorem State.Sound.incremented {s : State} (h : s.Sound) :
    Incremented s (.ok (some (.signed s.increment.count)), s.increment) := by
  have hcount : s.increment.count = s.mode.add s.count s.step.toInt64 := rfl
  have hlow := Int64.le_toInt s.count
  constructor
  · rfl
  · intro hmode
    have hsum : s.increment.count = saturatingAdd s.count s.step.toInt64 := by rw [hcount, hmode]; rfl
    show s.increment.count.toInt = _
    rw [hsum, saturatingAdd_toInt, h.step_toInt]
    omega
  · intro hmode
    have hsum : s.increment.count = s.count + s.step.toInt64 := by rw [hcount, hmode]; rfl
    show s.increment.count.toInt = _
    rw [hsum, Int64.toInt_add, h.step_toInt]

theorem increment_run {o : Operation State} (h : o ∈ counter.operations)
    (hname : o.name = "increment") (args : List Value) :
    o.run args = fun s => (.ok (some (.signed s.increment.count)), s.increment) := by
  have hbody := body_run h args
  generalize o.run args = act at hbody ⊢
  cases hbody with
  | increment => rfl
  | add hother => rw [hname] at hother; exact absurd hother (by decide)
  | reset hother => rw [hname] at hother; exact absurd hother (by decide)
  | clear hother => rw [hname] at hother; exact absurd hother (by decide)

end Counter

/-! ## A counter among other components -/

namespace Memory

variable {α ρ : Type}

/-- The first half of a store, which one component has for itself. -/
def firstPlace : Lens (Memory (α × ρ)) α where
  get m := m.store.1
  put a m := { m with store := (a, m.store.2) }

/-- The memory without that half, which all other components share. -/
def secondPlace : Lens (Memory (α × ρ)) (Memory ρ) where
  get m := { statistics := m.statistics, store := m.store.2 }
  put rest m := { statistics := rest.statistics, store := (m.store.1, rest.store) }

theorem firstPlace_lawful : (firstPlace : Lens (Memory (α × ρ)) α).Lawful :=
  ⟨fun _ _ => rfl, fun _ => rfl⟩

theorem secondPlace_lawful : (secondPlace : Lens (Memory (α × ρ)) (Memory ρ)).Lawful :=
  ⟨fun _ _ => rfl, fun _ => rfl⟩

end Memory

/-- A node with a counter between any other components, which have any states of their own. -/
def Counter.nodeAmong {ρ : Type} (before after : List (Component (Memory ρ)))
    (threads : ThreadSource) (layout : ReportLayout) : Node (Counter.State × ρ) where
  components := before.map (·.focus Memory.secondPlace) ++
    counter.focus Memory.firstPlace :: after.map (·.focus Memory.secondPlace)
  threads := threads
  layout := layout

namespace Node

variable {σ ρ : Type}

/-- Where all components but the counter leave its place alone, the counter is sound after
every run, and every deed on it uses one of its members and finds it sound. -/
theorem counter_sound_of_frame {node : Node σ} {place : Lens (Memory σ) Counter.State}
    (hplace : place.Lawful)
    (hframe : ∀ c ∈ node.components, c = counter.focus place ∨
      ∀ d : Deed (Memory σ), d.On c → ∀ m, place.get (d.perform c m).2 = place.get m)
    (hrecord : ∀ m statistics, place.get { m with statistics } = place.get m)
    (batches : List (UInt64 × List String)) (tokens : List String) {s : NodeState σ}
    (hs : (place.get s.memory).Sound) :
    (place.get (node.afterRun batches tokens s).memory).Sound ∧
      ∀ e ∈ node.bodiesOfRun batches tokens s, e.component = counter.focus place →
        e.deed.On e.component ∧ (place.get e.before).Sound := by
  refine bodiesOfRun_preserves (P := fun m trace => (place.get m).Sound ∧
    ∀ e ∈ trace, e.component = counter.focus place →
      e.deed.On e.component ∧ (place.get e.before).Sound) ?_ ?_ batches tokens ?_
  · rintro c hc d hon htyped m trace ⟨hm, htrace⟩
    constructor
    · rcases hframe c hc with rfl | hother
      · obtain ⟨d, hd, rfl⟩ := Deed.on_focus hon
        rw [Deed.typed_carry] at htyped
        rw [Deed.perform_focus hplace]
        change (place.get (place.put (d.perform counter (place.get m)).2 m)).Sound
        rw [hplace.get_put]
        exact Counter.perform_sound hd htyped hm
      · rw [hother d hon m]
        exact hm
    · intro e he hcounter
      rcases List.mem_append.mp he with hold | hnew
      · exact htrace e hold hcounter
      · cases List.mem_singleton.mp hnew
        exact ⟨hon, hm⟩
  · rintro m trace statistics ⟨hm, htrace⟩
    rw [hrecord]
    exact ⟨hm, htrace⟩
  · refine ⟨hs, fun e he => ?_⟩
    cases he

/-- A component on a place of its own leaves every other place alone. -/
theorem focus_frame {α β : Type} {place : Lens (Memory σ) α} {other : Lens (Memory σ) β}
    (hother : other.Lawful) (hapart : ∀ b m, place.get (other.put b m) = place.get m)
    (c : Component β) {d : Deed (Memory σ)} (hon : d.On (c.focus other)) (m : Memory σ) :
    place.get (d.perform (c.focus other) m).2 = place.get m := by
  obtain ⟨d, -, rfl⟩ := Deed.on_focus hon
  rw [Deed.perform_focus hother]
  exact hapart _ m

/-- No other component of the node reaches the counter's place. -/
theorem nodeAmong_frame (before after : List (Component (Memory ρ))) (threads : ThreadSource)
    (layout : ReportLayout) :
    ∀ c ∈ (Counter.nodeAmong before after threads layout).components,
      c = counter.focus Memory.firstPlace ∨ ∀ d : Deed (Memory (Counter.State × ρ)), d.On c →
        ∀ m, Memory.firstPlace.get (d.perform c m).2 = Memory.firstPlace.get m := by
  intro c hc
  rcases List.mem_append.mp hc with hbefore | hrest
  · obtain ⟨b, -, rfl⟩ := List.mem_map.mp hbefore
    exact .inr fun d hon m => focus_frame Memory.secondPlace_lawful (fun _ _ => rfl) b hon m
  · rcases List.mem_cons.mp hrest with rfl | hafter
    · exact .inl rfl
    · obtain ⟨a, -, rfl⟩ := List.mem_map.mp hafter
      exact .inr fun d hon m => focus_frame Memory.secondPlace_lawful (fun _ _ => rfl) a hon m

end Node

/-- After every token of every run of batches, a counter that was fresh at first is sound,
and every increment that ran gave and stored the sum of the count and the step that it
found. The recorded run that the increments are taken from is the run itself. -/
theorem counter_sound_along_runs {ρ : Type} (before after : List (Component (Memory ρ)))
    (threads : ThreadSource) (layout : ReportLayout) (statistics : Statistics) (rest : ρ)
    (flags : MonitoringFlags) (batches : List (UInt64 × List String)) (tokens : List String) :
    let node := Counter.nodeAmong before after threads layout
    let s : NodeState (Counter.State × ρ) := { memory := { statistics, store := ({}, rest) }, flags }
    let final := (node.afterRun batches tokens s).memory.store.1
    final.Sound ∧ (-2 ^ 63 ≤ final.count.toInt ∧ final.count.toInt ≤ 2 ^ 63 - 1) ∧
    (node.recorded.afterRun batches tokens s.recorded).plain = node.afterRun batches tokens s ∧
    ∀ e ∈ node.bodiesOfRun batches tokens s, e.component = counter.focus Memory.firstPlace →
      ∀ o args, e.deed = .run o args → o.name = "increment" →
        Counter.Incremented e.before.store.1
          ((o.run args e.before).1, (o.run args e.before).2.store.1) := by
  intro node s final
  obtain ⟨hfinal, hevents⟩ := Node.counter_sound_of_frame Memory.firstPlace_lawful
    (Node.nodeAmong_frame before after threads layout) (fun _ _ => rfl) batches tokens (s := s)
    Counter.State.sound_fresh
  have hlow := Int64.le_toInt final.count
  have hhigh := Int64.toInt_lt final.count
  refine ⟨hfinal, ⟨hlow, by omega⟩, node.afterRun_recorded batches tokens s.recorded, ?_⟩
  intro e he hcounter o args hdeed hname
  obtain ⟨hon, hsound⟩ := hevents e he hcounter
  rw [hcounter, hdeed] at hon
  obtain ⟨d, hd, heq⟩ := Deed.on_focus hon
  cases d with
  | store a v => cases heq
  | reset => cases heq
  | run o' args' =>
    cases heq
    have hrun := Counter.increment_run hd hname args
    have hplaced : (o'.focus Memory.firstPlace).run args e.before =
        ((o'.run args e.before.store.1).1,
          Memory.firstPlace.put (o'.run args e.before.store.1).2 e.before) := rfl
    change Counter.Incremented e.before.store.1
      (((o'.focus Memory.firstPlace).run args e.before).1,
        ((o'.focus Memory.firstPlace).run args e.before).2.store.1)
    rw [hplaced, hrun]
    exact hsound.incremented

theorem counter_sound_after_increment :
    let node := Counter.nodeAmong [diagnostics.focus Memory.statisticsPlace] []
      (.numbered true true []) {}
    let s : NodeState (Counter.State × Unit) := { memory := { store := ({}, ()) } }
    let batches : List (UInt64 × List String) := [(7, ["COUNTER.step=5"])]
    let tokens := ["op=COUNTER.increment"]
    (node.afterRun batches tokens s).memory.store.1.Sound ∧
    ∃ e ∈ node.bodiesOfRun batches tokens s, e.component = counter.focus Memory.firstPlace ∧
      ∃ o args, e.deed = .run o args ∧ o.name = "increment" ∧ e.before.store.1.step = 5 ∧
        Counter.Incremented e.before.store.1
          ((o.run args e.before).1, (o.run args e.before).2.store.1) := by
  intro node s batches tokens
  obtain ⟨hsound, -, -, hincremented⟩ := counter_sound_along_runs
    [diagnostics.focus Memory.statisticsPlace] [] (.numbered true true []) {} .fresh () {}
    batches tokens
  obtain ⟨e, he⟩ : ∃ e, (node.bodiesOfRun batches tokens s)[1]? = some e := ⟨_, rfl⟩
  have hmem := List.mem_of_getElem? he
  cases he
  exact ⟨hsound, _, hmem, rfl, _, _, rfl, rfl, rfl, hincremented _ hmem rfl _ _ rfl rfl⟩

end NodeProbe
