import Mathlib.Data.List.Induction
import NodeProbe.Proofs.CounterInvariant

/-!
# The history of the counter

The history is compared with the list of all results since it was last emptied. Which
results there were is read off the names of the actions and the values they give, not off
the history. Both ways of trimming drop results at the old end only. A run of batches acts
on the counter by a run of such actions and by nothing else.
-/
namespace NodeProbe.Counter

inductive Change where
  /-- An addition gave this result. -/
  | result (n : Int64)
  | capacity (c : UInt64)
  | emptied
  | none
deriving DecidableEq

/-- The change of an action, told by the name of its member and by what its body gave. -/
def changeOf : Deed State → Except Failure (Option Value) → Change
  | .store a v, _ =>
    if a.name = "capacity" then
      match v.asUInt64 with
      | .ok c => .capacity c
      | .error _ => .none
    else .none
  | .run o _, given =>
    if o.name = "increment" ∨ o.name = "add" then
      match given with
      | .ok (some (.signed n)) => .result n
      | _ => .none
    else if o.name = "clear" then .emptied
    else .none
  | .reset, _ => .emptied

def change (d : Deed State) (s : State) : Change := changeOf d (d.perform counter s).1

/-- The results since the history was last emptied. -/
def Change.results : Change → List Int64 → List Int64
  | .result n, results => results ++ [n]
  | .emptied, _ => []
  | .capacity _, results | .none, results => results

def Change.Holds (s s' : State) : Change → Prop
  | .result n =>
    s'.history = lastItems s.capacity.toNat (s.history ++ [n]) ∧ s'.capacity = s.capacity
  | .capacity c => s'.history = lastItems c.toNat s.history ∧ s'.capacity = c
  | .emptied => s'.history = [] ∧ s'.capacity = s.capacity
  | .none => s'.history = s.history ∧ s'.capacity = s.capacity

/-- A setter whose next states keep the history and the capacity keeps them. -/
theorem stored_unchanged {α : Type} {read : Except Failure α}
    {next : State → α → Except Failure State} {s : State}
    (hnext : ∀ a s', next s a = .ok s' → s'.history = s.history ∧ s'.capacity = s.capacity) :
    Change.none.Holds s (stored read next s).2 := by
  rcases stored_cases read next s with ⟨e, hstored, -⟩ | ⟨a, s', hstored, -, hs'⟩
  · rw [hstored]
    exact ⟨rfl, rfl⟩
  · rw [hstored]
    exact hnext a s' hs'

theorem changeOf_store {a : Attribute State} (h : a.name ≠ "capacity") (v : Value)
    (given : Except Failure (Option Value)) : changeOf (.store a v) given = .none := if_neg h

theorem changeOf_addition {o : Operation State} (h : o.name = "increment" ∨ o.name = "add")
    (args : List Value) (n : Int64) :
    changeOf (.run o args) (.ok (some (.signed n))) = .result n := if_pos h

theorem changeOf_other {o : Operation State} (h : ¬ (o.name = "increment" ∨ o.name = "add"))
    (args : List Value) (given : Except Failure (Option Value)) :
    changeOf (.run o args) given = if o.name = "clear" then .emptied else .none := if_neg h

/-- Every action of the counter changes the history as its name and its result say. -/
theorem perform_change {d : Deed State} (hon : d.On counter) (s : State) :
    (change d s).Holds s (d.perform counter s).2 := by
  unfold change
  have hbody := body_of_on hon
  generalize d.perform counter = act at hbody ⊢
  cases hbody with
  | count hname =>
    rw [changeOf_store (by rw [hname]; decide)]
    refine stored_unchanged fun count s' hs' => ?_
    cases hs'
    exact ⟨rfl, rfl⟩
  | step hname =>
    rw [changeOf_store (by rw [hname]; decide)]
    refine stored_unchanged fun step s' hs' => ?_
    unfold State.setStep at hs'
    split at hs'
    · cases hs'
    · cases hs'
      exact ⟨rfl, rfl⟩
  | mode hname =>
    rw [changeOf_store (by rw [hname]; decide)]
    refine stored_unchanged fun name s' hs' => ?_
    cases hmode : Mode.ofText name with
    | error e => rw [hmode] at hs'; cases hs'
    | ok mode =>
      rw [hmode] at hs'
      cases hs'
      exact ⟨rfl, rfl⟩
  | label hname =>
    rw [changeOf_store (by rw [hname]; decide)]
    refine stored_unchanged fun label s' hs' => ?_
    cases hs'
    exact ⟨rfl, rfl⟩
  | @capacity a v hname =>
    have hchange : ∀ given, changeOf (.store a v) given =
        match v.asUInt64 with
        | .ok c => .capacity c
        | .error _ => .none := fun _ => if_pos hname
    rw [hchange]
    unfold stored
    cases v.asUInt64 with
    | error e => exact ⟨rfl, rfl⟩
    | ok c => exact ⟨rfl, rfl⟩
  | recent hname =>
    rw [changeOf_store (by rw [hname]; decide)]
    exact ⟨rfl, rfl⟩
  | increment hname =>
    rw [changeOf_addition (.inl hname)]
    exact ⟨rfl, rfl⟩
  | @add o args hname =>
    cases (argument args).asInt64 with
    | error e =>
      have hchange : ∀ e, changeOf (.run o args) (.error e) = .none := fun _ => if_pos (.inr hname)
      rw [hchange]
      exact ⟨rfl, rfl⟩
    | ok delta =>
      rw [changeOf_addition (.inr hname)]
      exact ⟨rfl, rfl⟩
  | reset hname =>
    rw [changeOf_other (by rw [hname]; decide), if_neg (by rw [hname]; decide)]
    exact ⟨rfl, rfl⟩
  | clear hname =>
    rw [changeOf_other (by rw [hname]; decide), if_pos hname]
    exact ⟨rfl, rfl⟩
  | resetStatistics => exact ⟨rfl, rfl⟩

/-- The attribute for recent results shows the history itself. -/
theorem recent_get {a : Attribute State} (h : a ∈ counter.attributes) (hname : a.name = "recent")
    (s : State) : a.get s = some (.list (s.history.map .signed)) := by
  -- Any value will do: the body is asked for the getter of its attribute only.
  have hbody := body_store h (.bool true)
  generalize (Deed.store a (.bool true)).perform counter = act at hbody
  cases hbody with
  | count hother => rw [hname] at hother; exact absurd hother (by decide)
  | step hother => rw [hname] at hother; exact absurd hother (by decide)
  | mode hother => rw [hname] at hother; exact absurd hother (by decide)
  | label hother => rw [hname] at hother; exact absurd hother (by decide)
  | capacity hother => rw [hname] at hother; exact absurd hother (by decide)
  | recent _ hget => exact hget s

/-! ## Runs of actions -/

/-- A counter that is acted on, with the results since its history was last emptied. -/
structure Run where
  state : State := {}
  results : List Int64 := []

def Run.next (run : Run) (d : Deed State) : Run where
  state := (d.perform counter run.state).2
  results := (change d run.state).results run.results

def play (deeds : List (Deed State)) : Run := deeds.foldl Run.next {}

theorem play_snoc (deeds : List (Deed State)) (d : Deed State) :
    play (deeds ++ [d]) = (play deeds).next d := by
  unfold play
  rw [List.foldl_append]
  rfl

theorem lastItems_suffix {α : Type} (n : Nat) (items : List α) : lastItems n items <:+ items :=
  List.drop_suffix _ _

/-- A suffix is the last items of the list, as many as it has. -/
theorem eq_lastItems {α : Type} {items all : List α} (h : items <:+ all) {n : Nat}
    (hlength : items.length = min all.length n) : items = lastItems n all := by
  have hlast := lastItems_suffix n all
  have hsame : (lastItems n all).length = items.length := by rw [length_lastItems, hlength]
  have hsuffix := List.suffix_of_suffix_length_le h hlast (by omega)
  exact hsuffix.eq_of_length hsame.symm

/-- One action keeps the history an end of the results: it appends to both, cuts the history in
front, or empties both. -/
theorem next_suffix {run : Run} (h : run.state.history <:+ run.results) {d : Deed State}
    (hon : d.On counter) : (run.next d).state.history <:+ (run.next d).results := by
  have hholds := perform_change hon run.state
  unfold Run.next
  dsimp only
  cases hchange : change d run.state with
  | result n =>
    rw [hchange] at hholds
    rw [hholds.1]
    obtain ⟨old, hold⟩ := h
    refine (lastItems_suffix _ _).trans ⟨old, ?_⟩
    rw [← List.append_assoc, hold]
    rfl
  | capacity c =>
    rw [hchange] at hholds
    rw [hholds.1]
    exact (lastItems_suffix _ _).trans h
  | emptied =>
    rw [hchange] at hholds
    rw [hholds.1]
    exact List.nil_suffix
  | none =>
    rw [hchange] at hholds
    rw [hholds.1]
    exact h

theorem play_suffix {deeds : List (Deed State)} (h : ∀ d ∈ deeds, d.On counter) :
    (play deeds).state.history <:+ (play deeds).results := by
  induction deeds using List.reverseRecOn with
  | nil => exact List.suffix_rfl
  | append_singleton deeds d ih =>
    rw [play_snoc]
    apply next_suffix
    · exact ih fun d hd => h d (List.mem_append_left _ hd)
    · exact h d (List.mem_append_right _ List.mem_cons_self)

open Classical in
noncomputable def deedsOn {ρ : Type} (trace : List (Event (Memory (State × ρ)))) :
    List (Deed (Memory (State × ρ))) :=
  (trace.filter fun e => e.component = counter.focus Memory.firstPlace).map (·.deed)

/-- The counter is where the deeds on it in the trace have led. -/
def Played {ρ : Type} (m : Memory (State × ρ)) (trace : List (Event (Memory (State × ρ)))) : Prop :=
  ∃ deeds : List (Deed State), (∀ d ∈ deeds, d.On counter) ∧
    deeds.map (·.carry Memory.firstPlace.carrier) = deedsOn trace ∧
    m.store.1 = (play deeds).state

/-- Every run of batches on a fresh counter among other components is a run of actions. -/
theorem afterRun_played {ρ : Type} (before after : List (Component (Memory ρ)))
    (threads : ThreadSource) (layout : ReportLayout) (batches : List (UInt64 × List String))
    (tokens : List String) {s : NodeState (State × ρ)} (hs : s.memory.store.1 = {}) :
    let node := nodeAmong before after threads layout
    Played (node.afterRun batches tokens s).memory (node.bodiesOfRun batches tokens s) := by
  intro node
  refine Node.bodiesOfRun_preserves (P := Played) ?_ ?_ batches tokens ?_
  · rintro c hc d hon - m trace ⟨deeds, hdeeds, htrace, hstate⟩
    by_cases hcounter : c = counter.focus Memory.firstPlace
    · subst hcounter
      obtain ⟨d, hd, rfl⟩ := Deed.on_focus hon
      refine ⟨deeds ++ [d], ?_, ?_, ?_⟩
      · intro d' hd'
        rcases List.mem_append.mp hd' with hold | hnew
        · exact hdeeds d' hold
        · rw [List.mem_singleton.mp hnew]
          exact hd
      · rw [List.map_append, htrace]
        unfold deedsOn
        rw [List.filter_append, List.map_append, List.filter_cons_of_pos (by simp)]
        rfl
      · rw [Deed.perform_focus Memory.firstPlace_lawful, play_snoc]
        change (d.perform counter m.store.1).2 = ((play deeds).next d).state
        rw [hstate]
        rfl
    · refine ⟨deeds, hdeeds, ?_, ?_⟩
      · unfold deedsOn
        rw [List.filter_append, List.filter_cons_of_neg (by simpa using hcounter), List.filter_nil,
          List.append_nil]
        exact htrace
      · have hframe := (Node.nodeAmong_frame before after threads layout c hc).resolve_left
          hcounter d hon m
        exact hframe.trans hstate
  · intro m trace statistics h
    exact h
  · refine ⟨[], ?_, rfl, hs⟩
    intro d hd
    cases hd

/-- The history was emptied last of all, or nothing has happened yet. -/
def JustEmptied (deeds : List (Deed State)) : Prop :=
  deeds = [] ∨ ∃ before d, deeds = before ++ [d] ∧ change d (play before).state = .emptied

theorem play_justEmptied {deeds : List (Deed State)} (hon : ∀ d ∈ deeds, d.On counter)
    (h : JustEmptied deeds) : (play deeds).state.history = [] ∧ (play deeds).results = [] := by
  rcases h with rfl | ⟨before, d, rfl, hchange⟩
  · exact ⟨rfl, rfl⟩
  · have hholds := perform_change (hon d (List.mem_append_right _ List.mem_cons_self))
      (play before).state
    rw [hchange] at hholds
    rw [play_snoc]
    unfold Run.next
    rw [hchange]
    exact ⟨hholds.1, rfl⟩

/-- One action keeps the history as long as the results and the capacity allow, when it
leaves the capacity as it was. -/
theorem next_length {run : Run} {c : UInt64} (hcapacity : run.state.capacity = c)
    (hlength : run.state.history.length = min run.results.length c.toNat) {d : Deed State}
    (hon : d.On counter) (hnext : (run.next d).state.capacity = c) :
    (run.next d).state.history.length = min (run.next d).results.length c.toNat := by
  have hholds := perform_change hon run.state
  unfold Run.next at hnext ⊢
  dsimp only at hnext ⊢
  cases hchange : change d run.state with
  | result n =>
    rw [hchange] at hholds
    have hresults : (Change.result n).results run.results = run.results ++ [n] := rfl
    rw [hholds.1, hresults, length_lastItems, hcapacity, List.length_append, List.length_append,
      List.length_singleton, hlength]
    omega
  | capacity c' =>
    rw [hchange] at hholds
    have hsame : c' = c := hholds.2.symm.trans hnext
    have hresults : (Change.capacity c').results run.results = run.results := rfl
    rw [hholds.1, hresults, length_lastItems, hsame, hlength]
    omega
  | emptied =>
    rw [hchange] at hholds
    rw [hholds.1]
    exact (Nat.zero_min _).symm
  | none =>
    rw [hchange] at hholds
    rw [hholds.1]
    exact hlength

/-- Under one capacity since the history was emptied, it holds as many results as fit. -/
theorem play_length {earlier later : List (Deed State)} {c : UInt64}
    (hon : ∀ d ∈ earlier ++ later, d.On counter) (hemptied : JustEmptied earlier)
    (hcapacity : ∀ part, part <+: later → (play (earlier ++ part)).state.capacity = c) :
    (play (earlier ++ later)).state.history.length =
      min (play (earlier ++ later)).results.length c.toNat := by
  induction later using List.reverseRecOn with
  | nil =>
    rw [List.append_nil] at hon ⊢
    obtain ⟨hhistory, hresults⟩ := play_justEmptied hon hemptied
    rw [hhistory, hresults]
    exact (Nat.zero_min _).symm
  | append_singleton later d ih =>
    have hprefix : later <+: later ++ [d] := List.prefix_append later [d]
    have hbefore := ih
      (fun d' hd' => hon d' (by rw [← List.append_assoc]; exact List.mem_append_left _ hd'))
      (fun part hpart => hcapacity part (hpart.trans hprefix))
    have hlast := hcapacity (later ++ [d]) List.prefix_rfl
    rw [← List.append_assoc, play_snoc] at hlast ⊢
    refine next_length (hcapacity later hprefix) hbefore (hon d ?_) hlast
    exact List.mem_append_right _ (List.mem_append_right _ List.mem_cons_self)

/-- What one more action does to the history. -/
theorem next_history {d : Deed State} (hd : d.On counter) (run : Run) :
    match change d run.state with
    | .result _ => (run.next d).state.history.length =
        min (run.state.history.length + 1) run.state.capacity.toNat
    | .capacity c => (run.next d).state.capacity = c ∧
        (run.next d).state.history.length = min run.state.history.length c.toNat
    | .emptied => (run.next d).state.history = []
    | .none => (run.next d).state.history = run.state.history := by
  have hholds : (change d run.state).Holds run.state (run.next d).state := perform_change hd run.state
  cases hchange : change d run.state with
  | result n =>
    rw [hchange] at hholds
    dsimp only
    rw [hholds.1, length_lastItems, List.length_append, List.length_singleton]
  | capacity c =>
    rw [hchange] at hholds
    refine ⟨hholds.2, ?_⟩
    rw [hholds.1, length_lastItems]
  | emptied =>
    rw [hchange] at hholds
    exact hholds.1
  | none =>
    rw [hchange] at hholds
    exact hholds.1

/-- After all actions on a fresh counter in any order, the shown history is a suffix of the
results since it was last emptied. One more action makes it longer by one up to the capacity
if it gives a result, cuts it to a capacity that it sets, empties it, or leaves it as it is;
writing the count and setting it to zero leave it as it is. Under one capacity since it was
last emptied it holds exactly the last results that fit. All this holds of runs of batches as well:
they leave a fresh counter among other components where the actions on it lead. -/
theorem history_holds_last_results :
    (∀ deeds : List (Deed State), (∀ d ∈ deeds, d.On counter) →
      let run := play deeds
      run.state.history <:+ run.results ∧
      (∀ a ∈ counter.attributes, a.name = "recent" →
        a.get run.state = some (.list (run.state.history.map .signed))) ∧
      (∀ d : Deed State, d.On counter →
        let next := (run.next d).state
        match change d run.state with
        | .result _ => next.history.length =
            min (run.state.history.length + 1) run.state.capacity.toNat
        | .capacity c => next.capacity = c ∧
            next.history.length = min run.state.history.length c.toNat
        | .emptied => next.history = []
        | .none => next.history = run.state.history) ∧
      (∀ a ∈ counter.attributes, ∀ v, a.name = "count" →
        (run.next (.store a v)).state.history = run.state.history) ∧
      (∀ o ∈ counter.operations, ∀ args, o.name = "reset" →
        (run.next (.run o args)).state.history = run.state.history) ∧
      ∀ (earlier later : List (Deed State)) (c : UInt64), deeds = earlier ++ later →
        JustEmptied earlier →
        (∀ part, part <+: later → (play (earlier ++ part)).state.capacity = c) →
        run.state.history = lastItems c.toNat run.results) ∧
    ∀ {ρ : Type} (before after : List (Component (Memory ρ))) (threads : ThreadSource)
      (layout : ReportLayout) (batches : List (UInt64 × List String)) (tokens : List String)
      (s : NodeState (State × ρ)), s.memory.store.1 = {} →
      let node := nodeAmong before after threads layout
      Played (node.afterRun batches tokens s).memory (node.bodiesOfRun batches tokens s) := by
  constructor
  · intro deeds hon run
    have hsuffix := play_suffix hon
    refine ⟨hsuffix, ?_, ?_, ?_, ?_, ?_⟩
    · intro a ha hname
      exact recent_get ha hname run.state
    · intro d hd
      exact next_history hd run
    · intro a ha v hname
      have hholds := perform_change (d := .store a v) ha run.state
      unfold change at hholds
      rw [changeOf_store (by rw [hname]; decide)] at hholds
      exact hholds.1
    · intro o ho args hname
      have hholds := perform_change (d := .run o args) ho run.state
      unfold change at hholds
      rw [changeOf_other (by rw [hname]; decide), if_neg (by rw [hname]; decide)] at hholds
      exact hholds.1
    · rintro earlier later c rfl hemptied hcapacity
      exact eq_lastItems hsuffix (play_length hon hemptied hcapacity)
  · intro ρ before after threads layout batches tokens s hs
    exact afterRun_played before after threads layout batches tokens hs

theorem history_of_two_increments :
    let increment : Deed State := .run (counter.operations.get ⟨0, by decide⟩) []
    let clear : Deed State := .run (counter.operations.get ⟨3, by decide⟩) []
    let narrow : Deed State := .store (counter.attributes.get ⟨4, by decide⟩) (.unsigned 1)
    let deeds := [increment, narrow, clear, increment, increment]
    (∀ d ∈ deeds, d.On counter) ∧ (play deeds).results = [2, 3] ∧
    (play deeds).state.history = lastItems 1 [2, 3] := by
  intro increment clear narrow deeds
  have hon : ∀ d ∈ deeds, d.On counter := by
    intro d hd
    simp only [deeds, List.mem_cons, List.not_mem_nil, or_false] at hd
    rcases hd with rfl | rfl | rfl | rfl | rfl
    · exact List.get_mem _ _
    · exact List.get_mem _ _
    · exact List.get_mem _ _
    · exact List.get_mem _ _
    · exact List.get_mem _ _
  have hemptied : JustEmptied [increment, narrow, clear] :=
    .inr ⟨[increment, narrow], clear, rfl, rfl⟩
  refine ⟨hon, rfl, ?_⟩
  obtain ⟨-, -, -, -, -, hlast⟩ := history_holds_last_results.1 deeds hon
  refine hlast [increment, narrow, clear] [increment, increment] 1 rfl hemptied ?_
  intro part hpart
  rcases List.prefix_cons_iff.mp hpart with rfl | ⟨rest, rfl, hrest⟩
  · rfl
  · rcases List.prefix_cons_iff.mp hrest with rfl | ⟨last, rfl, hnone⟩
    · rfl
    · rw [List.prefix_nil.mp hnone]
      rfl

end NodeProbe.Counter
