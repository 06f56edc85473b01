import NodeProbe.CommandLine
import NodeProbe.Proofs.CounterBodies
import NodeProbe.Proofs.Runs

/-!
# A failing command changes nothing

With components whose bodies change nothing when they fail, a command that fails leaves the
result, the flags and the memory as they were. A batch with such a command in it differs
from the batch without it in one count of the statistics, the times aside.
-/
namespace NodeProbe

variable {σ : Type}

/-- Every body of the counter computes its next state before it takes it. -/
theorem Counter.atomic : counter.Atomic := by
  intro d hon s e he
  have hbody := Counter.body_of_on hon
  generalize d.perform counter = f at hbody he ⊢
  cases hbody with
  | count _ _ | step _ _ | mode _ _ | label _ _ | capacity _ _ =>
    rcases Counter.stored_cases _ _ s with ⟨e', hstored, -⟩ | ⟨a, s', hstored, -, -⟩
    · rw [hstored]
    · rw [hstored] at he
      cases he
  | add _ _ =>
    split at he
    · rfl
    · cases he
  | recent _ _ | increment _ _ | reset _ _ | clear _ _ | resetStatistics => cases he

theorem Diagnostics.attributes_readOnly : ∀ a ∈ diagnostics.attributes, a.set? = none := by
  have hall : diagnostics.attributes.all (fun a => a.set?.isNone) = true := rfl
  intro a ha
  exact Option.isNone_iff_eq_none.mp (List.all_eq_true.mp hall a ha)

theorem Diagnostics.operations_ask : ∀ o ∈ diagnostics.operations, ∀ args s, (o.run args s).2 = s := by
  have hlist : ∃ summary, diagnostics.operations = [summary] ∧
      ∀ args s, (summary.run args s).2 = s := ⟨_, rfl, fun _ _ => rfl⟩
  obtain ⟨summary, hone, hask⟩ := hlist
  intro o ho
  rw [hone, List.mem_singleton] at ho
  subst o
  exact hask

theorem Diagnostics.atomic : diagnostics.Atomic := by
  intro d hon s e he
  cases d with
  | store a v =>
    have hnone := Diagnostics.attributes_readOnly a hon
    exact congrArg Prod.snd (Attribute.store_of_readOnly hnone v s)
  | run o args => exact Diagnostics.operations_ask o hon args s
  | reset => cases he

/-- Before the body of an operation runs, a call has changed nothing. -/
theorem Component.Atomic.call {c : Component σ} (hc : c.Atomic) {call : OperationCall} {m : σ}
    {e : Failure} (h : (c.call call m).1 = .error e) : (c.call call m).2 = m := by
  rcases c.call_cases call m with ⟨e', hcall⟩ | ⟨o, args, hon, -, -, -, hcall⟩
  · rw [hcall]
  · rw [hcall] at h ⊢
    have hrun := hc (.run o args) hon m
    rw [Deed.perform_run] at hrun
    cases hresult : o.run args m with
    | mk result m' =>
      rw [hresult] at h hrun
      cases result with
      | error e' => exact hrun e' rfl
      | ok r => cases h

namespace Node

variable {node : Node σ}

theorem accessComponent_failure (c : Component (Memory σ)) (list? : Option String)
    (s : NodeState σ) : (accessComponent c list? s).failure = none := by
  cases list? <;> rfl

/-- Failing writes are only logged, so an access fails before it starts or not at all. -/
theorem accessAttributes_failure {argument : String} {s : NodeState σ} {e : Failure}
    (h : (node.accessAttributes argument s).failure = some e) :
    node.accessAttributes argument s = .ofFailure s e := by
  rw [accessAttributes_eq] at h ⊢
  cases hfound : findByName node.components (attributeTarget argument).1 with
  | none =>
    rw [hfound] at h
    cases h
    rfl
  | some c =>
    rw [hfound] at h
    change (accessComponent c _ s).failure = some e at h
    rw [accessComponent_failure] at h
    cases h

/-- A call of atomic components that fails has no effect. -/
theorem invokeOperation_failure (hatomic : ∀ c ∈ node.components, c.Atomic) {call : String}
    {s : NodeState σ} {e : Failure} (h : (node.invokeOperation call s).failure = some e) :
    node.invokeOperation call s = .ofFailure s e := by
  rcases node.invokeOperation_cases call s with ⟨e', hcall⟩ | ⟨c, hc, parsed, -, -, hcall⟩
  · rw [hcall] at h ⊢
    cases h
    rfl
  · rw [hcall] at h ⊢
    have hsame : ∀ e', (c.call parsed s.memory).1 = .error e' →
        (c.call parsed s.memory).2 = s.memory := fun e' => (hatomic c hc).call
    rcases hresult : c.call parsed s.memory with ⟨e' | entry?, memory⟩
    · rw [hresult] at h hsame
      cases h
      rw [show memory = s.memory from hsame e rfl]
      rfl
    · rw [hresult] at h
      cases h

/-- A command that fails has no effect but its failure, whatever its verb. -/
theorem runVerb_failure (hatomic : ∀ c ∈ node.components, c.Atomic) {token : String} {verb : Verb}
    {s : NodeState σ} {e : Failure} (h : (node.runVerb token verb s).failure = some e) :
    node.runVerb token verb s = .ofFailure s e := by
  cases verb with
  | attributes argument? =>
    cases argument? with
    | none => cases h
    | some argument => exact accessAttributes_failure h
  | resetStatistics => cases h
  | listOperations className? =>
    simp only [runVerb] at h ⊢
    split at h
    · cases h
    · cases h
      rfl
  | invoke call? =>
    cases call? with
    | none => cases h; rfl
    | some call => exact invokeOperation_failure hatomic h
  | threads argument? =>
    simp only [runVerb] at h ⊢
    split at h
    · cases h
    · cases h
      rfl
  | toggle kind enabled => cases h

theorem dispatch_failure (hatomic : ∀ c ∈ node.components, c.Atomic) {token : String}
    {s : NodeState σ} {e : Failure} (h : (node.dispatch token s).failure = some e) :
    node.dispatch token s = .ofFailure s e := by
  rw [dispatch_eq] at h ⊢
  split at h
  · exact runVerb_failure hatomic h
  · cases h

/-- The first batch went like the second, but for one more failed command. -/
structure OneMoreFailure (x y : Batch σ) : Prop where
  state : x.state = y.state
  entries : x.entries = y.entries
  handled : x.handled = y.handled
  failed : x.failed = y.failed + 1

/-- Two batches that differ by one failure still do so after the same command. -/
theorem OneMoreFailure.step {x y : Batch σ} (h : OneMoreFailure x y) (token : String) :
    OneMoreFailure (node.step x token) (node.step y token) := by
  refine ⟨?_, ?_, ?_, ?_⟩
  · rw [step_state, step_state, h.state]
  · rw [step_entries, step_entries, h.state, h.entries]
  · rw [step_handled, step_handled, h.state, h.handled]
  · rw [step_failed, step_failed, h.state, h.failed, UInt64.add_assoc, UInt64.add_assoc,
      UInt64.add_comm 1]

theorem OneMoreFailure.steps {x y : Batch σ} (h : OneMoreFailure x y) (tokens : List String) :
    OneMoreFailure (tokens.foldl node.step x) (tokens.foldl node.step y) := by
  induction tokens generalizing x y with
  | nil => exact h
  | cons token tokens ih => exact ih (h.step token)

/-- The step of a failing command adds a failure and nothing else. -/
theorem step_failure (hatomic : ∀ c ∈ node.components, c.Atomic) {batch : Batch σ} {token : String}
    {e : Failure} (h : (node.dispatch token batch.state).failure = some e) :
    OneMoreFailure (node.step batch token) batch := by
  have hreply := dispatch_failure hatomic h
  unfold Node.step
  rw [hreply]
  exact ⟨rfl, rfl, rfl, rfl⟩

/-- The same holds with the failing command anywhere in a batch. -/
theorem runBatch_failure (hatomic : ∀ c ∈ node.components, c.Atomic) (before after : List String)
    {token : String} {s : NodeState σ} {e : Failure}
    (h : (node.dispatch token (node.runBatch before s).state).failure = some e) :
    OneMoreFailure (node.runBatch (before ++ [token] ++ after) s)
      (node.runBatch (before ++ after) s) := by
  unfold runBatch at h ⊢
  rw [List.foldl_append, List.foldl_append, List.foldl_append]
  exact (step_failure hatomic h).steps after

end Node

/-- The program's own components change nothing when they fail. -/
theorem CommandLine.node_atomic (config : Config) (threads : ThreadSource) :
    ∀ c ∈ (node config threads).components, c.Atomic := by
  intro c hc
  simp only [node, List.mem_cons, List.not_mem_nil, or_false] at hc
  rcases hc with rfl | rfl
  · exact Diagnostics.atomic.focus Memory.statisticsPlace_lawful
  · exact Counter.atomic.focus Memory.storePlace_lawful

/-- A command that fails leaves the result, the flags and the memory as they were, and the
batch around it goes on as if the command had not been there, but for one failure more in
the statistics. The bodies of the counter and of the diagnostics meet the condition. -/
theorem failing_command_changes_nothing :
    counter.Atomic ∧ diagnostics.Atomic ∧
    ∀ {σ : Type} (node : Node σ), (∀ c ∈ node.components, c.Atomic) →
      (∀ (batch : Node.Batch σ) (token : String) (e : Failure),
        (node.dispatch token batch.state).failure = some e →
        (node.step batch token).entries = batch.entries ∧
        (node.step batch token).state.flags = batch.state.flags ∧
        (node.step batch token).state.memory = batch.state.memory) ∧
      ∀ (before after : List String) (token : String) (s : NodeState σ) (e : Failure)
        (micros micros' : UInt64),
        (node.dispatch token (node.runBatch before s).state).failure = some e →
        let full := node.handle micros (before ++ [token] ++ after) s
        let rest := node.handle micros' (before ++ after) s
        full.entries = rest.entries ∧
        full.state.flags = rest.state.flags ∧
        full.state.memory.store = rest.state.memory.store ∧
        full.state.memory.statistics.requests = rest.state.memory.statistics.requests ∧
        full.state.memory.statistics.handled = rest.state.memory.statistics.handled ∧
        full.state.memory.statistics.failed = rest.state.memory.statistics.failed + 1 := by
  refine ⟨Counter.atomic, Diagnostics.atomic, fun node hatomic => ⟨?_, ?_⟩⟩
  · intro batch token e he
    have hstep := Node.step_failure hatomic he
    exact ⟨hstep.entries, congrArg NodeState.flags hstep.state, congrArg NodeState.memory hstep.state⟩
  · intro before after token s e micros micros' he
    have hrun := Node.runBatch_failure hatomic before after he
    have hflags := congrArg NodeState.flags hrun.state
    have hstore := congrArg (fun s : NodeState _ => s.memory.store) hrun.state
    have hstatistics := congrArg (fun s : NodeState _ => s.memory.statistics) hrun.state
    refine ⟨hrun.entries, hflags, hstore, ?_, ?_, ?_⟩
    · exact congrArg (fun t : Statistics => t.requests + 1) hstatistics
    · exact congrArg₂ (fun (t : Statistics) n => t.handled + n) hstatistics hrun.handled
    · change (node.runBatch (before ++ [token] ++ after) s).state.memory.statistics.failed +
          (node.runBatch (before ++ [token] ++ after) s).failed =
        (node.runBatch (before ++ after) s).state.memory.statistics.failed +
          (node.runBatch (before ++ after) s).failed + 1
      rw [hstatistics, hrun.failed, UInt64.add_assoc]

theorem failing_add_changes_nothing :
    let node := CommandLine.node {} (.numbered true true [])
    let s := CommandLine.initialState {}
    let full := node.handle 7 (["COUNTER.increment[]"] ++ ["op=COUNTER.add[x]"] ++ ["COUNTER"]) s
    let rest := node.handle 5 (["COUNTER.increment[]"] ++ ["COUNTER"]) s
    (∀ c ∈ node.components, c.Atomic) ∧
    (node.dispatch "op=COUNTER.add[x]" (node.runBatch ["COUNTER.increment[]"] s).state).failure =
      some (.argumentConversion "x" "i64" "not an integer") ∧
    full.entries = rest.entries ∧
    full.state.memory.store = rest.state.memory.store ∧
    full.state.memory.statistics.failed = rest.state.memory.statistics.failed + 1 := by
  intro node s full rest
  have hatomic : ∀ c ∈ node.components, c.Atomic := CommandLine.node_atomic _ _
  have hfails : (node.dispatch "op=COUNTER.add[x]"
      (node.runBatch ["COUNTER.increment[]"] s).state).failure =
      some (.argumentConversion "x" "i64" "not an integer") := rfl
  have h := (failing_command_changes_nothing.2.2 node hatomic).2 ["COUNTER.increment[]"] ["COUNTER"]
    "op=COUNTER.add[x]" s _ 7 5 hfails
  exact ⟨hatomic, hfails, h.1, h.2.2.1, h.2.2.2.2.2⟩

end NodeProbe
