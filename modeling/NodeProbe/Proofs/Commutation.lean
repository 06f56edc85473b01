import Mathlib.Data.List.Pairwise
import NodeProbe.Proofs.ComponentCommands
import NodeProbe.Proofs.Dump
import NodeProbe.Proofs.Separation

/-!
# Commands on different components commute

A command on one component fills the place of that component and adds entries under its
name. Neither is seen by a command on a component that shares no state with the first, so it
does not matter which of the two comes first.
-/
namespace NodeProbe

variable {σ : Type}

namespace Node

/-- The component that an access to attributes or a call names, whether the token is such a
command or stands for one. -/
def target? (node : Node σ) (token : String) : Option (Component (Memory σ)) :=
  match node.commandOf? token with
  | some (_, .attributes (some argument)) => findByName node.components (attributeTarget argument).1
  | some (_, .invoke (some call)) => callTarget? node.components (splitToken call).1
  | _ => none

variable {node : Node σ}

/-- A command with a target is an access to its attributes or a call of it. -/
theorem target?_cases {token : String} {c : Component (Memory σ)} (h : node.target? token = some c) :
    (∃ argument, findByName node.components (attributeTarget argument).1 = some c ∧
      ∀ s, node.dispatch token s = node.accessAttributes argument s) ∨
    ∃ call, callTarget? node.components (splitToken call).1 = some c ∧
      ∀ s, node.dispatch token s = node.invokeOperation call s := by
  unfold target? at h
  split at h
  · next command argument hcommand =>
    refine .inl ⟨argument, h, fun s => ?_⟩
    rw [dispatch_eq, hcommand]
    rfl
  · next command call hcommand =>
    refine .inr ⟨call, h, fun s => ?_⟩
    rw [dispatch_eq, hcommand]
    rfl
  · cases h

section

variable {token : String} {c : Component (Memory σ)} (h : node.target? token = some c)
include h

theorem target?_mem : c ∈ node.components := by
  rcases target?_cases h with ⟨argument, hfound, -⟩ | ⟨call, hfound, -⟩
  · exact List.mem_of_find?_eq_some hfound
  · exact callTarget?_mem hfound

theorem dispatch_target_flags (s : NodeState σ) : (node.dispatch token s).state.flags = s.flags := by
  rcases target?_cases h with ⟨argument, -, hdispatch⟩ | ⟨call, -, hdispatch⟩
  · rw [hdispatch]
    exact node.accessAttributes_flags argument s
  · rw [hdispatch]
    exact node.invokeOperation_flags call s

theorem dispatch_target_moves (s : NodeState σ) :
    Moves [c] s.memory (node.dispatch token s).state.memory := by
  rcases target?_cases h with ⟨argument, hfound, hdispatch⟩ | ⟨call, hfound, hdispatch⟩
  · rw [hdispatch, accessAttributes_alone hfound]
    exact (node.alone c).accessAttributes_moves argument s
  · rw [hdispatch, invokeOperation_alone hfound]
    exact (node.alone c).invokeOperation_moves call s

theorem dispatch_target_leads {s : NodeState σ} {e : String × String}
    (he : e ∈ (node.dispatch token s).entries) : c.Leads e.1 := by
  rcases target?_cases h with ⟨argument, hfound, hdispatch⟩ | ⟨call, hfound, hdispatch⟩
  · rw [hdispatch, accessAttributes_eq, hfound] at he
    exact accessComponent_leads he
  · rw [hdispatch, invokeOperation_alone hfound] at he
    exact invokeOperation_leads he

/-- Only the target has to agree with itself for the replies to agree. -/
theorem dispatch_target_agree {R : Memory σ → Memory σ → Prop} (hc : c.Simulates R c)
    {s s' : NodeState σ} (hs : s.Related R s') :
    (node.dispatch token s).Agree R (node.dispatch token s') := by
  have halone : (node.alone c).Simulates R (node.alone c) := alone_simulates hc
  rcases target?_cases h with ⟨argument, hfound, hdispatch⟩ | ⟨call, hfound, hdispatch⟩
  · rw [hdispatch, hdispatch, accessAttributes_alone hfound, accessAttributes_alone hfound]
    exact halone.accessAttributes_agree hs argument
  · rw [hdispatch, hdispatch, invokeOperation_alone hfound, invokeOperation_alone hfound]
    exact halone.invokeOperation_agree hs call

end

/-! ## Two commands -/

section

variable {token token' : String} {c c' : Component (Memory σ)} (h : node.target? token = some c)
  (h' : node.target? token' = some c')
include h h'

/-- The second command goes as it would have gone first, and together they leave what they
leave in the other order. -/
theorem dispatch_comm (hapart : c.Apart c') (s : NodeState σ) :
    let s₁ := (node.dispatch token s).state
    let s₂ := (node.dispatch token' s).state
    (node.dispatch token' s₁).state = (node.dispatch token s₂).state ∧
    (node.dispatch token' s₁).entries = (node.dispatch token' s).entries ∧
    (node.dispatch token' s₁).failure = (node.dispatch token' s).failure ∧
    (node.dispatch token s₂).entries = (node.dispatch token s).entries ∧
    (node.dispatch token s₂).failure = (node.dispatch token s).failure := by
  intro s₁ s₂
  obtain ⟨α, β, place, other, d, d', hplaces, rfl, rfl⟩ := hapart
  obtain ⟨values, hvalues⟩ := (dispatch_target_moves h s).focus
  obtain ⟨values', hvalues'⟩ := (dispatch_target_moves h' s).focus
  have hs₁ : s.Related (fun m m' => m' = place.putAll values m) s₁ :=
    ⟨hvalues, dispatch_target_flags h s⟩
  have hs₂ : s.Related (fun m m' => m' = other.putAll values' m) s₂ :=
    ⟨hvalues', dispatch_target_flags h' s⟩
  -- each command runs beside itself, once with and once without what the other has put away
  have hsecond := dispatch_target_agree h' (d'.focus_simulates hplaces.symm values) hs₁
  have hfirst := dispatch_target_agree h (d.focus_simulates hplaces values') hs₂
  refine ⟨NodeState.Related.eq ⟨?_, ?_⟩, hsecond.entries, hsecond.failure, hfirst.entries,
    hfirst.failure⟩
  · rw [hsecond.state.memory, hfirst.state.memory, hvalues, hvalues', hplaces.putAll_putAll]
  · rw [dispatch_target_flags h', dispatch_target_flags h, dispatch_target_flags h,
      dispatch_target_flags h']

/-- Commands on components of different names have no key in common. -/
theorem dispatch_target_keys (hdot : '.' ∉ c.name.toList) (hdot' : '.' ∉ c'.name.toList)
    (hne : c.name ≠ c'.name) {s s' : NodeState σ} :
    ∀ e ∈ (node.dispatch token s).entries, ∀ e' ∈ (node.dispatch token' s').entries, e.1 ≠ e'.1 := by
  intro e he e' he' heq
  obtain ⟨rest, hrest⟩ := dispatch_target_leads h he
  obtain ⟨rest', hrest'⟩ := dispatch_target_leads h' he'
  rw [hrest, hrest'] at heq
  exact hne (eq_of_dotted_eq hdot hdot' heq).1

end

/-- The batches went alike; what they logged may differ. -/
structure SameOutcome (x y : Batch σ) : Prop where
  state : x.state = y.state
  entries : x.entries = y.entries
  handled : x.handled = y.handled
  failed : x.failed = y.failed

theorem SameOutcome.step {x y : Batch σ} (h : SameOutcome x y) (token : String) :
    SameOutcome (node.step x token) (node.step y token) := by
  refine ⟨?_, ?_, ?_, ?_⟩
  · rw [step_state, step_state, h.state]
  · rw [step_entries, step_entries, h.state, h.entries]
  · rw [step_handled, step_handled, h.state, h.handled]
  · rw [step_failed, step_failed, h.state, h.failed]

theorem SameOutcome.steps {x y : Batch σ} (h : SameOutcome x y) (tokens : List String) :
    SameOutcome (tokens.foldl node.step x) (tokens.foldl node.step y) := by
  induction tokens generalizing x y with
  | nil => exact h
  | cons token tokens ih => exact ih (h.step token)

/-- Requests that take the same time record the same. -/
theorem SameOutcome.handle_state {commands commands' : List String} {s : NodeState σ}
    (h : SameOutcome (node.runBatch commands s) (node.runBatch commands' s)) (micros : UInt64) :
    (node.handle micros commands s).state = (node.handle micros commands' s).state := by
  simp only [handle, h.state, h.handled, h.failed]

section

variable {token token' : String} {c c' : Component (Memory σ)} (h : node.target? token = some c)
  (h' : node.target? token' = some c') (hapart : c.Apart c') (hdot : '.' ∉ c.name.toList)
  (hdot' : '.' ∉ c'.name.toList) (hne : c.name ≠ c'.name)
include h h' hapart hdot hdot' hne

/-- Two commands on components that share no state can be run in either order. -/
theorem step_comm (batch : Batch σ) : SameOutcome (node.step (node.step batch token) token')
    (node.step (node.step batch token') token) := by
  obtain ⟨hstate, hentries, hfailure, hentries', hfailure'⟩ := dispatch_comm h h' hapart batch.state
  refine ⟨?_, ?_, ?_, ?_⟩
  · simp only [step_state]
    exact hstate
  · simp only [step_entries, step_state, hentries, hentries']
    exact Entries.insertAll_comm (dispatch_target_keys h h' hdot hdot' hne) batch.entries
  · simp only [step_handled, step_state, hfailure, hfailure']
    ac_rfl
  · simp only [step_failed, step_state, hfailure, hfailure']
    ac_rfl

/-- Neighbours on different components can change places anywhere in a batch. -/
theorem runBatch_comm (before after : List String) (s : NodeState σ) :
    SameOutcome (node.runBatch (before ++ [token, token'] ++ after) s)
      (node.runBatch (before ++ [token', token] ++ after) s) := by
  simp only [runBatch_append]
  exact (step_comm h h' hapart hdot hdot' hne _).steps after

end

end Node

/-- On a stack whose components share no state and have no dot in their names, two commands on
the attributes or operations of different components can change places, alone or anywhere in
a batch. The result, the flags, the store of the components and the counts are the same; and so
is the whole state, if the requests take the same time. -/
theorem commands_on_different_components_commute (stack : Stack (Memory σ))
    (hdots : ∀ c ∈ stack.components, '.' ∉ c.name.toList)
    (hapart : stack.components.Pairwise Component.Apart) (threads : ThreadSource)
    (layout : ReportLayout) (token token' : String) (c c' : Component (Memory σ))
    (htarget : Node.target? ⟨stack.components, threads, layout⟩ token = some c)
    (htarget' : Node.target? ⟨stack.components, threads, layout⟩ token' = some c') (hne : c ≠ c')
    (before after : List String) (s : NodeState σ) (micros micros' : UInt64) :
    let node : Node σ := ⟨stack.components, threads, layout⟩
    let done := node.handle micros (before ++ [token, token'] ++ after) s
    let done' := node.handle micros' (before ++ [token', token] ++ after) s
    done.entries = done'.entries ∧
    done.state.flags = done'.state.flags ∧
    done.state.memory.store = done'.state.memory.store ∧
    done.handled = done'.handled ∧ done.failed = done'.failed ∧
    done.state.memory.statistics.requests = done'.state.memory.statistics.requests ∧
    done.state.memory.statistics.handled = done'.state.memory.statistics.handled ∧
    done.state.memory.statistics.failed = done'.state.memory.statistics.failed ∧
    (micros = micros' → done.state = done'.state) := by
  intro node done done'
  have hc : c ∈ stack.components := Node.target?_mem htarget
  have hc' : c' ∈ stack.components := Node.target?_mem htarget'
  have hnames : c.name ≠ c'.name :=
    fun heq => hne (List.inj_on_of_nodup_map stack.unique hc hc' heq)
  have hplaces : c.Apart c' := hapart.forall hc hc' hne
  have hrun := Node.runBatch_comm htarget htarget' hplaces (hdots c hc) (hdots c' hc') hnames before
    after s
  have hflags := congrArg NodeState.flags hrun.state
  have hmemory := congrArg NodeState.memory hrun.state
  have hstore := congrArg Memory.store hmemory
  have hstatistics := congrArg Memory.statistics hmemory
  refine ⟨hrun.entries, hflags, hstore, hrun.handled, hrun.failed, ?_, ?_, ?_, ?_⟩
  · exact congrArg (fun t : Statistics => t.requests + 1) hstatistics
  · exact congrArg₂ (fun (t : Statistics) n => t.handled + n) hstatistics hrun.handled
  · exact congrArg₂ (fun (t : Statistics) n => t.failed + n) hstatistics hrun.failed
  · rintro rfl
    exact hrun.handle_state micros

/-- The summary does not show the write, and the failed call does not touch the count. -/
theorem write_commutes_with_summary :
    let node := CommandLine.node {} (.numbered true true [])
    let s := CommandLine.initialState {}
    let write := "jmx=COUNTER.count=5,label=,count"
    let summary := "DIAG.summary[]"
    let done := node.handle 4 ["DIAG", write, summary, "COUNTER"] s
    let done' := node.handle 9 ["DIAG", summary, write, "COUNTER"] s
    (node.components.map (·.name)).Nodup ∧ (∀ c ∈ node.components, '.' ∉ c.name.toList) ∧
    node.components.Pairwise Component.Apart ∧
    node.target? write = some (counter.focus Memory.storePlace) ∧
    node.target? summary = some (diagnostics.focus Memory.statisticsPlace) ∧
    counter.focus Memory.storePlace ≠ diagnostics.focus Memory.statisticsPlace ∧
    done.entries = done'.entries ∧ done.state.memory.store = done'.state.memory.store := by
  intro node s write summary done done'
  have hunique : (node.components.map (·.name)).Nodup := by decide
  have hdots : ∀ c ∈ node.components, '.' ∉ c.name.toList := by decide
  have hapart := CommandLine.node_apart {} (.numbered true true [])
  have hwrite : node.target? write = some (counter.focus Memory.storePlace) := by
    have hcommand : node.commandOf? write =
        some (write, .attributes (some "COUNTER.count=5,label=,count")) := by decide
    have hname : (Node.attributeTarget "COUNTER.count=5,label=,count").1 = "COUNTER" := by decide
    unfold Node.target?
    rw [hcommand]
    dsimp only
    rw [hname]
    rfl
  have hsummary : node.target? summary = some (diagnostics.focus Memory.statisticsPlace) := by
    have hcommand : node.commandOf? summary =
        some ("op=DIAG.summary[]", .invoke (some summary)) := by decide
    have hname : (Node.splitToken summary).1 = "DIAG" := by decide
    unfold Node.target?
    rw [hcommand]
    dsimp only
    rw [hname]
    rfl
  have hne : (counter.focus Memory.storePlace : Component (Memory Counter.State)) ≠
      diagnostics.focus Memory.statisticsPlace :=
    fun heq => absurd (congrArg Component.name heq) (by decide)
  have h := commands_on_different_components_commute ⟨node.components, hunique⟩ hdots hapart
    node.threads node.layout write summary _ _ hwrite hsummary hne ["DIAG"] ["COUNTER"] s 4 9
  exact ⟨hunique, hdots, hapart, hwrite, hsummary, hne, h.1, h.2.2.1⟩

end NodeProbe
