import NodeProbe.Proofs.Composition
import NodeProbe.Proofs.ComponentCommands
import NodeProbe.Proofs.Dump
import NodeProbe.Proofs.FailingCommands

/-!
# Statistics that a component shows

A component can show the statistics of its node. They change when a request is recorded and
when the components are reset, and no body of a component changes them in between. Whichever
command shows `DIAG.requests` shows their present number of requests.
-/
namespace NodeProbe

variable {σ : Type}

/-- The bodies of the component leave the statistics as they are, and its reset leaves
cleared statistics cleared. -/
structure Component.SparesStatistics (c : Component (Memory σ)) : Prop where
  store : ∀ a ∈ c.attributes, ∀ v m, (a.store v m).2.statistics = m.statistics
  run : ∀ o ∈ c.operations, ∀ args m, (o.run args m).2.statistics = m.statistics
  reset : ∀ m, m.statistics = .fresh → (c.reset m).statistics = .fresh

/-- The diagnostics of a node that show the node's own statistics. -/
def sharedDiagnostics : Component (Memory σ) := diagnostics.focus Memory.statisticsPlace

namespace Node

/-- The node has diagnostics of its statistics, which all its other components spare. -/
structure ShowsStatistics (node : Node σ) : Prop where
  unique : (node.components.map (·.name)).Nodup
  shown : sharedDiagnostics ∈ node.components
  spared : ∀ c ∈ node.components, c.name ≠ "DIAG" → c.SparesStatistics

end Node

theorem sharedDiagnostics_spares : (sharedDiagnostics : Component (Memory σ)).SparesStatistics where
  store a' ha' v m := by
    obtain ⟨a, ha, rfl⟩ := Component.of_mem_attributes_focus ha'
    rw [Attribute.store_focus Memory.statisticsPlace_lawful]
    exact congrArg Prod.snd
      (Attribute.store_of_readOnly (Diagnostics.attributes_readOnly a ha) v m.statistics)
  run o' ho' args m := by
    obtain ⟨o, ho, rfl⟩ := Component.of_mem_operations_focus ho'
    exact Diagnostics.operations_ask o ho args m.statistics
  reset _ _ := rfl

theorem Component.focus_spares (c : Component σ) :
    (c.focus Memory.storePlace).SparesStatistics where
  store a ha v m := by
    have hon : (Deed.store a v).On (c.focus Memory.storePlace) := ha
    exact c.focus_statistics hon m
  run o ho args m := by
    have hon : (Deed.run o args).On (c.focus Memory.storePlace) := ho
    exact c.focus_statistics hon m
  reset _ h := h

namespace Component.SparesStatistics

variable {c : Component (Memory σ)} (h : c.SparesStatistics)
include h

/-- Writes and calls run bodies and never the reset, so a component without a reset does the
same in their place. -/
theorem moves {m m' : Memory σ} (hmoves : Moves [{ c with reset := id }] m m') :
    m'.statistics = m.statistics := by
  refine hmoves.preserves (P := fun m' => m'.statistics = m.statistics) ?_ rfl
  intro d hd m₁ m₂ hdoes hm₁
  rw [List.mem_singleton.mp hd] at hdoes
  obtain ⟨deed, hon, -, rfl⟩ := hdoes
  cases deed with
  | store a v => exact (h.store a hon v m₁).trans hm₁
  | run o args => exact (h.run o hon args m₁).trans hm₁
  | reset => exact hm₁

theorem writeAll (writes : List (String × String)) (m : Memory σ) :
    (c.writeAll writes m).2.statistics = m.statistics := by
  have hsame : ∀ m, Component.writeAll { c with reset := id } writes m = c.writeAll writes m := by
    induction writes with
    | nil => intro m; rfl
    | cons write writes ih =>
      intro m
      unfold Component.writeAll
      dsimp only
      rw [ih]
      rfl
  apply h.moves
  rw [← hsame]
  exact Component.writeAll_moves _ writes m

theorem call (call : OperationCall) (m : Memory σ) :
    (c.call call m).2.statistics = m.statistics :=
  h.moves (Component.call_moves { c with reset := id } call m)

end Component.SparesStatistics

namespace Node

variable {node : Node σ}

theorem ShowsStatistics.spares (h : node.ShowsStatistics) {c : Component (Memory σ)}
    (hc : c ∈ node.components) : c.SparesStatistics := by
  by_cases hname : c.name = "DIAG"
  · have hsame : c = sharedDiagnostics := List.inj_on_of_nodup_map h.unique hc h.shown hname
    rw [hsame]
    exact sharedDiagnostics_spares
  · exact h.spared c hc hname

/-! ## What changes the statistics -/

section

variable (h : node.ShowsStatistics)
include h

/-- A reset of all components clears the statistics, in whichever order they are reset. -/
theorem ShowsStatistics.resetAll (s : NodeState σ) :
    (node.resetAll s).memory.statistics = .fresh := by
  -- whatever the components before the diagnostics do, those behind them spare what is cleared
  obtain ⟨before, after, hparts⟩ := List.append_of_mem h.shown
  have hafter : ∀ c ∈ after, c.SparesStatistics := by
    intro c hc
    apply h.spares
    rw [hparts]
    exact List.mem_append_right _ (List.mem_cons_of_mem _ hc)
  unfold Node.resetAll
  rw [hparts, List.foldl_append, List.foldl_cons]
  exact List.foldlRecOn (motive := fun m : Memory σ => m.statistics = .fresh) after
    (fun m c => c.reset m) rfl fun m hm c hc => (hafter c hc).reset m hm

theorem ShowsStatistics.accessAttributes (argument : String) (s : NodeState σ) :
    (node.accessAttributes argument s).state.memory.statistics = s.memory.statistics := by
  rw [accessAttributes_eq]
  cases hfound : findByName node.components (attributeTarget argument).1 with
  | none => rfl
  | some c =>
    cases hlist : (attributeTarget argument).2 with
    | none => rfl
    | some list => exact (h.spares (List.mem_of_find?_eq_some hfound)).writeAll _ _

theorem ShowsStatistics.invokeOperation (call : String) (s : NodeState σ) :
    (node.invokeOperation call s).state.memory.statistics = s.memory.statistics := by
  rcases node.invokeOperation_cases call s with ⟨e, hcall⟩ | ⟨c, hc, parsed, -, -, hcall⟩
  · rw [hcall]
    rfl
  · have hspared := (h.spares hc).call parsed s.memory
    rw [hcall]
    rcases hresult : c.call parsed s.memory with ⟨e | entry?, memory⟩ <;>
      (rw [hresult] at hspared; exact hspared)

theorem ShowsStatistics.runVerb (token : String) {verb : Verb} (hverb : verb ≠ .resetStatistics)
    (s : NodeState σ) :
    (node.runVerb token verb s).state.memory.statistics = s.memory.statistics := by
  cases verb with
  | attributes argument? =>
    cases argument? with
    | none => rfl
    | some argument => exact h.accessAttributes argument s
  | resetStatistics => exact absurd rfl hverb
  | listOperations className? =>
    simp only [Node.runVerb]
    split <;> rfl
  | invoke call? =>
    cases call? with
    | none => rfl
    | some call => exact h.invokeOperation call s
  | threads argument? =>
    simp only [Node.runVerb]
    split <;> rfl
  | toggle kind enabled => rfl

/-- One token clears the statistics, and all others leave them as they are. -/
theorem ShowsStatistics.dispatch (token : String) (s : NodeState σ) :
    (node.dispatch token s).state.memory.statistics =
      if token = "reset-stats" then .fresh else s.memory.statistics := by
  split
  · next hreset =>
    rw [hreset, dispatch_reset]
    exact h.resetAll s
  · next hother =>
    rw [dispatch_eq]
    rcases hcommand : node.commandOf? token with _ | ⟨command, verb⟩
    · rfl
    · refine h.runVerb command (fun hreset => hother ?_) s
      rw [hreset] at hcommand
      exact commandOf?_eq_reset hcommand

/-- Within a batch only a reset changes the statistics. -/
theorem ShowsStatistics.runBatch (tokens : List String) (s : NodeState σ) :
    (node.runBatch tokens s).state.memory.statistics =
      if "reset-stats" ∈ tokens then .fresh else s.memory.statistics := by
  suffices hfold : ∀ batch : Batch σ, (tokens.foldl node.step batch).state.memory.statistics =
      if "reset-stats" ∈ tokens then .fresh else batch.state.memory.statistics from hfold _
  induction tokens with
  | nil => intro batch; rfl
  | cons token tokens ih =>
    intro batch
    rw [List.foldl_cons, ih, step_state, h.dispatch]
    by_cases hlater : "reset-stats" ∈ tokens
    · rw [if_pos hlater, if_pos (List.mem_cons_of_mem _ hlater)]
    · by_cases hnow : token = "reset-stats"
      · rw [if_neg hlater, if_pos hnow, if_pos (hnow ▸ List.mem_cons_self)]
      · have hnone : "reset-stats" ∉ token :: tokens := by
          rw [List.mem_cons, not_or]
          exact ⟨fun heq => hnow heq.symm, hlater⟩
        rw [if_neg hlater, if_neg hnow, if_neg hnone]

end

end Node

/-! ## What the diagnostics show -/

/-- A key with one dot has one component and one path. -/
theorem eq_of_one_dot {a b x y : String} (hb : '.' ∉ b.toList) (hy : '.' ∉ y.toList)
    (h : a ++ "." ++ x = b ++ "." ++ y) : a = b ∧ x = y := by
  have hcount := congrArg (fun key : String => key.toList.count '.') h
  simp only [String.toList_append, List.count_append] at hcount
  have ha : '.' ∉ a.toList := by
    rw [← List.count_eq_zero] at hb hy ⊢
    omega
  exact eq_of_dotted_eq ha hb h

theorem Component.Addressable.focus {τ : Type} {c : Component τ} (h : c.Addressable)
    (place : Lens σ τ) : (c.focus place).Addressable where
  name := h.name
  parts p hp := by
    obtain ⟨q, hq, rfl⟩ := List.mem_map.mp hp
    exact h.parts q hq
  attributes a' ha' := by
    obtain ⟨a, ha, rfl⟩ := Component.of_mem_attributes_focus ha'
    exact h.attributes a ha
  distinct := h.distinct.focus place

theorem diagnostics_addressable : diagnostics.Addressable :=
  ⟨by decide, by decide, by decide, diagnostics_distinct⟩

theorem sharedDiagnostics_requests (m : Memory σ) :
    (sharedDiagnostics.findAttribute? "requests").bind (·.get m) =
      some (.unsigned m.statistics.requests) := rfl

theorem render_unsigned (n : UInt64) : (Value.unsigned n).render = n.toNat.repr := by
  rw [Value.render]

theorem sharedDiagnostics_read (m : Memory σ) :
    sharedDiagnostics.read ["requests"] m =
      [("DIAG.requests", m.statistics.requests.toNat.repr)] := by
  rw [← render_unsigned]
  rfl

namespace Node

variable {node : Node σ} (h : node.ShowsStatistics)
include h

/-- The key of `requests` leads to the diagnostics and to no other component. -/
theorem ShowsStatistics.eq_of_key {c : Component (Memory σ)} (hc : c ∈ node.components)
    {path : String} (hkey : c.name ++ "." ++ path = "DIAG.requests") :
    c = sharedDiagnostics ∧ path = "requests" := by
  have hparts : c.name = "DIAG" ∧ path = "requests" :=
    eq_of_one_dot (by decide) (by decide) hkey
  exact ⟨List.inj_on_of_nodup_map h.unique hc h.shown hparts.1, hparts.2⟩

theorem ShowsStatistics.shown_requests {c : Component (Memory σ)} (hc : c ∈ node.components)
    {path : String} {a : Attribute (Memory σ)} (ha : c.findAttribute? path = some a)
    {m : Memory σ} {v : Value} (hv : a.get m = some v)
    (hkey : c.name ++ "." ++ path = "DIAG.requests") :
    v = .unsigned m.statistics.requests := by
  obtain ⟨rfl, rfl⟩ := h.eq_of_key hc hkey
  have hget := sharedDiagnostics_requests m
  rw [ha, Option.bind_some, hv] at hget
  exact Option.some.inj hget

theorem ShowsStatistics.dump_requests {c : Component (Memory σ)} (hc : c ∈ node.components)
    {m : Memory σ} {e : String × String} (he : e ∈ c.dump m) (hkey : e.1 = "DIAG.requests") :
    e.2 = m.statistics.requests.toNat.repr := by
  obtain ⟨path, a, v, hmem, hv, rfl⟩ := Component.mem_dump he
  have ha : c.findAttribute? path = some a := by
    rw [(h.eq_of_key hc hkey).1] at hmem ⊢
    exact (diagnostics_addressable.focus _).findAttribute?_eq hmem
  rw [h.shown_requests hc ha hv hkey, render_unsigned]

theorem ShowsStatistics.read_requests {c : Component (Memory σ)} (hc : c ∈ node.components)
    {paths : List String} {m : Memory σ} {e : String × String} (he : e ∈ c.read paths m)
    (hkey : e.1 = "DIAG.requests") : e.2 = m.statistics.requests.toNat.repr := by
  obtain ⟨path, a, v, ha, hv, rfl⟩ := Component.mem_read he
  rw [h.shown_requests hc ha hv hkey, render_unsigned]

/-- No call adds an entry under that key, because the diagnostics have no such operation. -/
theorem ShowsStatistics.call_requests {c : Component (Memory σ)} (hc : c ∈ node.components)
    {call : OperationCall} {m : Memory σ} {e : String × String}
    (he : (c.call call m).1 = .ok (some e)) : e.1 ≠ "DIAG.requests" := by
  intro hkey
  obtain ⟨hentry, o, ho⟩ := Component.call_entry he
  obtain ⟨hsame, hmethod⟩ := h.eq_of_key hc (hentry.symm.trans hkey)
  have hnone : ∀ arity, (sharedDiagnostics : Component (Memory σ)).surface.operation? "requests"
      arity = none := fun arity => rfl
  rw [hsame, hmethod, hnone] at ho
  cases ho

theorem ShowsStatistics.accessAttributes_requests {argument : String} {s : NodeState σ}
    {e : String × String} (he : e ∈ (node.accessAttributes argument s).entries)
    (hkey : e.1 = "DIAG.requests") : e.2 = s.memory.statistics.requests.toNat.repr := by
  rw [accessAttributes_eq] at he
  cases hfound : findByName node.components (attributeTarget argument).1 with
  | none =>
    rw [hfound] at he
    cases he
  | some c =>
    have hc : c ∈ node.components := List.mem_of_find?_eq_some hfound
    rw [hfound] at he
    cases hlist : (attributeTarget argument).2 with
    | none =>
      rw [hlist] at he
      exact h.dump_requests hc he hkey
    | some list =>
      rw [hlist] at he
      have hread := h.read_requests hc he hkey
      rw [(h.spares hc).writeAll] at hread
      exact hread

theorem ShowsStatistics.invokeOperation_requests {call : String} {s : NodeState σ}
    {e : String × String} (he : e ∈ (node.invokeOperation call s).entries) :
    e.1 ≠ "DIAG.requests" := by
  rcases node.invokeOperation_cases call s with ⟨e', hcall⟩ | ⟨c, hc, parsed, -, -, hcall⟩
  · rw [hcall] at he
    cases he
  · rw [hcall] at he
    rcases hresult : c.call parsed s.memory with ⟨e' | entry?, memory⟩
    · rw [hresult] at he
      cases he
    · rw [hresult] at he
      have hentry : entry? = some e := Option.mem_toList.mp he
      exact h.call_requests hc (by rw [hresult, hentry])

/-- Whichever verb shows the number of requests, it shows the recorded one. -/
theorem ShowsStatistics.runVerb_requests {command : String} {verb : Verb}
    (hverb : Verb.ofToken? command = some verb) {s : NodeState σ} {e : String × String}
    (he : e ∈ (node.runVerb command verb s).entries) (hkey : e.1 = "DIAG.requests") :
    e.2 = s.memory.statistics.requests.toNat.repr := by
  -- reports and switches stand under their own commands, which have a verb
  have hcommand : e.1 ≠ command := by
    intro heq
    have hnone : Verb.ofToken? "DIAG.requests" = none := by decide
    rw [← hkey, heq, hverb] at hnone
    cases hnone
  cases verb with
  | attributes argument? =>
    cases argument? with
    | none =>
      obtain ⟨c, hc, hdump⟩ := List.mem_flatMap.mp he
      exact h.dump_requests hc hdump hkey
    | some argument => exact h.accessAttributes_requests he hkey
  | resetStatistics => cases he
  | listOperations className? =>
    simp only [Node.runVerb] at he
    split at he
    · have hops : e.1 = "ops" := congrArg Prod.fst (List.mem_singleton.mp he)
      rw [hops] at hkey
      exact absurd hkey (by decide)
    · cases he
  | invoke call? =>
    cases call? with
    | none => cases he
    | some call => exact absurd hkey (h.invokeOperation_requests he)
  | threads argument? =>
    simp only [Node.runVerb] at he
    split at he
    · exact absurd (congrArg Prod.fst (List.mem_singleton.mp he)) hcommand
    · cases he
  | toggle kind enabled => exact absurd (congrArg Prod.fst (List.mem_singleton.mp he)) hcommand

/-- Whichever command shows `DIAG.requests` shows the present number of requests. -/
theorem ShowsStatistics.dispatch_requests {token : String} {s : NodeState σ}
    {e : String × String} (he : e ∈ (node.dispatch token s).entries)
    (hkey : e.1 = "DIAG.requests") : e.2 = s.memory.statistics.requests.toNat.repr := by
  rw [dispatch_eq] at he
  rcases hcommand : node.commandOf? token with _ | ⟨command, verb⟩
  · rw [hcommand] at he
    cases he
  · rw [hcommand] at he
    exact h.runVerb_requests (verb_of_commandOf? hcommand) he hkey

end Node

end NodeProbe
