import NodeProbe.CommandLine
import NodeProbe.Component.Assembly
import NodeProbe.Proofs.NodeSimulation
import NodeProbe.Proofs.Paths
import NodeProbe.Proofs.Routing

/-!
# Commands on one component

A command on a component does to the node what it does to a node of that component alone,
and its entries stand under the name of the component. A token without a verb that names a
component is such a command. An access to attributes is one on the named component itself; a
call is sought by class name first, so it is one on the first component whose class has the
name, if there is any.
-/
namespace NodeProbe

variable {σ : Type}

/-! ## Keys -/

namespace Component

/-- The key begins with the name of the component and a dot. -/
def Leads (c : Component σ) (key : String) : Prop := ∃ rest, key = c.name ++ "." ++ rest

theorem mem_dump {c : Component σ} {s : σ} {e : String × String} (h : e ∈ c.dump s) :
    ∃ path a v, (path, a) ∈ c.addressed ∧ a.get s = some v ∧
      e = (c.name ++ "." ++ path, v.render) := by
  rw [dump_eq] at h
  obtain ⟨⟨path, a⟩, hmem, hentry⟩ := List.mem_filterMap.mp h
  obtain ⟨v, hv, he⟩ := Option.map_eq_some_iff.mp hentry
  exact ⟨path, a, v, hmem, hv, he.symm⟩

theorem mem_read {c : Component σ} {names : List String} {s : σ} {e : String × String}
    (h : e ∈ c.read names s) :
    ∃ path a v, c.findAttribute? path = some a ∧ a.get s = some v ∧
      e = (c.name ++ "." ++ path, v.render) := by
  rw [read_eq] at h
  obtain ⟨path, -, hfound⟩ := List.mem_filterMap.mp h
  obtain ⟨a, ha, hentry⟩ := Option.bind_eq_some_iff.mp hfound
  obtain ⟨v, hv, he⟩ := Option.map_eq_some_iff.mp hentry
  exact ⟨path, a, v, ha, hv, he.symm⟩

/-- The entry of a call stands under its method, which the component has. -/
theorem call_entry {c : Component σ} {call : OperationCall} {s : σ} {e : String × String}
    (h : (c.call call s).1 = .ok (some e)) :
    e.1 = c.name ++ "." ++ call.method ∧
      ∃ o, c.surface.operation? call.method call.args.length = some o := by
  rcases c.call_cases call s with ⟨e', hcall⟩ | ⟨o, args, -, -, ho, -, hcall⟩
  · rw [hcall] at h
    cases h
  · rw [hcall] at h
    refine ⟨?_, o, ho⟩
    rcases hrun : o.run args s with ⟨e' | r, s'⟩
    · rw [hrun] at h
      cases h
    · rw [hrun] at h
      obtain ⟨v, -, he⟩ := Option.map_eq_some_iff.mp (Except.ok.inj h)
      rw [← he]

end Component

namespace Node

/-- An access to the attributes of a component shows only keys that begin with its name. -/
theorem accessComponent_leads {c : Component (Memory σ)} {list? : Option String}
    {s : NodeState σ} {e : String × String} (h : e ∈ (accessComponent c list? s).entries) :
    c.Leads e.1 := by
  cases list? with
  | none =>
    obtain ⟨path, -, -, -, -, rfl⟩ := Component.mem_dump h
    exact ⟨path, rfl⟩
  | some list =>
    obtain ⟨path, -, -, -, -, rfl⟩ := Component.mem_read h
    exact ⟨path, rfl⟩

def alone (node : Node σ) (c : Component (Memory σ)) : Node σ := { node with components := [c] }

variable {node : Node σ}

theorem findByName_singleton {c : Component (Memory σ)} {name : String} (h : c.name = name) :
    findByName [c] name = some c := by
  unfold findByName
  rw [List.find?_singleton, if_pos (beq_iff_eq.mpr h)]

theorem callTarget?_singleton {c : Component (Memory σ)} {name : String}
    (h : c.className = name ∨ c.name = name) : callTarget? [c] name = some c := by
  unfold callTarget? findByClass
  rw [List.find?_singleton]
  by_cases hclass : c.className = name
  · rw [if_pos (beq_iff_eq.mpr hclass)]
    rfl
  · rw [if_neg (mt beq_iff_eq.mp hclass)]
    exact findByName_singleton (h.resolve_left hclass)

theorem findByName_name {components : List (Component σ)} {name : String} {c : Component σ}
    (h : findByName components name = some c) : c.name = name := by
  have hfound := List.find?_some h
  exact beq_iff_eq.mp hfound

theorem findByName_eq_none {components : List (Component σ)} {name : String} :
    findByName components name = none ↔ name ∉ components.map (·.name) := by
  unfold findByName
  simp only [List.find?_eq_none, beq_iff_eq, List.mem_map, not_exists, not_and]

theorem callTarget?_named {components : List (Component σ)} {name : String} {c : Component σ}
    (h : callTarget? components name = some c) : c.className = name ∨ c.name = name := by
  rcases Option.or_eq_some_iff.mp h with hclass | ⟨-, hname⟩
  · have hfound := List.find?_some hclass
    exact .inl (beq_iff_eq.mp hfound)
  · exact .inr (findByName_name hname)

/-- Where an instance has the name, the search by class has a second choice. -/
theorem callTarget?_of_findByName {components : List (Component σ)} {name : String}
    {c : Component σ} (h : findByName components name = some c) :
    callTarget? components name = some ((findByClass components name).getD c) := by
  unfold callTarget?
  rw [h]
  cases findByClass components name <;> rfl

theorem attributeTarget_fst (token : String) : (attributeTarget token).1 = (splitToken token).1 := by
  unfold attributeTarget splitToken
  cases token.cut? '.' <;> rfl

theorem accessAttributes_alone {argument : String} {c : Component (Memory σ)}
    (h : findByName node.components (attributeTarget argument).1 = some c) (s : NodeState σ) :
    node.accessAttributes argument s = (node.alone c).accessAttributes argument s := by
  rw [accessAttributes_eq, accessAttributes_eq, h]
  unfold alone
  dsimp only
  rw [findByName_singleton (findByName_name h)]

/-- A call and the routing of its token cut the text at the same dot. -/
theorem read_component {call : String} {parsed : OperationCall}
    (h : OperationCall.read call = .ok parsed) : parsed.component = (splitToken call).1 := by
  unfold OperationCall.read at h
  unfold splitToken String.cut?
  split at h
  · cases h
  · next component rest hcut =>
    have hname : parsed.component = .ofList component := by
      split at h
      · cases h
        rfl
      · split at h
        · cases h
        · cases h
          rfl
    rw [hname, hcut]
    rfl

theorem invokeOperation_alone {call : String} {c : Component (Memory σ)}
    (h : callTarget? node.components (splitToken call).1 = some c) (s : NodeState σ) :
    node.invokeOperation call s = (node.alone c).invokeOperation call s := by
  unfold invokeOperation invoke alone
  cases hread : OperationCall.read call with
  | error e => rfl
  | ok parsed =>
    dsimp only
    rw [read_component hread, h, callTarget?_singleton (callTarget?_named h)]

/-- A call shows its result under the name of the component that has the operation. -/
theorem invokeOperation_leads {call : String} {c : Component (Memory σ)} {s : NodeState σ}
    {e : String × String} (h : e ∈ ((node.alone c).invokeOperation call s).entries) :
    c.Leads e.1 := by
  rcases (node.alone c).invokeOperation_cases call s with ⟨e', hcall⟩ | ⟨d, hd, parsed, -, -, hcall⟩
  · rw [hcall] at h
    cases h
  · rw [List.mem_singleton.mp hd] at hcall
    rw [hcall] at h
    rcases hresult : c.call parsed s.memory with ⟨e' | entry?, memory⟩
    · rw [hresult] at h
      cases h
    · rw [hresult] at h
      have hentry : entry? = some e := Option.mem_toList.mp h
      have hreturned : (c.call parsed s.memory).1 = .ok (some e) := by rw [hresult, hentry]
      exact ⟨parsed.method, (Component.call_entry hreturned).1⟩

theorem alone_simulates {c : Component (Memory σ)} {R : Memory σ → Memory σ → Prop}
    (h : c.Simulates R c) : (node.alone c).Simulates R (node.alone c) where
  components := .cons h .nil
  threads := rfl
  layout := rfl

/-- What a token without a verb acts on when it names the component `c`: a call goes to the
first component whose class has that name, if there is one. -/
def bareTarget (node : Node σ) (c : Component (Memory σ)) (token : String) : Component (Memory σ) :=
  if hasBrackets (splitToken token).2.toList then (findByClass node.components c.name).getD c else c

/-- The command with a verb that the token stands for. -/
def bareCommand (token : String) : String :=
  if hasBrackets (splitToken token).2.toList then "op=" ++ token else "jmx=" ++ token

theorem bareTarget_mem {c : Component (Memory σ)} (hc : c ∈ node.components) (token : String) :
    node.bareTarget c token ∈ node.components := by
  unfold bareTarget
  split
  · cases hclass : findByClass node.components c.name with
    | none => exact hc
    | some d => exact List.mem_of_find?_eq_some hclass
  · exact hc

/-- No other component is taken unless its class has the name of the first. -/
theorem bareTarget_eq {c : Component (Memory σ)} {token : String}
    (h : hasBrackets (splitToken token).2.toList = true →
      ∀ d, findByClass node.components c.name = some d → d = c) : node.bareTarget c token = c := by
  unfold bareTarget
  split
  · next hcall =>
    cases hclass : findByClass node.components c.name with
    | none => rfl
    | some d => exact h hcall d hclass
  · rfl

section

variable {c : Component (Memory σ)} {token : String} (hverb : Verb.ofToken? token = none)
  (hname : findByName node.components (splitToken token).1 = some c)
include hverb hname

/-- A token without a verb does to the node what its command does to its target alone. -/
theorem dispatch_bare (s : NodeState σ) :
    node.dispatch token s = (node.alone (node.bareTarget c token)).dispatch (bareCommand token) s := by
  have hc : c.name = (splitToken token).1 := findByName_name hname
  rw [dispatch_eq, node.commandOf?_of_no_verb hverb, hname]
  unfold bareTarget bareCommand
  by_cases hcall : hasBrackets (splitToken token).2.toList = true
  · simp only [Option.map_some, if_pos hcall]
    rw [dispatch_op, hc]
    exact invokeOperation_alone (callTarget?_of_findByName hname) s
  · simp only [Option.map_some, if_neg hcall]
    rw [dispatch_jmx]
    exact accessAttributes_alone ((attributeTarget_fst token).symm ▸ hname) s

/-- All that a token without a verb shows belongs to the component that it acts on. -/
theorem dispatch_bare_leads {s : NodeState σ} {e : String × String}
    (h : e ∈ (node.dispatch token s).entries) : (node.bareTarget c token).Leads e.1 := by
  rw [dispatch_bare hverb hname] at h
  unfold bareCommand at h
  split at h
  · rw [dispatch_op] at h
    exact invokeOperation_leads h
  · rw [dispatch_jmx, accessAttributes_eq] at h
    split at h
    · cases h
    · next d hd =>
      have htarget : d = node.bareTarget c token :=
        List.mem_singleton.mp (List.mem_of_find?_eq_some hd)
      rw [← htarget]
      exact accessComponent_leads h

end

end Node

/-- A token without a verb that names the component `c` acts on `c` as if the node had no
other component; or, when brackets follow the name, on the first component whose class has
the name of `c`, if there is one. Members of that component alone are consulted and run, its
entries stand under its own name, and no flag changes. -/
theorem bare_command_acts_on_its_target (node : Node σ)
    (hunique : (node.components.map (·.name)).Nodup) {c : Component (Memory σ)}
    (hc : c ∈ node.components) (token : String) (hverb : Verb.ofToken? token = none)
    (hname : (Node.splitToken token).1 = c.name) (s : NodeState σ) :
    let target := node.bareTarget c token
    let reply := node.dispatch token s
    target ∈ node.components ∧
    ((Node.hasBrackets (Node.splitToken token).2.toList = true →
        ∀ d, findByClass node.components c.name = some d → d = c) → target = c) ∧
    reply = (node.alone target).dispatch (Node.bareCommand token) s ∧
    Moves [target] s.memory reply.state.memory ∧
    reply.state.flags = s.flags ∧
    (∀ (R : Memory σ → Memory σ → Prop) (s' : NodeState σ), target.Simulates R target →
      s.Related R s' → reply.Agree R (node.dispatch token s')) ∧
    ∀ e ∈ reply.entries, target.Leads e.1 := by
  intro target reply
  have hfound : findByName node.components (Node.splitToken token).1 = some c := by
    rw [hname]
    exact Node.findByName_of_mem hunique hc
  have halone : ∀ s, node.dispatch token s =
      (node.alone target).dispatch (Node.bareCommand token) s := Node.dispatch_bare hverb hfound
  refine ⟨Node.bareTarget_mem hc token, Node.bareTarget_eq, halone s, ?_, ?_, fun R s' hR hs => ?_,
    fun e he => Node.dispatch_bare_leads hverb hfound he⟩
  · change Moves [target] s.memory (node.dispatch token s).state.memory
    rw [halone]
    exact (node.alone target).dispatch_moves _ s
  · have hflags := node.dispatch_flags token s
    unfold Node.flagsAfter at hflags
    rw [hverb] at hflags
    exact hflags
  · change (node.dispatch token s).Agree R (node.dispatch token s')
    rw [halone, halone]
    exact (Node.alone_simulates hR).dispatch_agree hs _

theorem bare_add_acts_on_counter :
    let node := CommandLine.node {} (.numbered true true [])
    let c := counter.focus Memory.storePlace
    let s := CommandLine.initialState {}
    let reply := node.dispatch "COUNTER.add[4]" s
    (node.components.map (·.name)).Nodup ∧ c ∈ node.components ∧
    Verb.ofToken? "COUNTER.add[4]" = none ∧ (Node.splitToken "COUNTER.add[4]").1 = c.name ∧
    node.bareTarget c "COUNTER.add[4]" = c ∧
    reply = (node.alone c).dispatch "op=COUNTER.add[4]" s ∧
    Moves [c] s.memory reply.state.memory ∧ reply.entries.map (·.1) = ["COUNTER.add"] := by
  intro node c s reply
  have hunique : (node.components.map (·.name)).Nodup := by decide
  have hc : c ∈ node.components := List.mem_cons_of_mem _ List.mem_cons_self
  have hverb : Verb.ofToken? "COUNTER.add[4]" = none := by decide
  have hname : (Node.splitToken "COUNTER.add[4]").1 = c.name := by decide
  have h := bare_command_acts_on_its_target node hunique hc "COUNTER.add[4]" hverb hname s
  have htarget : node.bareTarget c "COUNTER.add[4]" = c := by
    refine h.2.1 fun _ d hd => ?_
    have hnone : findByClass node.components c.name = none := rfl
    rw [hnone] at hd
    cases hd
  dsimp only at h
  rw [htarget] at h
  exact ⟨hunique, hc, hverb, hname, htarget, h.2.2.1, h.2.2.2.1, rfl⟩

/-- Two components with an operation `run` each, which gives a text of its own; the class of
the second has the name of the first. -/
def shadowedPlans : List ComponentPlan :=
  let say (text : String) : Scripted.TableScript :=
    { operations := [{ name := "run", body := .value (.text text) }] }
  [.scripted { name := "X", className := "P", own := say "x" } {},
    .scripted { name := "Y", className := "X", own := say "y" } {}]

/-- A call of `X.run` goes to the component of class `X`, and its entry does not stand under
the component of that name. -/
theorem bare_call_leaves_its_component :
    let node : Node Slots :=
      { components := ComponentPlan.components shadowedPlans, threads := .numbered true true [] }
    let reply := node.dispatch "X.run[]" { memory := ComponentPlan.memory shadowedPlans }
    (node.components.map (·.name)).Nodup ∧ Verb.ofToken? "X.run[]" = none ∧
    reply.entries = [("Y.run", "y")] ∧
    ∃ c ∈ node.components, (Node.splitToken "X.run[]").1 = c.name ∧
      ¬ ∀ e ∈ reply.entries, c.Leads e.1 := by
  have hentries : (Node.dispatch
      { components := ComponentPlan.components shadowedPlans, threads := .numbered true true [] }
      "X.run[]" { memory := ComponentPlan.memory shadowedPlans }).entries =
      [("Y.run", (Value.text "y").render)] := by rfl
  rw [render_text] at hentries
  refine ⟨by decide, by decide, hentries, _, List.mem_cons_self, by decide, fun hleads => ?_⟩
  obtain ⟨rest, hrest⟩ := hleads ("Y.run", "y") (by rw [hentries]; exact List.mem_singleton_self _)
  have hkey : "Y.run" = "X" ++ "." ++ rest := hrest
  have hnone : "Y.run".dropLeading? ("X" ++ ".") = none := by decide
  rw [String.dropLeading?_eq_some.mpr hkey] at hnone
  cases hnone

end NodeProbe
