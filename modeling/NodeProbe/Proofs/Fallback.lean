import NodeProbe.Proofs.ComponentCommands
import NodeProbe.Proofs.FailingCommands
import NodeProbe.Proofs.ListText

/-!
# Tokens that are read again

A token without a verb that names a component is read again, as the command it stands for.
That command has a verb, so it is the last one. It finds its component, and a call among
these commands has the brackets that it needs; what is left to fail is the call itself.
-/
namespace NodeProbe

variable {σ : Type}

/-! ## How a call can fail -/

/-- The failures of a call on a component: it has no such operation, an argument does not
convert, or the body of the operation fails. -/
inductive Component.CallFailure (c : Component σ) (call : OperationCall) (s : σ) : Failure → Prop
  | noOperation (h : c.surface.operation? call.method call.args.length = none) :
    CallFailure c call s
      (.operationNotFound (call.method ++ "[" ++ call.args.length.repr ++ "]") c.name)
  | argument {o : Operation σ} (ho : c.surface.operation? call.method call.args.length = some o)
    (raw : List Char) (target : ValueType) (reason : String)
    (h : convertArguments o.params call.args = .error (Conversion.failure raw target reason)) :
    CallFailure c call s (Conversion.failure raw target reason)
  | body {o : Operation σ} (ho : c.surface.operation? call.method call.args.length = some o)
    {args : List Value} (hargs : convertArguments o.params call.args = .ok args)
    {e : Failure} (h : (o.run args s).1 = .error e) :
    CallFailure c call s (.withContext (c.name ++ "." ++ call.method) e)

/-- A call cannot fail in any other way. -/
theorem Component.callFailure_of_error {c : Component σ} {call : OperationCall} {s : σ}
    {e : Failure} (h : (c.call call s).1 = .error e) : c.CallFailure call s e := by
  unfold Component.call at h
  cases ho : c.surface.operation? call.method call.args.length with
  | none =>
    rw [ho] at h
    cases h
    exact .noOperation ho
  | some o =>
    rw [ho] at h
    cases hargs : convertArguments o.params call.args with
    | error e' =>
      simp only [hargs] at h
      cases h
      obtain ⟨-, ⟨type, raw⟩, -, -, -, hraw⟩ := mapM_eq_error_iff.mp hargs
      obtain ⟨text, reason, rfl, -⟩ := Conversion.convert_error hraw
      exact .argument ho text type.innermost reason hargs
    | ok args =>
      simp only [hargs] at h
      rcases hrun : o.run args s with ⟨e' | r, s'⟩
      · rw [hrun] at h
        cases h
        exact .body ho hargs (by rw [hrun])
      · rw [hrun] at h
        cases h

/-- Neither the grammar nor the search for the component is at fault. -/
theorem Component.CallFailure.not_routing {c : Component σ} {call : OperationCall} {s : σ}
    {e : Failure} (h : c.CallFailure call s e) :
    (∀ command reason, e ≠ .malformedCommand command reason) ∧
      ∀ name, e ≠ .componentNotFound name := by
  cases h <;> exact ⟨fun _ _ => Failure.noConfusion, fun _ => Failure.noConfusion⟩

/-! ## Brackets -/

namespace Node

theorem hasBrackets_cons (x : Char) (xs : List Char) :
    hasBrackets (x :: xs) = if x = '[' then decide (']' ∈ xs) else hasBrackets xs := by
  unfold hasBrackets
  by_cases h : x = '['
  · simp [Text.cut, h]
  · cases hcut : Text.cut '[' xs <;> simp [Text.cut, h, hcut]

/-- The test looks behind the first opening bracket, and that is enough: a closing bracket
behind any opening one is behind the first. -/
theorem hasBrackets_iff {rest : List Char} :
    hasBrackets rest = true ↔
      ∃ method inner after, rest = method ++ '[' :: (inner ++ ']' :: after) := by
  constructor
  · intro h
    unfold hasBrackets at h
    cases hcut : Text.cut '[' rest with
    | none =>
      rw [hcut] at h
      cases h
    | some parts =>
      rw [hcut] at h
      obtain ⟨inner, after, hbehind⟩ := List.append_of_mem (of_decide_eq_true h)
      exact ⟨parts.1, inner, after, hbehind ▸ (Text.eq_append_of_cut hcut).1⟩
  · rintro ⟨method, inner, after, rfl⟩
    induction method with
    | nil => simp [hasBrackets_cons]
    | cons x method ih =>
      rw [List.cons_append, hasBrackets_cons]
      by_cases hx : x = '['
      · simp [hx]
      · rw [if_neg hx, ih]

/-- A token with brackets reads as a call of the text before its first dot. -/
theorem read_of_brackets {token : String}
    (h : hasBrackets (splitToken token).2.toList = true) :
    ∃ call, OperationCall.read token = .ok call ∧ call.component = (splitToken token).1 := by
  have hread : ∃ call, OperationCall.read token = .ok call := by
    unfold splitToken String.cut? at h
    unfold OperationCall.read
    cases hdot : Text.cut '.' token.toList with
    | none =>
      rw [hdot] at h
      change hasBrackets "".toList = true at h
      exact absurd h (by decide)
    | some parts =>
      rw [hdot, Option.map_some, Option.getD_some, String.toList_ofList] at h
      unfold hasBrackets at h
      dsimp only
      cases hopen : Text.cut '[' parts.2 with
      | none => exact ⟨_, rfl⟩
      | some inside =>
        rw [hopen] at h
        dsimp only
        -- the parser looks for the closing bracket where the test has found one
        cases hclose : Text.cut ']' inside.2 with
        | none => exact absurd (of_decide_eq_true h) (Text.cut_eq_none.mp hclose)
        | some _ => exact ⟨_, rfl⟩
  obtain ⟨call, hcall⟩ := hread
  exact ⟨call, hcall, read_component hcall⟩

/-! ## Reading again -/

/-- Routing as a recursion on texts: a text with a verb is carried out, one that names a
component is read again as the command it stands for, and any other is left alone. The
number counts how often a text is read again. -/
inductive Routed (node : Node σ) : Nat → String → NodeState σ → Reply σ → Prop
  | verb {text : String} {verb : Verb} {s : NodeState σ} (hverb : Verb.ofToken? text = some verb) :
    Routed node 0 text s (node.runVerb text verb s)
  | unknown {text : String} {s : NodeState σ} (hverb : Verb.ofToken? text = none)
    (hname : node.componentCommand? text = none) : Routed node 0 text s { state := s }
  | again {n : Nat} {text command : String} {s : NodeState σ} {reply : Reply σ}
    (hverb : Verb.ofToken? text = none) (hname : node.componentCommand? text = some command)
    (hrouted : Routed node n command s reply) : Routed node (n + 1) text s reply

variable {node : Node σ}

theorem routed_of_verb {text : String} {verb : Verb} (hverb : Verb.ofToken? text = some verb)
    {n : Nat} {s : NodeState σ} {reply : Reply σ} :
    node.Routed n text s reply ↔ n = 0 ∧ reply = node.dispatch text s := by
  rw [dispatch_of_verb hverb]
  constructor
  · intro h
    cases h with
    | verb hverb' =>
      cases hverb.symm.trans hverb'
      exact ⟨rfl, rfl⟩
    | unknown hnone | again hnone => cases hverb.symm.trans hnone
  · rintro ⟨rfl, rfl⟩
    exact .verb hverb

theorem bareCommand_verb (token : String) :
    Verb.ofToken? (bareCommand token) = some (if hasBrackets (splitToken token).2.toList = true
      then .invoke (some token) else .attributes (some token)) := by
  unfold bareCommand
  split
  · exact Verb.ofToken?_op token
  · exact Verb.ofToken?_jmx token

section

variable {token : String} (hverb : Verb.ofToken? token = none)
include hverb

theorem step_unknown (hname : findByName node.components (splitToken token).1 = none)
    (batch : Batch σ) : node.step batch token = { batch with handled := batch.handled + 1 } := by
  simp only [step, dispatch_unknown hverb hname, List.append_nil]
  rfl

/-- A text that names neither a verb nor a component is routed nowhere. -/
theorem routed_unknown (hname : findByName node.components (splitToken token).1 = none)
    {n : Nat} {s : NodeState σ} {reply : Reply σ} :
    node.Routed n token s reply ↔ n = 0 ∧ reply = node.dispatch token s := by
  have hcommand : node.componentCommand? token = none := by
    unfold componentCommand?
    rw [Option.map_eq_none_iff]
    exact hname
  rw [dispatch_unknown hverb hname]
  constructor
  · intro h
    cases h with
    | verb hsome => cases hverb.symm.trans hsome
    | unknown => exact ⟨rfl, rfl⟩
    | again _ hsome => cases hcommand.symm.trans hsome
  · rintro ⟨rfl, rfl⟩
    exact .unknown hverb hcommand

variable {c : Component (Memory σ)}
  (hname : findByName node.components (splitToken token).1 = some c)
include hname

omit hverb in
theorem componentCommand?_eq : node.componentCommand? token = some (bareCommand token) :=
  Option.map_eq_some_iff.mpr ⟨c, hname, rfl⟩

theorem dispatch_bareCommand (s : NodeState σ) :
    node.dispatch (bareCommand token) s = node.dispatch token s := by
  rw [dispatch_of_verb (bareCommand_verb token)]
  unfold dispatch
  rw [hverb, componentCommand?_eq hname]
  dsimp only
  rw [bareCommand_verb]

/-- What a token is read again as has a verb, so it is read again once. -/
theorem routed_bare {n : Nat} {s : NodeState σ} {reply : Reply σ} :
    node.Routed n token s reply ↔ n = 1 ∧ reply = node.dispatch token s := by
  have hcommand := componentCommand?_eq hname
  have hlast {n : Nat} {reply : Reply σ} : node.Routed n (bareCommand token) s reply ↔
      n = 0 ∧ reply = node.dispatch (bareCommand token) s := routed_of_verb (bareCommand_verb token)
  rw [dispatch_bareCommand hverb hname] at hlast
  constructor
  · intro h
    cases h with
    | verb hsome => cases hverb.symm.trans hsome
    | unknown _ hnone => cases hcommand.symm.trans hnone
    | again _ hsome hrouted =>
      cases hcommand.symm.trans hsome
      obtain ⟨rfl, rfl⟩ := hlast.mp hrouted
      exact ⟨rfl, rfl⟩
  · rintro ⟨rfl, rfl⟩
    exact .again hverb hcommand (hlast.mpr ⟨rfl, rfl⟩)

/-- The component of an access to attributes is found, so the access does not fail. -/
theorem dispatch_bare_access (hbrackets : hasBrackets (splitToken token).2.toList = false)
    (s : NodeState σ) : (node.dispatch token s).failure = none := by
  have hcommand : bareCommand token = "jmx=" ++ token := by
    unfold bareCommand
    rw [hbrackets]
    rfl
  rw [← dispatch_bareCommand hverb hname, hcommand, dispatch_jmx, accessAttributes_eq,
    attributeTarget_fst, hname]
  exact accessComponent_failure c _ s

/-- The component of a call is found, by its class if not by its name, and its call can fail. -/
theorem dispatch_bare_call {call : OperationCall} (hread : OperationCall.read token = .ok call)
    (hbrackets : hasBrackets (splitToken token).2.toList = true) (s : NodeState σ) :
    ∃ d, callTarget? node.components call.component = some d ∧
      ∀ e, (node.dispatch token s).failure = some e → d.CallFailure call s.memory e := by
  have hcommand : bareCommand token = "op=" ++ token := if_pos hbrackets
  have htarget := callTarget?_of_findByName hname
  rw [← read_component hread] at htarget
  refine ⟨_, htarget, fun e he => Component.callFailure_of_error ?_⟩
  rw [← dispatch_bareCommand hverb hname, hcommand, dispatch_op] at he
  unfold invokeOperation invoke at he
  rw [hread] at he
  simp only [htarget] at he
  split at he
  · cases he
  · next hcall =>
    rw [hcall]
    exact congrArg Except.error (Option.some.inj he)

end

end Node

/-- A token without a verb. Without a component of the name before its first dot it does
nothing, and is handled. With one it is read again, once: as a call when brackets follow, as
an access to attributes when they do not. The access does not fail, and of the call only the
operation, its arguments and its body can be at fault. -/
theorem token_without_verb_is_read_again_once (node : Node σ) {token : String}
    (hverb : Verb.ofToken? token = none) (s : NodeState σ) :
    let name := (Node.splitToken token).1
    let command := Node.bareCommand token
    let reply := node.dispatch token s
    let bracketed := ∃ method inner after,
      (Node.splitToken token).2.toList = method ++ '[' :: (inner ++ ']' :: after)
    (name ∉ node.components.map (·.name) →
      (∀ n reply', node.Routed n token s reply' ↔ n = 0 ∧ reply' = reply) ∧
      ∀ batch, node.step batch token = { batch with handled := batch.handled + 1 }) ∧
    (name ∈ node.components.map (·.name) →
      (∀ n reply', node.Routed n token s reply' ↔ n = 1 ∧ reply' = reply) ∧
      (∀ n reply', node.Routed n command s reply' ↔ n = 0 ∧ reply' = reply) ∧
      (¬ bracketed → command = "jmx=" ++ token ∧
        Verb.ofToken? command = some (.attributes (some token)) ∧ reply.failure = none) ∧
      (bracketed → command = "op=" ++ token ∧ Verb.ofToken? command = some (.invoke (some token)) ∧
        ∃ call target, OperationCall.read token = .ok call ∧ call.component = name ∧
          callTarget? node.components name = some target ∧
          ∀ e, reply.failure = some e → target.CallFailure call s.memory e ∧
            (∀ command reason, e ≠ .malformedCommand command reason) ∧
            ∀ name, e ≠ .componentNotFound name)) := by
  intro name command reply bracketed
  have hbracketed : Node.hasBrackets (Node.splitToken token).2.toList = true ↔ bracketed :=
    Node.hasBrackets_iff
  constructor
  · intro hname
    have hnone : findByName node.components name = none := Node.findByName_eq_none.mpr hname
    exact ⟨fun _ _ => Node.routed_unknown hverb hnone, Node.step_unknown hverb hnone⟩
  · intro hname
    obtain ⟨c, hc⟩ : ∃ c, findByName node.components name = some c :=
      Option.ne_none_iff_exists'.mp fun hnone => Node.findByName_eq_none.mp hnone hname
    refine ⟨fun _ _ => Node.routed_bare hverb hc, fun n reply' => ?_, fun hplain => ?_,
      fun hcall => ?_⟩
    · rw [Node.routed_of_verb (Node.bareCommand_verb token), Node.dispatch_bareCommand hverb hc]
    · have hbrackets : Node.hasBrackets (Node.splitToken token).2.toList = false :=
        Bool.eq_false_iff.mpr fun h => hplain (hbracketed.mp h)
      refine ⟨?_, ?_, Node.dispatch_bare_access hverb hc hbrackets s⟩
      · change Node.bareCommand token = _
        unfold Node.bareCommand
        rw [hbrackets]
        rfl
      · change Verb.ofToken? (Node.bareCommand token) = _
        rw [Node.bareCommand_verb, hbrackets]
        rfl
    · have hbrackets := hbracketed.mpr hcall
      obtain ⟨call, hread, hcomponent⟩ := Node.read_of_brackets hbrackets
      obtain ⟨target, htarget, hfailure⟩ := Node.dispatch_bare_call hverb hc hread hbrackets s
      rw [hcomponent] at htarget
      refine ⟨if_pos hbrackets, ?_, call, target, hread, hcomponent, htarget,
        fun e he => ⟨hfailure e he, (hfailure e he).not_routing⟩⟩
      change Verb.ofToken? (Node.bareCommand token) = _
      rw [Node.bareCommand_verb, if_pos hbrackets]

/-- The brackets end at the first closing one, so the argument of this call is `x`. -/
theorem bare_call_fails_on_its_argument :
    let node := CommandLine.node {} (.numbered true true [])
    let s := CommandLine.initialState {}
    let token := "COUNTER.add[x].[y]"
    let reply := node.dispatch token s
    Verb.ofToken? token = none ∧ (∀ n reply', node.Routed n token s reply' ↔ n = 1 ∧ reply' = reply) ∧
    Verb.ofToken? ("op=" ++ token) = some (.invoke (some token)) ∧
    reply.failure = some (Conversion.failure ['x'] .i64 "not an integer") ∧
    OperationCall.read token = .ok ⟨"COUNTER", "add", ["x"]⟩ ∧
    (counter.focus Memory.storePlace).CallFailure ⟨"COUNTER", "add", ["x"]⟩ s.memory
      (Conversion.failure ['x'] .i64 "not an integer") := by
  have hread' : OperationCall.read "COUNTER.add[x].[y]" = .ok ⟨"COUNTER", "add", ["x"]⟩ := by
    decide +kernel
  have hfailed : ((CommandLine.node {} (.numbered true true [])).dispatch "COUNTER.add[x].[y]"
      (CommandLine.initialState {})).failure =
      some (Conversion.failure ['x'] .i64 "not an integer") := by decide +kernel
  intro node s token reply
  have hverb : Verb.ofToken? token = none := by decide
  have hbracketed : (Node.splitToken token).2.toList =
      "add".toList ++ '[' :: (['x'] ++ ']' :: ".[y]".toList) := by decide
  obtain ⟨honce, -, -, hcall⟩ := (token_without_verb_is_read_again_once node hverb s).2 (by decide)
  obtain ⟨hcommand, hagain, call, target, hread, -, htarget, hfailure⟩ :=
    hcall ⟨_, _, _, hbracketed⟩
  have hname : (Node.splitToken token).1 = "COUNTER" := by decide
  rw [hname] at htarget
  cases hread.symm.trans hread'
  cases htarget
  rw [hcommand] at hagain
  exact ⟨hverb, honce, hagain, hfailed, hread', (hfailure _ hfailed).1⟩

end NodeProbe
