import NodeProbe.Proofs.AttributeCommands

/-!
# How tokens are routed

A token with a verb is its own command. A token without one that names a component stands
for a call or for an access to attributes, never for anything else. So components are reset
and switches are thrown by the tokens that say so, and by no others.
-/
namespace NodeProbe

variable {σ : Type}

namespace Verb

theorem ofToken?_op (call : String) : ofToken? ("op=" ++ call) = some (.invoke (some call)) := by
  have hchars : ("op=" ++ call).toList = 'o' :: 'p' :: '=' :: call.toList := by
    rw [String.toList_append]
    rfl
  have hargument : argument? ("op=" ++ call) "op" = some (some call) := by
    unfold argument?
    rw [hchars]
    change some (some (String.ofList call.toList)) = _
    rw [String.ofList_toList]
  have hjmx : argument? ("op=" ++ call) "jmx" = none := by
    unfold argument?
    rw [hchars]
    rfl
  have hops : argument? ("op=" ++ call) "ops" = none := by
    unfold argument?
    rw [hchars]
    rfl
  have hreset : "op=" ++ call ≠ "reset-stats" := by
    intro h
    have hletters := congrArg String.toList h
    rw [hchars] at hletters
    cases hletters
  unfold ofToken?
  rw [hjmx, hops, hargument, if_neg hreset]
  rfl

theorem ofToken?_eq_reset {token : String} :
    ofToken? token = some .resetStatistics ↔ token = "reset-stats" := by
  constructor
  · intro h
    unfold ofToken? at h
    simp only [Option.or_eq_some_iff, Option.map_eq_some_iff, reduceCtorEq, and_false, exists_false,
      Option.map_eq_none_iff, false_or, or_false, Option.ite_none_right_eq_some, and_true] at h
    exact h.2
  · rintro rfl
    rfl

end Verb

namespace Node

theorem dispatch_of_verb {node : Node σ} {token : String} {verb : Verb}
    (h : Verb.ofToken? token = some verb) (s : NodeState σ) :
    node.dispatch token s = node.runVerb token verb s := by
  unfold dispatch
  rw [h]

/-- What a token without a verb stands for. -/
theorem commandOf?_of_no_verb (node : Node σ) {token : String} (h : Verb.ofToken? token = none) :
    node.commandOf? token = (findByName node.components (splitToken token).1).map fun _ =>
      if hasBrackets (splitToken token).2.toList then ("op=" ++ token, .invoke (some token))
      else ("jmx=" ++ token, .attributes (some token)) := by
  unfold commandOf? componentCommand?
  rw [h]
  dsimp only
  cases findByName node.components (splitToken token).1 with
  | none => rfl
  | some c =>
    rw [Option.map_some, Option.map_some, Option.bind_some]
    by_cases hbrackets : hasBrackets (splitToken token).2.toList = true
    · rw [if_pos hbrackets, if_pos hbrackets, Verb.ofToken?_op]
      rfl
    · rw [if_neg hbrackets, if_neg hbrackets, Verb.ofToken?_jmx]
      rfl

/-- A command is the token itself with its verb, or a call or an access to attributes that
the token stands for. -/
theorem commandOf?_cases {node : Node σ} {token command : String} {verb : Verb}
    (h : node.commandOf? token = some (command, verb)) :
    (command = token ∧ Verb.ofToken? token = some verb) ∨
      verb = .invoke (some token) ∨ verb = .attributes (some token) := by
  cases hverb : Verb.ofToken? token with
  | some found =>
    unfold commandOf? at h
    rw [hverb] at h
    cases h
    exact .inl ⟨rfl, rfl⟩
  | none =>
    rw [node.commandOf?_of_no_verb hverb] at h
    obtain ⟨-, -, hcommand⟩ := Option.map_eq_some_iff.mp h
    split at hcommand <;> cases hcommand
    · exact .inr (.inl rfl)
    · exact .inr (.inr rfl)

theorem commandOf?_eq_reset {node : Node σ} {token command : String}
    (h : node.commandOf? token = some (command, .resetStatistics)) : token = "reset-stats" := by
  rcases commandOf?_cases h with ⟨-, hverb⟩ | hcall | haccess
  · exact Verb.ofToken?_eq_reset.mp hverb
  · cases hcall
  · cases haccess

theorem verb_of_commandOf? {node : Node σ} {token command : String} {verb : Verb}
    (h : node.commandOf? token = some (command, verb)) : Verb.ofToken? command = some verb := by
  cases hverb : Verb.ofToken? token with
  | some found =>
    unfold commandOf? at h
    rw [hverb] at h
    cases h
    exact hverb
  | none =>
    unfold commandOf? at h
    rw [hverb] at h
    obtain ⟨command', -, hcommand⟩ := Option.bind_eq_some_iff.mp h
    obtain ⟨verb', hverb', heq⟩ := Option.map_eq_some_iff.mp hcommand
    cases heq
    exact hverb'

theorem dispatch_unknown {node : Node σ} {token : String} (hverb : Verb.ofToken? token = none)
    (hname : findByName node.components (splitToken token).1 = none) (s : NodeState σ) :
    node.dispatch token s = { state := s } := by
  rw [dispatch_eq, node.commandOf?_of_no_verb hverb, hname]
  rfl

theorem dispatch_op (node : Node σ) (call : String) (s : NodeState σ) :
    node.dispatch ("op=" ++ call) s = node.invokeOperation call s :=
  dispatch_of_verb (Verb.ofToken?_op call) s

theorem dispatch_reset (node : Node σ) (s : NodeState σ) :
    node.dispatch "reset-stats" s = { state := node.resetAll s } := rfl

/-! ## Flags -/

/-- The flags that a verb leaves: only a switch changes them, and only for what the platform
can measure. -/
def switchedBy (node : Node σ) (flags : MonitoringFlags) : Verb → MonitoringFlags
  | .toggle kind enabled =>
    if node.threads.supports kind then flags.set kind enabled else flags
  | _ => flags

def flagsAfter (node : Node σ) (flags : MonitoringFlags) (token : String) : MonitoringFlags :=
  match Verb.ofToken? token with
  | some verb => node.switchedBy flags verb
  | none => flags

theorem accessAttributes_flags (node : Node σ) (argument : String) (s : NodeState σ) :
    (node.accessAttributes argument s).state.flags = s.flags := by
  rw [accessAttributes_eq]
  cases findByName node.components (attributeTarget argument).1 with
  | none => rfl
  | some c => cases (attributeTarget argument).2 <;> rfl

theorem invokeOperation_flags (node : Node σ) (call : String) (s : NodeState σ) :
    (node.invokeOperation call s).state.flags = s.flags := by
  unfold invokeOperation
  split <;> rfl

theorem runVerb_flags (node : Node σ) (token : String) (verb : Verb) (s : NodeState σ) :
    (node.runVerb token verb s).state.flags = node.switchedBy s.flags verb := by
  cases verb with
  | attributes argument? =>
    cases argument? with
    | none => rfl
    | some argument => exact node.accessAttributes_flags argument s
  | resetStatistics => rfl
  | listOperations className? =>
    simp only [runVerb]
    split <;> rfl
  | invoke call? =>
    cases call? with
    | none => rfl
    | some call => exact node.invokeOperation_flags call s
  | threads argument? =>
    simp only [runVerb]
    split <;> rfl
  | toggle kind enabled => rfl

/-- A token changes the flags by its verb alone, whatever the components do. -/
theorem dispatch_flags (node : Node σ) (token : String) (s : NodeState σ) :
    (node.dispatch token s).state.flags = node.flagsAfter s.flags token := by
  unfold flagsAfter
  cases hverb : Verb.ofToken? token with
  | some verb =>
    rw [dispatch_of_verb hverb]
    exact node.runVerb_flags token verb s
  | none =>
    rw [dispatch_eq, node.commandOf?_of_no_verb hverb]
    cases findByName node.components (splitToken token).1 with
    | none => rfl
    | some c =>
      -- what the token stands for is no switch
      dsimp only [Option.map_some]
      split <;> exact node.runVerb_flags _ _ s

theorem runBatch_flags (node : Node σ) (tokens : List String) (s : NodeState σ) :
    (node.runBatch tokens s).state.flags = tokens.foldl node.flagsAfter s.flags := by
  suffices h : ∀ batch : Batch σ,
      (tokens.foldl node.step batch).state.flags = tokens.foldl node.flagsAfter batch.state.flags from
    h _
  induction tokens with
  | nil => intro batch; rfl
  | cons token tokens ih =>
    intro batch
    rw [List.foldl_cons, List.foldl_cons, ih, step_state, dispatch_flags]

/-- The flags after a run depend on its tokens alone. -/
theorem afterRun_flags (node : Node σ) (batches : List (UInt64 × List String))
    (tokens : List String) (s : NodeState σ) :
    (node.afterRun batches tokens s).flags =
      (batches.flatMap (·.2) ++ tokens).foldl node.flagsAfter s.flags := by
  have hbatches : (node.afterBatches batches s).flags =
      (batches.flatMap (·.2)).foldl node.flagsAfter s.flags := by
    unfold afterBatches
    induction batches generalizing s with
    | nil => rfl
    | cons batch batches ih =>
      have hbatch : (node.handle batch.1 batch.2 s).state.flags =
          batch.2.foldl node.flagsAfter s.flags := node.runBatch_flags batch.2 s
      rw [List.foldl_cons, ih, hbatch, List.flatMap_cons, List.foldl_append]
  unfold afterRun
  rw [runBatch_flags, hbatches, List.foldl_append]

end Node

end NodeProbe
