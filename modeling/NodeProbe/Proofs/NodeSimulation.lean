import NodeProbe.Proofs.Runs
import NodeProbe.Proofs.Simulation

/-!
# Nodes that run side by side

Two nodes whose components agree pairwise answer every command alike and keep their
memories related. Commands reach components only through what agreement speaks of, so
there is one case per verb and no look into a table.
-/
namespace NodeProbe

variable {σ τ : Type}

/-- Related memories and the same flags. -/
structure NodeState.Related (R : Memory σ → Memory τ → Prop) (s : NodeState σ)
    (s' : NodeState τ) : Prop where
  memory : R s.memory s'.memory
  flags : s'.flags = s.flags

theorem NodeState.Related.eq {s s' : NodeState σ} (h : s.Related Eq s') : s = s' := by
  obtain ⟨memory, flags⟩ := s
  obtain ⟨memory', flags'⟩ := s'
  obtain ⟨hmemory, hflags⟩ := h
  cases hmemory
  cases hflags
  rfl

/-- Replies that differ at most in their memories, which are related. -/
structure Reply.Agree (R : Memory σ → Memory τ → Prop) (r : Reply σ) (r' : Reply τ) : Prop where
  state : r.state.Related R r'.state
  entries : r'.entries = r.entries
  log : r'.log = r.log
  failure : r'.failure = r.failure

namespace Node

/-- Nodes with the same threads and components that agree pairwise. -/
structure Simulates (R : Memory σ → Memory τ → Prop) (node : Node σ) (node' : Node τ) : Prop where
  components : List.Forall₂ (Component.Simulates R) node.components node'.components
  threads : node'.threads = node.threads
  layout : node'.layout = node.layout

section

variable {R : Memory σ → Memory τ → Prop}

/-- Nothing is found on either side, or components that agree. -/
def FoundAlike (R : Memory σ → Memory τ → Prop) (x : Option (Component (Memory σ)))
    (y : Option (Component (Memory τ))) : Prop :=
  (x = none ∧ y = none) ∨ ∃ c c', x = some c ∧ y = some c' ∧ c.Simulates R c'

section

variable {components : List (Component (Memory σ))} {components' : List (Component (Memory τ))}
  (h : List.Forall₂ (Component.Simulates R) components components')
include h

/-- What agreeing components have in common is the same along the lists. -/
theorem map_alike {α : Type} {f : Component (Memory σ) → α} {g : Component (Memory τ) → α}
    (hfg : ∀ c c', Component.Simulates R c c' → g c' = f c) :
    components'.map g = components.map f := by
  have hmapped : List.Forall₂ (· = ·) (components.map f) (components'.map g) :=
    List.rel_map (fun c c' hc => (hfg c c' hc).symm) h
  rw [List.forall₂_eq_eq_eq] at hmapped
  exact hmapped.symm

theorem find?_alike {p : Component (Memory σ) → Bool} {q : Component (Memory τ) → Bool}
    (hpq : ∀ c c', Component.Simulates R c c' → q c' = p c) :
    FoundAlike R (components.find? p) (components'.find? q) := by
  induction h with
  | nil => exact .inl ⟨rfl, rfl⟩
  | @cons c c' _ _ hc _ ih =>
    rw [List.find?_cons, List.find?_cons, hpq c c' hc]
    cases p c with
    | true => exact .inr ⟨c, c', rfl, rfl, hc⟩
    | false => exact ih

theorem findByName_alike (name : String) :
    FoundAlike R (findByName components name) (findByName components' name) :=
  find?_alike h fun _ _ hc => congrArg (· == name) hc.name

theorem findByClass_alike (className : String) :
    FoundAlike R (findByClass components className) (findByClass components' className) :=
  find?_alike h fun _ _ hc => congrArg (· == className) hc.className

theorem callTarget?_alike (name : String) :
    FoundAlike R (callTarget? components name) (callTarget? components' name) := by
  unfold callTarget?
  rcases findByClass_alike h name with ⟨hnone, hnone'⟩ | ⟨c, c', hfound, hfound', hc⟩
  · rw [hnone, hnone']
    exact findByName_alike h name
  · rw [hfound, hfound']
    exact .inr ⟨c, c', rfl, rfl, hc⟩

end

variable {node : Node σ} {node' : Node τ} (h : node.Simulates R node') {s : NodeState σ}
  {s' : NodeState τ} (hs : s.Related R s')
include h

/-- Agreeing components have the same names, so tokens are routed alike. -/
theorem Simulates.commandOf?_eq (token : String) : node'.commandOf? token = node.commandOf? token := by
  have hcommand : node'.componentCommand? token = node.componentCommand? token := by
    unfold componentCommand?
    dsimp only
    rcases findByName_alike h.components (splitToken token).1 with
      ⟨hnone, hnone'⟩ | ⟨c, c', hfound, hfound', -⟩
    · rw [hnone, hnone']
      rfl
    · rw [hfound, hfound']
      rfl
  unfold commandOf?
  rw [hcommand]

theorem Simulates.listOperations_eq (className? : Option String) :
    node'.listOperations className? = node.listOperations className? := by
  cases className? with
  | none =>
    have hlistings : node'.components.map (·.listing) = node.components.map (·.listing) :=
      map_alike h.components fun _ _ hc => hc.listing
    exact congrArg (fun texts => Except.ok (String.join texts)) hlistings
  | some className =>
    unfold listOperations listClass
    dsimp only
    rcases findByClass_alike h.components className.trimBlanks with
      ⟨hnone, hnone'⟩ | ⟨c, c', hfound, hfound', hc⟩
    · rw [hnone, hnone']
    · rw [hfound, hfound']
      exact congrArg Except.ok hc.listing

include hs

omit h in
theorem accessComponent_agree {c : Component (Memory σ)} {c' : Component (Memory τ)}
    (hc : c.Simulates R c') (list? : Option String) :
    (accessComponent c list? s).Agree R (accessComponent c' list? s') := by
  cases list? with
  | none => exact ⟨hs, hc.dump _ _ hs.memory, rfl, rfl⟩
  | some list =>
    unfold accessComponent
    dsimp only
    obtain ⟨failures, memory, memory', hw, hw', hmemory⟩ :=
      (hc.writeAll ((AttributeItem.ofList list).filterMap (·.writeOf?)) _ _ hs.memory).exists_eq
    rw [hw, hw', hc.name]
    exact ⟨⟨hmemory, hs.flags⟩, hc.read _ _ _ hmemory, rfl, rfl⟩

theorem Simulates.accessAttributes_agree (argument : String) :
    (node.accessAttributes argument s).Agree R (node'.accessAttributes argument s') := by
  rw [accessAttributes_eq, accessAttributes_eq]
  rcases findByName_alike h.components (attributeTarget argument).1 with
    ⟨hnone, hnone'⟩ | ⟨c, c', hfound, hfound', hc⟩
  · rw [hnone, hnone']
    exact ⟨hs, rfl, rfl, rfl⟩
  · rw [hfound, hfound']
    exact accessComponent_agree hs hc _

theorem Simulates.invokeOperation_agree (call : String) :
    (node.invokeOperation call s).Agree R (node'.invokeOperation call s') := by
  unfold invokeOperation invoke
  cases OperationCall.read call with
  | error e => exact ⟨hs, rfl, rfl, rfl⟩
  | ok parsed =>
    dsimp only
    rcases callTarget?_alike h.components parsed.component with
      ⟨hnone, hnone'⟩ | ⟨c, c', hfound, hfound', hc⟩
    · rw [hnone, hnone']
      exact ⟨hs, rfl, rfl, rfl⟩
    · obtain ⟨result, memory, memory', hcall, hcall', hmemory⟩ :=
        (hc.call parsed _ _ hs.memory).exists_eq
      rw [hfound, hfound']
      dsimp only
      rw [hcall, hcall']
      cases result <;> exact ⟨⟨hmemory, hs.flags⟩, rfl, rfl, rfl⟩

theorem Simulates.resetAll_related : (node.resetAll s).Related R (node'.resetAll s') where
  memory := List.rel_foldl (fun m m' hm _ _ hc => hc.reset m m' hm) hs.memory h.components
  flags := hs.flags

/-- The nodes carry out every verb alike. -/
theorem Simulates.runVerb_agree (token : String) (verb : Verb) :
    (node.runVerb token verb s).Agree R (node'.runVerb token verb s') := by
  cases verb with
  | attributes argument? =>
    cases argument? with
    | none =>
      have hdump : dumpAll node'.components s'.memory = dumpAll node.components s.memory := by
        rw [dumpAll, dumpAll, List.flatMap_def, List.flatMap_def,
          map_alike h.components fun _ _ hc => hc.dump _ _ hs.memory]
      exact ⟨hs, hdump, rfl, rfl⟩
    | some argument => exact h.accessAttributes_agree hs argument
  | resetStatistics => exact ⟨h.resetAll_related hs, rfl, rfl, rfl⟩
  | listOperations className? =>
    simp only [runVerb, h.listOperations_eq]
    cases node.listOperations className? <;> exact ⟨hs, rfl, rfl, rfl⟩
  | invoke call? =>
    cases call? with
    | none => exact ⟨hs, rfl, rfl, rfl⟩
    | some call => exact h.invokeOperation_agree hs call
  | threads argument? =>
    simp only [runVerb, threadReport, h.threads, h.layout, hs.flags]
    cases ThreadQuery.read argument? <;> exact ⟨hs, rfl, rfl, rfl⟩
  | toggle kind enabled =>
    -- a switch reads the threads and the flags, which are the same
    simp only [runVerb, toggle, h.threads, hs.flags]
    exact ⟨⟨hs.memory, rfl⟩, rfl, rfl, rfl⟩

/-- Every command gets the same answer from both nodes, and leaves them related. -/
theorem Simulates.dispatch_agree (token : String) :
    (node.dispatch token s).Agree R (node'.dispatch token s') := by
  rw [dispatch_eq, dispatch_eq, h.commandOf?_eq]
  cases node.commandOf? token with
  | none => exact ⟨hs, rfl, rfl, rfl⟩
  | some command => exact h.runVerb_agree hs command.1 command.2

end

end Node

end NodeProbe
