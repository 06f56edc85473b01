import NodeProbe.Proofs.Moves

/-!
# Runs of a node

A token is carried out as one command, its own or the one it stands for. A run is a list
of finished batches and the tokens of a batch under way, so its state is the state after
an arbitrary token.
-/
namespace NodeProbe.Node

variable {σ : Type}

/-- The command that is carried out for a token, and its verb: the token itself, or what it
stands for when it has no verb and names a component. -/
def commandOf? (node : Node σ) (token : String) : Option (String × Verb) :=
  match Verb.ofToken? token with
  | some verb => some (token, verb)
  | none => (node.componentCommand? token).bind fun command =>
    (Verb.ofToken? command).map (command, ·)

/-- A token is carried out as the verb of the command that it stands for. -/
theorem dispatch_eq (node : Node σ) (token : String) (s : NodeState σ) :
    node.dispatch token s = match node.commandOf? token with
      | some (command, verb) => node.runVerb command verb s
      | none => { state := s } := by
  unfold dispatch commandOf?
  cases Verb.ofToken? token with
  | some verb => rfl
  | none =>
    cases node.componentCommand? token with
    | none => rfl
    | some command => cases hverb : Verb.ofToken? command <;> simp [hverb]

/-- The component that an attribute command names, and the list of items behind its dot. -/
def attributeTarget (argument : String) : String × Option String :=
  match argument.cut? '.' with
  | some (name, list) => (name, some list)
  | none => (argument, none)

def accessComponent (c : Component (Memory σ)) (list? : Option String) (s : NodeState σ) :
    Reply σ :=
  match list? with
  | none => .ofEntries s (c.dump s.memory)
  | some list =>
    let items := AttributeItem.ofList list
    let (failures, memory) := c.writeAll (items.filterMap (·.writeOf?)) s.memory
    { state := { s with memory }
      entries := c.read (items.filterMap (·.readName?)) memory
      log := failures.map fun e => ⟨.error, c.name ++ ": failed writing: " ++ e.message⟩ }

theorem accessAttributes_eq (node : Node σ) (argument : String) (s : NodeState σ) :
    node.accessAttributes argument s =
      match findByName node.components (attributeTarget argument).1 with
      | none => .ofFailure s (.componentNotFound (attributeTarget argument).1)
      | some c => accessComponent c (attributeTarget argument).2 s := by
  unfold accessAttributes attributeTarget
  cases argument.cut? '.' <;> rfl

theorem callTarget?_mem {components : List (Component σ)} {name : String} {c : Component σ}
    (h : callTarget? components name = some c) : c ∈ components := by
  rcases Option.or_eq_some_iff.mp h with hclass | ⟨-, hname⟩
  · exact List.mem_of_find?_eq_some hclass
  · exact List.mem_of_find?_eq_some hname

/-- An invocation fails before it reaches a component, or it is a call of a component. -/
theorem invokeOperation_cases (node : Node σ) (call : String) (s : NodeState σ) :
    (∃ e, node.invokeOperation call s = .ofFailure s e) ∨
      ∃ c ∈ node.components, ∃ parsed, OperationCall.read call = .ok parsed ∧
        callTarget? node.components parsed.component = some c ∧
        node.invokeOperation call s = match c.call parsed s.memory with
          | (.ok entry?, memory) => { state := { s with memory }, entries := entry?.toList }
          | (.error e, memory) => { state := { s with memory }, failure := some e } := by
  unfold invokeOperation invoke
  cases hread : OperationCall.read call with
  | error e => exact .inl ⟨e, rfl⟩
  | ok parsed =>
    dsimp only
    cases htarget : callTarget? node.components parsed.component with
    | none => exact .inl ⟨_, rfl⟩
    | some c => exact .inr ⟨c, callTarget?_mem htarget, parsed, rfl, htarget, rfl⟩

theorem resetAll_moves (node : Node σ) (s : NodeState σ) :
    Moves node.components s.memory (node.resetAll s).memory := by
  suffices h : ∀ components ⊆ node.components, ∀ m,
      Moves node.components m (components.foldl (fun m c => c.reset m) m) from
    h _ (List.Subset.refl _) _
  intro components
  induction components with
  | nil => intro _ m; exact .refl _ _
  | cons c components ih =>
    intro hsub m
    rw [List.cons_subset] at hsub
    have hreset : c.Does m (c.reset m) := ⟨.reset, trivial, trivial, rfl⟩
    exact (Moves.of_mem hsub.1 (.of_does hreset)).trans (ih hsub.2 _)

theorem accessComponent_moves (c : Component (Memory σ)) (list? : Option String)
    (s : NodeState σ) : Moves [c] s.memory (accessComponent c list? s).state.memory := by
  cases list? with
  | none => exact .refl _ _
  | some list => exact c.writeAll_moves _ _

theorem accessAttributes_moves (node : Node σ) (argument : String) (s : NodeState σ) :
    Moves node.components s.memory (node.accessAttributes argument s).state.memory := by
  rw [accessAttributes_eq]
  cases hfound : findByName node.components (attributeTarget argument).1 with
  | none => exact .refl _ _
  | some c => exact .of_mem (List.mem_of_find?_eq_some hfound) (accessComponent_moves c _ s)

theorem invokeOperation_moves (node : Node σ) (call : String) (s : NodeState σ) :
    Moves node.components s.memory (node.invokeOperation call s).state.memory := by
  rcases node.invokeOperation_cases call s with ⟨e, h⟩ | ⟨c, hc, parsed, -, -, h⟩
  · rw [h]; exact .refl _ _
  · have hmoves := Moves.of_mem hc (c.call_moves parsed s.memory)
    rw [h]
    split <;> simp_all

/-- Whatever a verb does to the memory it does through the components. -/
theorem runVerb_moves (node : Node σ) (token : String) (verb : Verb) (s : NodeState σ) :
    Moves node.components s.memory (node.runVerb token verb s).state.memory := by
  cases verb with
  | attributes argument? =>
    cases argument? with
    | none => exact .refl _ _
    | some argument => exact node.accessAttributes_moves argument s
  | resetStatistics => exact node.resetAll_moves s
  | listOperations className? =>
    simp only [runVerb]
    split <;> exact .refl _ _
  | invoke call? =>
    cases call? with
    | none => exact .refl _ _
    | some call => exact node.invokeOperation_moves call s
  | threads argument? =>
    simp only [runVerb]
    split <;> exact .refl _ _
  | toggle kind enabled => exact .refl _ _

theorem dispatch_moves (node : Node σ) (token : String) (s : NodeState σ) :
    Moves node.components s.memory (node.dispatch token s).state.memory := by
  rw [dispatch_eq]
  split
  · exact node.runVerb_moves _ _ s
  · exact .refl _ _

@[simp] theorem step_state (node : Node σ) (batch : Batch σ) (token : String) :
    (node.step batch token).state = (node.dispatch token batch.state).state := by
  unfold step
  dsimp only
  split <;> rfl

@[simp] theorem step_entries (node : Node σ) (batch : Batch σ) (token : String) :
    (node.step batch token).entries =
      batch.entries.insertAll (node.dispatch token batch.state).entries := by
  unfold step
  dsimp only
  split <;> rfl

theorem step_handled (node : Node σ) (batch : Batch σ) (token : String) :
    (node.step batch token).handled =
      batch.handled + if (node.dispatch token batch.state).failure.isNone then 1 else 0 := by
  unfold step
  dsimp only
  cases (node.dispatch token batch.state).failure with
  | none => rfl
  | some e => exact (UInt64.add_zero _).symm

theorem step_failed (node : Node σ) (batch : Batch σ) (token : String) :
    (node.step batch token).failed =
      batch.failed + if (node.dispatch token batch.state).failure.isSome then 1 else 0 := by
  unfold step
  dsimp only
  cases (node.dispatch token batch.state).failure with
  | none => exact (UInt64.add_zero _).symm
  | some e => rfl

def afterBatches (node : Node σ) (batches : List (UInt64 × List String)) (s : NodeState σ) :
    NodeState σ := batches.foldl (fun s batch => (node.handle batch.1 batch.2 s).state) s

/-- The state after a list of batches and some tokens of a batch under way. -/
def afterRun (node : Node σ) (batches : List (UInt64 × List String)) (tokens : List String)
    (s : NodeState σ) : NodeState σ := (node.runBatch tokens (node.afterBatches batches s)).state

/-- What every token preserves, every batch preserves. -/
theorem runBatch_preserves {node : Node σ} {P : NodeState σ → Prop}
    (htoken : ∀ token s, P s → P (node.dispatch token s).state) (tokens : List String)
    {s : NodeState σ} (hs : P s) : P (node.runBatch tokens s).state := by
  suffices h : ∀ batch : Batch σ, P batch.state → P (tokens.foldl node.step batch).state from h _ hs
  induction tokens with
  | nil => intro batch hbatch; exact hbatch
  | cons token tokens ih =>
    intro batch hbatch
    apply ih
    rw [step_state]
    exact htoken token _ hbatch

/-- What every token and every recorded request preserve holds after every token of a run. -/
theorem afterRun_preserves {node : Node σ} {P : NodeState σ → Prop}
    (htoken : ∀ token s, P s → P (node.dispatch token s).state)
    (hrecord : ∀ s statistics, P s → P { s with memory := { s.memory with statistics } })
    (batches : List (UInt64 × List String)) (tokens : List String) {s : NodeState σ} (hs : P s) :
    P (node.afterRun batches tokens s) := by
  apply runBatch_preserves htoken
  unfold afterBatches
  induction batches generalizing s with
  | nil => exact hs
  | cons batch batches ih => exact ih (hrecord _ _ (runBatch_preserves htoken batch.2 hs))

end NodeProbe.Node
