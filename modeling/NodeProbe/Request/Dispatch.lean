import NodeProbe.Request.Attributes
import NodeProbe.Request.Entries
import NodeProbe.Request.Operations
import NodeProbe.Request.Statistics
import NodeProbe.Request.Verb
import NodeProbe.Thread.Report

/-!
# Dispatching commands

A node routes every command of a batch to its handler. A handler can only add entries to
the result, never look at it; a command that fails is logged and skipped, and the rest of
the batch still runs. When a batch is done its counts and its time enter the statistics.
-/
namespace NodeProbe

inductive LogLevel where
  | warn | error
deriving DecidableEq, Repr

structure LogEvent where
  level : LogLevel
  text : String
deriving DecidableEq, Repr

/-- What the components of a node can reach: the statistics of the node and a store of
their own. -/
structure Memory (σ : Type) where
  statistics : Statistics := .fresh
  store : σ

namespace Memory

variable {σ : Type}

def statisticsPlace : Lens (Memory σ) Statistics where
  get m := m.statistics
  put statistics m := { m with statistics }

def storePlace : Lens (Memory σ) σ where
  get m := m.store
  put store m := { m with store }

end Memory

/-- A node: its components, the source of its threads and the layout of its reports. -/
structure Node (σ : Type) where
  components : List (Component (Memory σ))
  threads : ThreadSource
  layout : ReportLayout := {}

/-- Everything that commands can change. -/
structure NodeState (σ : Type) where
  memory : Memory σ
  flags : MonitoringFlags := {}

/-- The outcome of one command: the state it leaves, the entries it adds, the lines it
logs, and whether it failed. -/
structure Reply (σ : Type) where
  state : NodeState σ
  entries : List (String × String) := []
  log : List LogEvent := []
  failure : Option Failure := none

namespace Reply

variable {σ : Type}

def ofEntries (s : NodeState σ) (entries : List (String × String)) : Reply σ :=
  { state := s, entries }

def ofFailure (s : NodeState σ) (e : Failure) : Reply σ := { state := s, failure := some e }

end Reply

namespace Node

variable {σ : Type}

/-- Reads and writes attributes as the argument of the command says. The writes of a list
come before its reads, and a failed write is only logged. -/
def accessAttributes (node : Node σ) (argument : String) (s : NodeState σ) : Reply σ :=
  let (name, list?) := match argument.cut? '.' with
    | some (name, list) => (name, some list)
    | none => (argument, none)
  match findByName node.components name with
  | none => .ofFailure s (.componentNotFound name)
  | some c =>
    match list? with
    | none => .ofEntries s (c.dump s.memory)
    | some list =>
      let items := AttributeItem.ofList list
      let (failures, memory) := c.writeAll (items.filterMap (·.writeOf?)) s.memory
      { state := { s with memory }
        entries := c.read (items.filterMap (·.readName?)) memory
        log := failures.map fun e => ⟨.error, c.name ++ ": failed writing: " ++ e.message⟩ }

/-- Lists operations: of all components, or of a class whose name is trimmed first. -/
def listOperations (node : Node σ) (className? : Option String) : Except Failure String :=
  match className? with
  | none => .ok (listAll node.components)
  | some className => listClass node.components className.trimBlanks

/-- Invokes an operation; a failing body keeps whatever state it leaves. -/
def invokeOperation (node : Node σ) (call : String) (s : NodeState σ) : Reply σ :=
  match invoke node.components call s.memory with
  | (.ok entry?, memory) => { state := { s with memory }, entries := entry?.toList }
  | (.error e, memory) => { state := { s with memory }, failure := some e }

def threadReport (node : Node σ) (query : ThreadQuery) (s : NodeState σ) : String :=
  node.threads.report s.flags query node.layout

/-- Switches a kind of monitoring if the platform can measure it, and tells the outcome. -/
def toggle (node : Node σ) (kind : MonitoringKind) (enabled : Bool) (s : NodeState σ) :
    String × List LogEvent × NodeState σ :=
  let supported := node.threads.supports kind
  let flags := if supported then s.flags.set kind enabled else s.flags
  let unsupported := Failure.unsupportedPlatformCapability (kind.text ++ " monitoring")
  let log := if supported then [] else [⟨.warn, unsupported.message⟩]
  let text := kind.text ++ " monitoring supported: " ++ toString supported ++ ", " ++ kind.text ++
    " monitoring enabled: " ++ toString (supported && flags.isEnabled kind)
  (text, log, { s with flags })

def resetAll (node : Node σ) (s : NodeState σ) : NodeState σ :=
  { s with memory := node.components.foldl (fun m c => c.reset m) s.memory }

/-- Carries out a verb. Reports and switches stand under the token itself. -/
def runVerb (node : Node σ) (token : String) (verb : Verb) (s : NodeState σ) : Reply σ :=
  match verb with
  | .attributes none => .ofEntries s (dumpAll node.components s.memory)
  | .attributes (some argument) => node.accessAttributes argument s
  | .resetStatistics => { state := node.resetAll s }
  | .listOperations className? =>
    match node.listOperations className? with
    | .ok listing => .ofEntries s [("ops", listing)]
    | .error e => .ofFailure s e
  | .invoke none => .ofFailure s (.malformedCommand token "missing operation")
  | .invoke (some call) => node.invokeOperation call s
  | .threads argument =>
    match ThreadQuery.read argument with
    | .ok query => .ofEntries s [(token, node.threadReport query s)]
    | .error e => .ofFailure s e
  | .toggle kind enabled =>
    let (text, log, s') := node.toggle kind enabled s
    { state := s', entries := [(token, text)], log }

/-- Whether a text has an opening bracket and a closing one behind it. -/
def hasBrackets (rest : List Char) : Bool :=
  match Text.cut '[' rest with
  | some (_, behind) => ']' ∈ behind
  | none => false

/-- The text before the first dot of a token and the text behind it. -/
def splitToken (token : String) : String × String := (token.cut? '.').getD (token, "")

/-- The command that a token without a verb stands for when its first part names a
component: a call if brackets follow, or else an access to attributes. -/
def componentCommand? (node : Node σ) (token : String) : Option String :=
  let (name, rest) := splitToken token
  (findByName node.components name).map fun _ =>
    if hasBrackets rest.toList then "op=" ++ token else "jmx=" ++ token

/-- Routes a command. A token that names neither a verb nor a component does nothing. -/
def dispatch (node : Node σ) (token : String) (s : NodeState σ) : Reply σ :=
  match Verb.ofToken? token with
  | some verb => node.runVerb token verb s
  | none =>
    match node.componentCommand? token with
    | none => { state := s }
    | some command =>
      match Verb.ofToken? command with
      | some verb => node.runVerb command verb s
      | none => { state := s }

def failureEvent (token : String) (e : Failure) : LogEvent where
  level := match e with
    | .componentNotFound _ => .warn
    | _ => .error
  text := token ++ ": " ++ e.message

structure Batch (σ : Type) where
  state : NodeState σ
  entries : Entries := .empty
  handled : UInt64 := 0
  failed : UInt64 := 0
  log : List LogEvent := []

def step (node : Node σ) (batch : Batch σ) (token : String) : Batch σ :=
  let reply := node.dispatch token batch.state
  let batch := { batch with
    state := reply.state
    entries := batch.entries.insertAll reply.entries
    log := batch.log ++ reply.log }
  match reply.failure with
  | none => { batch with handled := batch.handled + 1 }
  | some e => { batch with failed := batch.failed + 1, log := batch.log ++ [failureEvent token e] }

def runBatch (node : Node σ) (commands : List String) (s : NodeState σ) : Batch σ :=
  commands.foldl node.step { state := s }

/-- Runs a batch that takes the given time and records it in the statistics. -/
def handle (node : Node σ) (micros : UInt64) (commands : List String) (s : NodeState σ) : Batch σ :=
  let batch := node.runBatch commands s
  let memory := batch.state.memory
  let statistics := memory.statistics.record micros batch.handled batch.failed
  { batch with state := { batch.state with memory := { memory with statistics } } }

def inspect (node : Node σ) (s : NodeState σ) : String :=
  "ProbeDispatcher \x7b components: " ++ node.components.length.repr ++ ", flags: " ++
    s.flags.inspect ++ ", report: " ++ node.layout.inspect ++ " \x7d"

end Node

end NodeProbe
