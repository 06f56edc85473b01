import NodeProbe.Component.Counter
import NodeProbe.Component.Diagnostics
import NodeProbe.Config
import NodeProbe.Service
import NodeProbe.Thread.TaskDirectory

/-!
# The command line

The program runs a batch of commands against a node with the diagnostics and the counter
component, through a handler, and prints the result as lines or as a JSON object.
-/
namespace NodeProbe.CommandLine

structure Invocation where
  config : Option String := none
  json : Bool := false
  commands : List String := []
deriving DecidableEq, Repr

structure Outcome where
  code : UInt8 := 0
  output : String := ""
  /-- What it tells the user apart from its output. -/
  complaint : String := ""
deriving DecidableEq, Repr

def usageError : Outcome where
  code := 2
  complaint := "error: invalid arguments\n\nUsage: stack-probe [OPTIONS] [COMMANDS]...\n\n" ++
    "For more information, try '--help'.\n"

def runError (reason : String) : Outcome where
  code := 1
  complaint := "Error: " ++ reason ++ "\n"

/-- The program cannot go on: its log file cannot be opened. -/
def crash : Outcome where
  code := 101
  complaint := "Error: cannot open the log file\n"

def help : String :=
  "Run diagnostic probe commands against a component stack\n\n" ++
  "Usage: stack-probe [OPTIONS] [COMMANDS]...\n\n" ++
  "Arguments:\n" ++
  "  [COMMANDS]...  Probe commands, e.g. \x60jmx\x60, \x60ops\x60, \x60threads=cpu=10\x60, " ++
  "\x60op=Counter.add[5]\x60\n\n" ++
  "Options:\n" ++
  "      --config <CONFIG>  Config file (defaults to the platform config directory)\n" ++
  "      --json             Print the result map as JSON\n" ++
  "  -h, --help             Print help\n" ++
  "  -V, --version          Print version\n"

def version : String := "stack-probe 0.1.0\n"

/-- Reads the arguments behind those already read. An option is given once, a configuration
file is not empty, and everything behind `--` is a command. -/
def readArguments (inv : Invocation) : List String → Except Outcome Invocation
  | [] => .ok inv
  | "--" :: commands => .ok { inv with commands := inv.commands ++ commands }
  | "--json" :: rest =>
    if inv.json then .error usageError else readArguments { inv with json := true } rest
  | "--help" :: _ => .error { output := help }
  | "--version" :: _ => .error { output := version }
  | "--config" :: path :: rest =>
    if inv.config.isSome || path.isEmpty || (path ≠ "-" && (path.dropLeading? "-").isSome) then
      .error usageError
    else readArguments { inv with config := some path } rest
  | arg :: rest =>
    match arg.dropLeading? "--config=" with
    | some path =>
      if inv.config.isSome || path.isEmpty then .error usageError
      else readArguments { inv with config := some path } rest
    | none =>
      match arg.toList with
      | ['-'] => readArguments { inv with commands := inv.commands ++ [arg] } rest
      | '-' :: 'h' :: _ => .error { output := help }
      | '-' :: 'V' :: _ => .error { output := version }
      | '-' :: _ => .error usageError
      | _ => readArguments { inv with commands := inv.commands ++ [arg] } rest

def Invocation.read (args : List String) : Except Outcome Invocation := readArguments {} args

def jsonChar (c : Char) : List Char :=
  match c with
  | '"' => ['\\', '"']
  | '\\' => ['\\', '\\']
  | '\x08' => ['\\', 'b']
  | '\t' => ['\\', 't']
  | '\n' => ['\\', 'n']
  | '\x0c' => ['\\', 'f']
  | '\r' => ['\\', 'r']
  | c =>
    if c < ' ' then
      let digits := Nat.toDigits 16 c.toNat
      '\\' :: 'u' :: List.replicate (4 - digits.length) '0' ++ digits
    else [c]

def jsonString (s : String) : String := .ofList ('"' :: s.toList.flatMap jsonChar ++ ['"'])

/-- Entries as a JSON object with a line per entry. -/
def jsonObject (entries : Entries) : String :=
  if entries.toList.isEmpty then "\x7b\x7d"
  else
    let rows := entries.toList.map fun (key, value) => "  " ++ jsonString key ++ ": " ++ jsonString value
    "\x7b\n" ++ ",\n".intercalate rows ++ "\n\x7d"

/-- A log file: the directory that holds it, and its name there. -/
structure LogFile where
  directory : String
  name : String
deriving DecidableEq, Repr

/-- The log file of a configuration, if it asks for one. The path has to end in a name. -/
def logFile? (config : LoggingConfig) : Except Failure (Option LogFile) :=
  match config.file with
  | none => .ok none
  | some path =>
    match Path.fileName? path with
    | some name => .ok (some ⟨Path.directory path, name⟩)
    | none => .error (.config ("Log file " ++ Text.quoted path ++ " has no file name"))

/-- The node of the program: diagnostics first, then a counter. -/
def node (config : Config) (threads : ThreadSource) : Node Counter.State where
  components := [diagnostics.focus Memory.statisticsPlace, counter.focus Memory.storePlace]
  threads := threads
  layout := config.threads

def initialState (config : Config) : NodeState Counter.State where
  memory := { store := {} }
  flags := config.monitoring.flags

def commandHelp : String :=
  "Supported commands:\n" ++ String.join (supportedKeys.map fun key => "  " ++ key ++ "\n")

def render (json : Bool) (entries : Entries) : String :=
  if json then jsonObject entries ++ "\n"
  else String.join (entries.toList.map fun (key, value) => key ++ "=" ++ value ++ "\n")

/-- Starts a handler, sends the batch and shuts the handler down. How long the batch takes
does not matter, because nothing is asked after it. -/
def requestOnce (config : Config) (threads : ThreadSource) (commands : List String)
    (channels : Channels := Channels.queues) : Response :=
  let service : Service Counter.State channels :=
    { node := node config threads, state := initialState config }
  (service.start.request commands 0).1

def execute (config : Config) (threads : ThreadSource) (inv : Invocation) : Outcome :=
  if inv.commands.isEmpty then { output := commandHelp }
  else match requestOnce config threads inv.commands with
    | .entries result => { output := render inv.json result }
    | .failed e => runError e.message
    | .pending => runError requestDropped.message

/-- What the program learns from its surroundings. -/
structure Surroundings (m : Type → Type) where
  /-- The text of a file, absent when it cannot be read. -/
  fileText? : String → m (Option String)
  /-- The threads listed under a path. -/
  threadsAt : String → m ThreadSource
  /-- Opens a log file for appending, and creates it if it is missing; tells whether it
  could be opened. -/
  openLog : LogFile → m Bool
  /-- The path of the configuration when none is named. -/
  defaultPath : Option String := none

section

variable {m : Type → Type} [Monad m]

/-- The configuration of an invocation. Only a file that was asked for has to be good. -/
def configOf (around : Surroundings m) (inv : Invocation) : m (Except Failure Config) := do
  match inv.config, around.defaultPath with
  | some path, _ => return Config.load path (← around.fileText? path)
  | none, some path => return .ok (Config.loadOrDefault path (← around.fileText? path))
  | none, none => return .ok {}

/-- Runs the program with a configuration. The log is opened before anything else is
done. -/
def runWith (around : Surroundings m) (inv : Invocation) (config : Config) : m Outcome := do
  match logFile? config.logging with
  | .error e => return runError e.message
  | .ok file? =>
    let isOpen ← match file? with
      | none => pure true
      | some file => around.openLog file
    if isOpen then return execute config (← around.threadsAt config.monitoring.taskRoot) inv
    else return crash

def run (around : Surroundings m) (args : List String) : m Outcome := do
  match Invocation.read args with
  | .error outcome => return outcome
  | .ok inv =>
    match ← configOf around inv with
    | .error e => return runError e.message
    | .ok config => runWith around inv config

end

/-- The surroundings that a file tree makes. No configuration is found unless it is named. -/
def Surroundings.ofTree : Surroundings (StateM FileTree) where
  fileText? path := return (← get).text? path
  threadsAt path := return .ofTasks (TaskEntry.listed (← get) path)
  openLog file := modifyGet fun files =>
    match files.openToAppend? file.directory file.name with
    | some files => (true, files)
    | none => (false, files)

end NodeProbe.CommandLine
