import NodeProbe.Failure
import NodeProbe.Monitoring
import NodeProbe.Thread.Report
import NodeProbe.Toml.Format

/-!
# Configuration

A configuration is kept as a document. Keys and sections that are missing have their defaults,
keys that are unknown are ignored, and a key of the wrong type makes the whole document unusable.
-/
namespace NodeProbe

/-- What is monitored at first, and where the threads are listed. -/
structure MonitoringConfig where
  cpu : Bool := true
  contention : Bool := false
  taskRoot : String := "/proc/self/task"
deriving DecidableEq, Repr, Inhabited

structure LoggingConfig where
  filter : String := "info"
  /-- A file that receives the log as well. -/
  file : Option String := none
deriving DecidableEq, Repr, Inhabited

structure Config where
  nodeName : String := "node"
  threads : ReportLayout := {}
  monitoring : MonitoringConfig := {}
  logging : LoggingConfig := {}
deriving DecidableEq, Repr, Inhabited

def MonitoringConfig.flags (c : MonitoringConfig) : MonitoringFlags := ⟨c.cpu, c.contention⟩

namespace Config

def text? : Datum → Option String
  | .text s => some s
  | _ => none

def flag? : Datum → Option Bool
  | .flag b => some b
  | _ => none

def size? : Datum → Option UInt64
  | .integer n => if 0 ≤ n then some n.toUInt64 else none
  | _ => none

def setting {α : Type} (fields : Datum.Fields) (key : String) (read : Datum → Option α)
    (default : α) : Option α :=
  match fields.lookup key with
  | none => some default
  | some v => read v

def section? {α : Type} (format : DocumentFormat) (keys : List String)
    (read : Datum.Fields → Option α) : Datum → Option α
  | .table fields => read fields
  | v => (format.settings? keys v).bind read

def readThreads (fields : Datum.Fields) : Option ReportLayout := do
  let default : ReportLayout := {}
  let maxNameWidth ← setting fields "max_name_width" size? default.maxNameWidth
  let defaultLimit ← setting fields "default_limit" size? default.defaultLimit
  return { maxNameWidth, defaultLimit }

def readMonitoring (fields : Datum.Fields) : Option MonitoringConfig := do
  let default : MonitoringConfig := {}
  let cpu ← setting fields "cpu" flag? default.cpu
  let contention ← setting fields "contention" flag? default.contention
  let taskRoot ← setting fields "task_root" text? default.taskRoot
  return { cpu, contention, taskRoot }

def readLogging (fields : Datum.Fields) : Option LoggingConfig := do
  let default : LoggingConfig := {}
  let filter ← setting fields "filter" text? default.filter
  let file ← setting fields "file" (fun v => (text? v).map some) default.file
  return { filter, file }

def ofFields (format : DocumentFormat) (fields : Datum.Fields) : Option Config := do
  let default : Config := {}
  let nodeName ← setting fields "node_name" text? default.nodeName
  let threads ← setting fields "threads"
    (section? format ["max_name_width", "default_limit"] readThreads) default.threads
  let monitoring ← setting fields "monitoring"
    (section? format ["cpu", "contention", "task_root"] readMonitoring) default.monitoring
  let logging ← setting fields "logging"
    (section? format ["filter", "file"] readLogging) default.logging
  return { nodeName, threads, monitoring, logging }

def parse (text : String) (format : DocumentFormat := Toml.format) : Option Config :=
  (format.read text).bind (ofFields format)

/-- The document of a configuration has every setting but an absent log file. -/
def document (c : Config) : Document where
  settings := [("node_name", .text c.nodeName)]
  sections := [
    ("threads", [("max_name_width", .size c.threads.maxNameWidth),
      ("default_limit", .size c.threads.defaultLimit)]),
    ("monitoring", [("cpu", .flag c.monitoring.cpu), ("contention", .flag c.monitoring.contention),
      ("task_root", .text c.monitoring.taskRoot)]),
    ("logging", ("filter", .text c.logging.filter) ::
      c.logging.file.toList.map fun file => ("file", .text file))]

def save (c : Config) (format : DocumentFormat := Toml.format) : Except Failure String :=
  match format.write c.document with
  | .ok text => .ok text
  | .error reason => .error (.config ("Failed to serialize config: " ++ reason))

/-- The configuration of a file, whose text is absent when the file cannot be read. -/
def load (path : String) (content : Option String) (format : DocumentFormat := Toml.format) :
    Except Failure Config :=
  match content with
  | none => .error (.config ("Failed to read config file " ++ Text.quoted path))
  | some text =>
    match parse text format with
    | some c => .ok c
    | none => .error (.config ("Failed to parse config file " ++ Text.quoted path))

def loadOrDefault (path : String) (content : Option String)
    (format : DocumentFormat := Toml.format) : Config :=
  (load path content format).toOption.getD {}

end Config

end NodeProbe
