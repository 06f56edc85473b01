import NodeProbe.Monitoring
import NodeProbe.Text.Cut

/-!
# Verbs

A command is a verb, most of them with an argument after an equals sign. The verbs are
tried in a fixed order; a token that none of them claims may still be a command on a
component.
-/
namespace NodeProbe

inductive Verb where
  /-- Reads or writes attributes: of all components, or as the argument says. -/
  | attributes (argument : Option String)
  /-- Resets the statistics of every component. -/
  | resetStatistics
  /-- Lists operations: of all components, or of a class. -/
  | listOperations (className : Option String)
  /-- Invokes an operation. -/
  | invoke (call : Option String)
  /-- Reports the threads. -/
  | threads (query : Option String)
  /-- Switches a kind of monitoring. -/
  | toggle (kind : MonitoringKind) (enabled : Bool)
deriving DecidableEq, Repr

namespace Verb

/-- The argument of a token with the given verb: nothing for the bare verb, or the text
after an equals sign. Any other token is not of that verb. -/
def argument? (token verb : String) : Option (Option String) :=
  match Text.dropLeading verb.toList token.toList with
  | some [] => some none
  | some ('=' :: rest) => some (some (.ofList rest))
  | _ => none

def startsWith (token lead : String) : Bool := (token.dropLeading? lead).isSome

/-- The switch that a token asks for. Contention may be spelled out to any length. -/
def toggle? (token : String) : Option (MonitoringKind × Bool) :=
  if token = "enable-cpu" then some (.cpu, true)
  else if token = "disable-cpu" then some (.cpu, false)
  else if startsWith token "enable-cont" then some (.contention, true)
  else if startsWith token "disable-cont" then some (.contention, false)
  else none

/-- The verb of a token, the first that claims it. -/
def ofToken? (token : String) : Option Verb :=
  ((argument? token "jmx").map attributes).or <|
  (if token = "reset-stats" then some resetStatistics else none).or <|
  ((argument? token "ops").map listOperations).or <|
  (((argument? token "op").or (argument? token "invoke")).map invoke).or <|
  ((argument? token "threads").map threads).or <|
  (toggle? token).map fun (kind, enabled) => toggle kind enabled

end Verb

def supportedKeys : List String :=
  ["reset-stats", "jmx", "op=<operation>[<args>]", "ops", "threads[=<filter>[=<limit>]]",
    "enable-cpu", "enable-contention", "disable-cpu", "disable-contention"]

end NodeProbe
