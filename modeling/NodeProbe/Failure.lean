import NodeProbe.Text.Quoted

/-!
# Failures

Everything that can go wrong with a command, a write, a configuration or a request.
A failure carries its cause; `Failure.message` is the wording shown to an operator.
-/
namespace NodeProbe

inductive Failure where
  /-- No component has the class or instance name. -/
  | componentNotFound (name : String)
  /-- No operation has the name and the number of parameters. -/
  | operationNotFound (operation component : String)
  /-- A value or a text does not fit the declared type. -/
  | argumentConversion (value target reason : String)
  /-- Neither a field nor a setter took the write. -/
  | attributeNotWritable (name value reason : String)
  /-- A command does not follow the grammar. -/
  | malformedCommand (command reason : String)
  /-- The platform cannot measure what should be monitored. -/
  | unsupportedPlatformCapability (capability : String)
  /-- Two components of a stack have the same instance name. -/
  | duplicateComponent (name : String)
  /-- Raised by a setter or by the body of an operation. -/
  | operation (text : String)
  /-- A configuration could not be read, written or used. -/
  | config (text : String)
  /-- The handler is gone. -/
  | channel (text : String)
  /-- No reply came in time. -/
  | timeout (text : String)
  /-- Raised by the platform. -/
  | io (text : String)
  /-- A failure and what was being done. -/
  | withContext (context : String) (source : Failure)
deriving DecidableEq, Repr, Inhabited

namespace Failure

def message : Failure → String
  | .componentNotFound name => "Component not found: " ++ name
  | .operationNotFound name component =>
    "Operation " ++ name ++ " not found in " ++ component
  | .argumentConversion value target reason =>
    "Cannot convert " ++ Text.quoted value ++ " to " ++ target ++ ": " ++ reason
  | .attributeNotWritable name value reason =>
    "Failed setting " ++ name ++ " to " ++ value ++ ": " ++ reason
  | .malformedCommand command reason =>
    "Malformed command " ++ Text.quoted command ++ ": " ++ reason
  | .unsupportedPlatformCapability capability =>
    "Unsupported platform capability: " ++ capability
  | .duplicateComponent name => "Duplicate component name: " ++ name
  | .operation text => "Operation failed: " ++ text
  | .config text => "Configuration error: " ++ text
  | .channel text => "Channel error: " ++ text
  | .timeout text => "Timed out: " ++ text
  | .io text => "IO error: " ++ text
  | .withContext context source => context ++ ": " ++ source.message

end Failure

end NodeProbe
