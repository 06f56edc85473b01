import NodeProbe.Failure
import NodeProbe.Text.Blank
import NodeProbe.Text.Cut

/-!
# Operation calls

The text of a call is `Component.method[arg1,arg2,...]`. The component ends at the first
dot, the method at the first opening bracket behind it, and the arguments at the next
closing bracket; without brackets, or with nothing but blanks between them, there are no
arguments.
-/
namespace NodeProbe

open Text

/-- A parsed call; the method may name a part of the component. -/
structure OperationCall where
  component : String
  method : String
  /-- The raw arguments, trimmed. -/
  args : List String
deriving DecidableEq, Repr

namespace OperationCall

def splitArguments (inner : List Char) : List String :=
  if (trim inner).isEmpty then [] else (inner.splitOn ',').map fun a => .ofList (trim a)

def read (input : String) : Except Failure OperationCall :=
  match cut '.' input.toList with
  | none => .error (.malformedCommand input "expected Component.method")
  | some (component, rest) =>
    match cut '[' rest with
    | none => .ok ⟨.ofList component, .ofList (trim rest), []⟩
    | some (method, behind) =>
      match cut ']' behind with
      | none => .error (.malformedCommand input "] not found")
      | some (inner, _) => .ok ⟨.ofList component, .ofList (trim method), splitArguments inner⟩

end OperationCall

end NodeProbe
