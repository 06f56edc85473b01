import NodeProbe.Component.Stack
import NodeProbe.Request.Call
import NodeProbe.Value.Conversion

/-!
# Listing and invoking operations

The target of a call is sought by class name first and then by instance name. The
listing shows every operation under the name by which a call reaches it.
-/
namespace NodeProbe

variable {σ : Type}

def callTarget? (components : List (Component σ)) (name : String) : Option (Component σ) :=
  (findByClass components name).or (findByName components name)

def convertArguments (params : List ValueType) (args : List String) : Except Failure (List Value) :=
  (params.zip args).mapM fun (type, raw) => type.convert raw

/-- Runs a call on its component. The entry of a result stands under the instance name. -/
def Component.call (c : Component σ) (call : OperationCall) : Action σ (Option (String × String)) :=
  fun s =>
    match c.surface.operation? call.method call.args.length with
    | none =>
      (.error (.operationNotFound (call.method ++ "[" ++ call.args.length.repr ++ "]") c.name), s)
    | some o =>
      match convertArguments o.params call.args with
      | .error e => (.error e, s)
      | .ok args =>
        let key := c.name ++ "." ++ call.method
        match o.run args s with
        | (.error e, s') => (.error (.withContext key e), s')
        | (.ok result, s') => (.ok (result.map fun v => (key, v.render)), s')

def invoke (components : List (Component σ)) (input : String) : Action σ (Option (String × String)) :=
  fun s =>
    match OperationCall.read input with
    | .error e => (.error e, s)
    | .ok call =>
      match callTarget? components call.component with
      | none => (.error (.componentNotFound call.component), s)
      | some c => c.call call s

/-- The operations of a surface under the names by which calls reach them: the
component's own, then those of its parts. -/
def Surface.listed (surface : Surface σ) : List (String × Operation σ) :=
  surface.own.operations.map (fun o => (o.name, o)) ++
    surface.parts.flatMap fun p => p.table.operations.map fun o => (p.name ++ "." ++ o.name, o)

def Surface.listing (surface : Surface σ) : List String :=
  surface.own.operations.map (fun o => "  " ++ o.signature) ++
    surface.parts.flatMap fun p => p.table.operations.map fun o => "  " ++ p.name ++ "." ++ o.signature

/-- The listing of a component: its class name and a line per operation. -/
def Component.listing (c : Component σ) : String :=
  c.className ++ ":\n" ++ String.join (c.surface.listing.map (· ++ "\n"))

def listAll (components : List (Component σ)) : String :=
  String.join (components.map (·.listing))

def listClass (components : List (Component σ)) (className : String) : Except Failure String :=
  match findByClass components className with
  | some c => .ok c.listing
  | none => .error (.componentNotFound className)

end NodeProbe
