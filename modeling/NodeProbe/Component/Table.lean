import NodeProbe.Text.Cut
import NodeProbe.Text.UpperCase
import NodeProbe.Value.Basic

/-!
# Tables of attributes and operations

A component declares what can be read, written and invoked in a table over its state
`σ`. Attribute names are unique in a table, the last registration replacing an earlier
one; operations may share a name and are told apart by their number of parameters.
-/
namespace NodeProbe

/-- What a setter or an operation does: a result or a failure, and the state it leaves. -/
def Action (σ α : Type) : Type := σ → Except Failure α × σ

namespace Action

variable {σ α : Type}

/-- An action that changes nothing when it fails. -/
def atomic (step : σ → Except Failure (α × σ)) : Action σ α := fun s =>
  match step s with
  | .ok (a, s') => (.ok a, s')
  | .error e => (.error e, s)

/-- An action whose result is a function of the state, which it keeps. -/
def ask (read : σ → Except Failure α) : Action σ α := fun s => (read s, s)

def map {β : Type} (f : α → β) (act : Action σ α) : Action σ β := fun s =>
  let (result, s') := act s
  (result.map f, s')

end Action

inductive Backing where
  /-- State that is addressed directly. -/
  | field
  /-- A pair of a getter and a setter. -/
  | accessor
deriving DecidableEq, Repr

def Backing.inspect : Backing → String
  | .field => "Field"
  | .accessor => "Accessor"

/-- A named and typed property of a component. -/
structure Attribute (σ : Type) where
  name : String
  type : ValueType
  backing : Backing
  description : Option String := none
  /-- The present value, if the component has one to report. -/
  get : σ → Option Value
  /-- Stores a value that is already converted; absent when the attribute is read-only. -/
  set? : Option (Value → Action σ Unit)

/-- A named action that takes arguments already converted to its parameter types. -/
structure Operation (σ : Type) where
  name : String
  params : List ValueType
  returns : Option ValueType := none
  description : Option String := none
  run : List Value → Action σ (Option Value)

namespace Attribute

variable {σ : Type}

def isWritable (a : Attribute σ) : Bool := a.set?.isSome

/-- Stores a value; false when the attribute is read-only. -/
def store (a : Attribute σ) (v : Value) : Action σ Bool :=
  match a.set? with
  | some set => (set v).map fun _ => true
  | none => fun s => (.ok false, s)

def inspect (a : Attribute σ) : String :=
  "Attribute \x7b name: " ++ Text.quoted a.name ++ ", value_type: " ++ a.type.inspect ++
    ", kind: " ++ a.backing.inspect ++ ", writable: " ++ toString a.isWritable ++ " \x7d"

end Attribute

namespace Operation

variable {σ : Type}

def arity (o : Operation σ) : Nat := o.params.length

/-- The name and the parameter types, as the listing shows them. -/
def signature (o : Operation σ) : String :=
  o.name ++ "(" ++ ",".intercalate (o.params.map ValueType.text) ++ ")"

def inspect (o : Operation σ) : String :=
  let returns := match o.returns with
    | some t => "Some(" ++ t.inspect ++ ")"
    | none => "None"
  "Operation \x7b signature: " ++ Text.quoted o.signature ++ ", returns: " ++ returns ++ " \x7d"

end Operation

/-- The attributes and operations of a component or of one of its parts. -/
structure Table (σ : Type) where
  attributes : List (Attribute σ) := []
  operations : List (Operation σ) := []

/-- What a write to an attribute may be handed to. -/
inductive Setter (σ : Type) where
  | accessor (a : Attribute σ)
  /-- An operation and the type of its one parameter. -/
  | operation (o : Operation σ) (param : ValueType)

namespace Setter

variable {σ : Type}

def type : Setter σ → ValueType
  | .accessor a => a.type
  | .operation _ param => param

def apply (s : Setter σ) (v : Value) : Action σ Unit :=
  match s with
  | .accessor a => (a.store v).map fun _ => ()
  | .operation o _ => (o.run [v]).map fun _ => ()

end Setter

/-- `set` followed by the name with its first letter in upper case. -/
def setterName (name : String) : String :=
  match name.toList with
  | [] => "set"
  | c :: cs => "set" ++ .ofList (Text.upperCase c ++ cs)

namespace Table

variable {σ : Type}

/-- Registers an attribute behind all others, in place of an earlier one of its name. -/
def register (t : Table σ) (a : Attribute σ) : Table σ :=
  { t with attributes := t.attributes.filter (·.name ≠ a.name) ++ [a] }

def field (t : Table σ) (name : String) (type : ValueType) (get : σ → Option Value)
    (set : Value → Action σ Unit) : Table σ :=
  t.register { name, type, backing := .field, get, set? := some set }

def readOnly (t : Table σ) (name : String) (type : ValueType) (get : σ → Option Value) :
    Table σ :=
  t.register { name, type, backing := .field, get, set? := none }

def accessor (t : Table σ) (name : String) (type : ValueType) (get : σ → Option Value)
    (set : Value → Action σ Unit) : Table σ :=
  t.register { name, type, backing := .accessor, get, set? := some set }

/-- Describes the attribute registered last. -/
def describe (t : Table σ) (description : String) : Table σ :=
  match t.attributes.getLast? with
  | some a =>
    { t with attributes := t.attributes.dropLast ++ [{ a with description := some description }] }
  | none => t

def operation (t : Table σ) (o : Operation σ) : Table σ :=
  { t with operations := t.operations ++ [o] }

def attribute? (t : Table σ) (name : String) : Option (Attribute σ) :=
  t.attributes.find? (·.name == name)

def field? (t : Table σ) (name : String) : Option (Attribute σ) :=
  (t.attribute? name).filter (·.backing == .field)

/-- The first operation of a name with a number of parameters. -/
def operation? (t : Table σ) (name : String) (arity : Nat) : Option (Operation σ) :=
  t.operations.find? fun o => o.name == name && o.arity == arity

/-- The names under which an operation serves as the setter of an attribute. -/
def setterNames (name : String) : List String := [name, "set_" ++ name, setterName name]

/-- The setter of an attribute name: a writable accessor of that name, or else the first
operation with one parameter under one of the setter names. -/
def setter? (t : Table σ) (name : String) : Option (Setter σ) :=
  match (t.attribute? name).filter fun a => a.backing == .accessor && a.isWritable with
  | some a => some (.accessor a)
  | none => (setterNames name).findSome? fun candidate =>
    (t.operation? candidate 1).bind fun o => o.params.head?.map (Setter.operation o)

end Table

end NodeProbe
