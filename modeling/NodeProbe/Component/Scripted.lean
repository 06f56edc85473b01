import NodeProbe.Component.Basic

/-!
# Scripted components

A component can be described by data: its attributes stand for named cells that hold
values, and the body of an operation is one of a few steps on cells and arguments. All
tables of a component share its cells.
-/
namespace NodeProbe

/-- Named cells, each empty or holding a value. -/
structure Cells where
  contents : List (String × Value) := []
deriving Inhabited

namespace Cells

def get? (cells : Cells) (name : String) : Option Value := cells.contents.lookup name

def put (cells : Cells) (name : String) (v : Value) : Cells :=
  ⟨(name, v) :: cells.contents.filter (·.1 ≠ name)⟩

end Cells

namespace Scripted

inductive Access where
  | field | readOnly | accessor
deriving DecidableEq, Repr

structure AttributeScript where
  name : String
  type : ValueType
  access : Access := .field
  /-- The cell that it stands for. -/
  cell : String
  /-- A reading through which a written value passes. -/
  via : Option Value.Reading := none
  /-- The text of the failure that every write meets. -/
  reject : Option String := none
  description : Option String := none

inductive Body where
  /-- Fails with a text. -/
  | fail (text : String)
  /-- Puts an argument into a cell. -/
  | set (cell : String) (argument : Nat)
  /-- Gives the value of a cell. -/
  | get (cell : String)
  /-- Adds an argument to a cell, an empty cell counting as zero, and gives the sum. -/
  | add (cell : String) (argument : Nat)
  /-- Gives an argument through a reading. -/
  | read (via : Value.Reading) (argument : Nat)
  /-- Gives the list of all arguments. -/
  | all
  /-- Gives a fixed value. -/
  | value (v : Value)
  /-- Gives an argument. -/
  | argument (index : Nat)
  /-- Gives nothing. -/
  | nothing

structure OperationScript where
  name : String
  params : List ValueType := []
  returns : Option ValueType := none
  description : Option String := none
  body : Body := .nothing

structure TableScript where
  attributes : List AttributeScript := []
  operations : List OperationScript := []

structure PartScript where
  name : String
  table : TableScript

/-- What a reset does: nothing, or counting itself in the cell `$resets`. -/
inductive Reset where
  | silent | counted
deriving DecidableEq, Repr

structure ComponentScript where
  name : String
  className : String
  own : TableScript := {}
  parts : List PartScript := []
  reset : Reset := .counted

def AttributeScript.store (a : AttributeScript) (v : Value) : Action Cells Unit :=
  .atomic fun cells =>
    match a.reject with
    | some text => .error (.operation text)
    | none =>
      match a.via with
      | some via => (v.reread via).map fun v => ((), cells.put a.cell v)
      | none => .ok ((), cells.put a.cell v)

def argumentAt (args : List Value) (index : Nat) : Value := args.getD index (.list [])

def Body.run (body : Body) (args : List Value) : Action Cells (Option Value) :=
  .atomic fun cells =>
    match body with
    | .fail text => .error (.operation text)
    | .set cell index => .ok (none, cells.put cell (argumentAt args index))
    | .get cell => .ok (cells.get? cell, cells)
    | .add cell index => do
      let old ← match cells.get? cell with
        | some v => v.asInt64
        | none => pure 0
      let sum := Value.signed (old + (← (argumentAt args index).asInt64))
      return (some sum, cells.put cell sum)
    | .read via index => ((argumentAt args index).reread via).map fun v => (some v, cells)
    | .all => .ok (some (.list args), cells)
    | .value v => .ok (some v, cells)
    | .argument index => .ok (some (argumentAt args index), cells)
    | .nothing => .ok (none, cells)

def AttributeScript.register (t : Table Cells) (a : AttributeScript) : Table Cells :=
  let get (cells : Cells) : Option Value := cells.get? a.cell
  let t := match a.access with
    | .field => t.field a.name a.type get a.store
    | .readOnly => t.readOnly a.name a.type get
    | .accessor => t.accessor a.name a.type get a.store
  match a.description with
  | some text => t.describe text
  | none => t

def OperationScript.operation (o : OperationScript) : Operation Cells where
  name := o.name
  params := o.params
  returns := o.returns
  description := o.description
  run args := o.body.run args

def TableScript.table (t : TableScript) : Table Cells :=
  t.operations.foldl (fun t o => t.operation o.operation)
    (t.attributes.foldl AttributeScript.register {})

def countReset (cells : Cells) : Cells :=
  let old := match cells.get? "$resets" with
    | some (.unsigned n) => n
    | _ => 0
  cells.put "$resets" (.unsigned (old + 1))

def ComponentScript.component (c : ComponentScript) : Component Cells where
  name := c.name
  className := c.className
  surface := c.parts.foldl (fun surface p => surface.withPart p.name p.table.table)
    { own := c.own.table }
  reset := match c.reset with
    | .silent => id
    | .counted => countReset

end Scripted

end NodeProbe
