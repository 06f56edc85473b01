import NodeProbe.Component.Stack
import NodeProbe.Text.Blank
import NodeProbe.Value.Conversion

/-!
# Reading and writing attributes

The key of a component's own attribute is `component.attribute`, and of an attribute of
a part `component.part.attribute`. A write is offered to the field, then to the setter,
of the component and then of a part, and the first that takes it decides.
-/
namespace NodeProbe

variable {σ : Type}

namespace Table

def dump (t : Table σ) (lead : String) (s : σ) : List (String × String) :=
  t.attributes.filterMap fun a => (a.get s).map fun v => (lead ++ "." ++ a.name, v.render)

end Table

namespace Component

/-- An entry per attribute that has a value, the component's own first. -/
def dump (c : Component σ) (s : σ) : List (String × String) :=
  c.surface.own.dump c.name s ++
    c.surface.parts.flatMap fun p => p.table.dump (c.name ++ "." ++ p.name) s

/-- The attribute of a name, which may reach into a part. -/
def findAttribute? (c : Component σ) (name : String) : Option (Attribute σ) :=
  (c.surface.own.attribute? name).or <|
    (c.surface.splitName? name).bind fun (p, rest) => p.table.attribute? rest

/-- The entries of the named attributes that exist and have a value. -/
def read (c : Component σ) (names : List String) (s : σ) : List (String × String) :=
  names.filterMap fun name =>
    ((c.findAttribute? name).bind fun a => a.get s).map fun v => (c.name ++ "." ++ name, v.render)

end Component

def dumpAll (components : List (Component σ)) (s : σ) : List (String × String) :=
  components.flatMap (·.dump s)

inductive WriteTarget (σ : Type) where
  | field (a : Attribute σ)
  | setter (setter : Setter σ)

namespace WriteTarget

/-- Carries out a write; a failure is given by its text. -/
def write (target : WriteTarget σ) (name raw : String) (s : σ) : Except String Unit × σ :=
  match target with
  | field a =>
    match a.type.convert raw with
    | .error e => (.error e.message, s)
    | .ok v =>
      match a.store v s with
      | (.ok true, s') => (.ok (), s')
      | (.ok false, s') => (.error ("field " ++ name ++ " is read-only"), s')
      | (.error e, s') => (.error e.message, s')
  | setter target =>
    match target.type.convert raw with
    | .error e => (.error e.message, s)
    | .ok v =>
      match target.apply v s with
      | (.ok _, s') => (.ok (), s')
      | (.error e, s') => (.error e.message, s')

end WriteTarget

/-- The ways in which a table can take a write to a name, in order. -/
def Table.writeTargets (t : Table σ) (name : String) : List (WriteTarget σ × String) :=
  ((t.field? name).map fun a => (WriteTarget.field a, name)).toList ++
    ((t.setter? name).map fun s => (WriteTarget.setter s, name)).toList

/-- The ways in which a component can take a write to a name, its own table first. Each
comes with the name under which its table knows the attribute. -/
def Component.writeTargets (c : Component σ) (name : String) : List (WriteTarget σ × String) :=
  c.surface.own.writeTargets name ++
    match c.surface.splitName? name with
    | some (p, rest) => p.table.writeTargets rest
    | none => []

/-- Tries targets in order until one takes the write, and collects the texts of the
failures before it. -/
def tryTargets (raw : String) :
    List (WriteTarget σ × String) → List String → σ → Except (List String) Unit × σ
  | [], failures, s => (.error failures, s)
  | (target, name) :: targets, failures, s =>
    match target.write name raw s with
    | (.ok _, s') => (.ok (), s')
    | (.error text, s') => tryTargets raw targets (failures ++ [text]) s'

def writeReason (failures : List String) : String :=
  if failures.isEmpty then "field or setter not found" else " ".intercalate failures

def Component.write (c : Component σ) (name raw : String) : Action σ Unit := fun s =>
  match tryTargets raw (c.writeTargets name) [] s with
  | (.ok _, s') => (.ok (), s')
  | (.error failures, s') => (.error (.attributeNotWritable name raw (writeReason failures)), s')

inductive AttributeItem where
  | read (name : String)
  | write (name raw : String)
deriving DecidableEq, Repr

namespace AttributeItem

/-- The item of a trimmed text: a write when it has an equals sign. -/
def ofText (cs : List Char) : AttributeItem :=
  match Text.cut '=' cs with
  | some (name, raw) => write (.ofList (Text.trim name)) (.ofList raw)
  | none => read (.ofList cs)

/-- The items of a list separated by commas; blank items are left out. -/
def ofList (list : String) : List AttributeItem :=
  (((list.toList.splitOn ',').map Text.trim).filter (!·.isEmpty)).map ofText

def readName? : AttributeItem → Option String
  | read name => some name
  | write .. => none

def writeOf? : AttributeItem → Option (String × String)
  | read _ => none
  | write name raw => some (name, raw)

end AttributeItem

/-- Carries out writes in order and collects the failures. -/
def Component.writeAll (c : Component σ) : List (String × String) → σ → List Failure × σ
  | [], s => ([], s)
  | (name, raw) :: writes, s =>
    let (result, s') := c.write name raw s
    let (failures, s'') := c.writeAll writes s'
    match result with
    | .ok _ => (failures, s'')
    | .error e => (e :: failures, s'')

end NodeProbe
