import NodeProbe.Component.Table

/-!
# Components

A component has an instance name, a class name and a surface: its own table and the
tables of its named parts. Members of a part are addressed by `part.member`. All tables
of a component act on one state, and `Component.focus` lets a component work on a place
inside a larger state.
-/
namespace NodeProbe

structure Part (σ : Type) where
  name : String
  table : Table σ

/-- Everything that a component exposes. -/
structure Surface (σ : Type) where
  own : Table σ := {}
  parts : List (Part σ) := []

namespace Surface

variable {σ : Type}

/-- Adds a part behind all others, in place of an earlier one of its name. -/
def withPart (surface : Surface σ) (name : String) (table : Table σ) : Surface σ :=
  { surface with parts := surface.parts.filter (·.name ≠ name) ++ [⟨name, table⟩] }

def part? (surface : Surface σ) (name : String) : Option (Part σ) :=
  surface.parts.find? (·.name == name)

/-- The first part whose name and a dot begin the given name, and the name behind. -/
def splitName? (surface : Surface σ) (name : String) : Option (Part σ × String) :=
  surface.parts.findSome? fun p => (name.dropLeading? (p.name ++ ".")).map (p, ·)

/-- The operation of a name with a number of parameters: the component's own, or that of
the first part which has it under the name behind its own. -/
def operation? (surface : Surface σ) (name : String) (arity : Nat) : Option (Operation σ) :=
  (surface.own.operation? name arity).or <|
    surface.parts.findSome? fun p =>
      (name.dropLeading? (p.name ++ ".")).bind fun rest => p.table.operation? rest arity

end Surface

/-- A named unit of a node's behaviour over a state `σ`. -/
structure Component (σ : Type) where
  /-- The instance name. -/
  name : String
  className : String
  surface : Surface σ
  /-- Clears accumulated statistics. -/
  reset : σ → σ := id

/-- A place of type `σ` inside a larger state `μ`. -/
structure Lens (μ σ : Type) where
  get : μ → σ
  put : σ → μ → μ

variable {μ σ α : Type}

def Action.focus (place : Lens μ σ) (act : Action σ α) : Action μ α := fun m =>
  let (result, s) := act (place.get m)
  (result, place.put s m)

def Attribute.focus (place : Lens μ σ) (a : Attribute σ) : Attribute μ where
  name := a.name
  type := a.type
  backing := a.backing
  description := a.description
  get m := a.get (place.get m)
  set? := a.set?.map fun set v => (set v).focus place

def Operation.focus (place : Lens μ σ) (o : Operation σ) : Operation μ where
  name := o.name
  params := o.params
  returns := o.returns
  description := o.description
  run args := (o.run args).focus place

def Table.focus (place : Lens μ σ) (t : Table σ) : Table μ where
  attributes := t.attributes.map (·.focus place)
  operations := t.operations.map (·.focus place)

def Surface.focus (place : Lens μ σ) (surface : Surface σ) : Surface μ where
  own := surface.own.focus place
  parts := surface.parts.map fun p => ⟨p.name, p.table.focus place⟩

def Component.focus (place : Lens μ σ) (c : Component σ) : Component μ where
  name := c.name
  className := c.className
  surface := c.surface.focus place
  reset m := place.put (c.reset (place.get m)) m

end NodeProbe
