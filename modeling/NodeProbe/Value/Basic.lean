import NodeProbe.Failure
import NodeProbe.Value.Duration
import NodeProbe.Value.Type

/-!
# Values

A value is what an attribute holds and what an operation takes and returns. Its text
is what a result shows. A value is read through a typed accessor, which fails when the
value has no such reading.
-/
namespace NodeProbe

open Number

inductive Value where
  | unsigned (n : UInt64)
  | signed (n : Int64)
  | float32 (x : Binary32)
  | float (x : Binary64)
  | bool (b : Bool)
  | text (s : String)
  | duration (d : Duration)
  /-- A variant of an enum type, by its declared name. -/
  | enum (variant : String)
  | list (items : List Value)
deriving Inhabited

namespace Value

/-- The text that a result shows; the items of a list are separated by a space. -/
def render : Value → String
  | unsigned n => n.toNat.repr
  | signed n => toString n.toInt
  | float32 x => x.text
  | float x => x.text
  | bool b => if b then "true" else "false"
  | text s | enum s => s
  | duration d => d.text
  | list items => " ".intercalate (items.map render)

def mismatch (v : Value) (target : String) : Failure :=
  .argumentConversion v.render target "value has a different type"

def asUInt64 : Value → Except Failure UInt64
  | unsigned n => .ok n
  | v@(signed n) => if 0 ≤ n.toInt then .ok n.toUInt64 else .error (v.mismatch "u64")
  | v => .error (v.mismatch "u64")

def asInt64 : Value → Except Failure Int64
  | signed n => .ok n
  | v@(unsigned n) => if n.toNat ≤ maxInt64 then .ok n.toInt64 else .error (v.mismatch "i64")
  | v => .error (v.mismatch "i64")

def asFloat32 : Value → Except Failure Binary32
  | float32 x => .ok x
  | signed n => .ok (Binary.ofInt n.toInt)
  | unsigned n => .ok (Binary.ofNat n.toNat)
  | v => .error (v.mismatch "f32")

def asFloat : Value → Except Failure Binary64
  | float x => .ok x
  | float32 x => .ok (x.convert .double)
  | signed n => .ok (Binary.ofInt n.toInt)
  | unsigned n => .ok (Binary.ofNat n.toNat)
  | v => .error (v.mismatch "f64")

def asBool : Value → Except Failure Bool
  | bool b => .ok b
  | v => .error (v.mismatch "bool")

def asText : Value → Except Failure String
  | text s | enum s => .ok s
  | v => .error (v.mismatch "String")

def asDuration : Value → Except Failure Duration
  | duration d => .ok d
  | v => .error (v.mismatch "Duration")

def asList : Value → Except Failure (List Value)
  | list items => .ok items
  | v => .error (v.mismatch "Vec")

inductive Reading where
  | u64 | i64 | f32 | f64 | bool | str | duration | list
deriving DecidableEq, Repr

/-- Reads a value through an accessor and wraps the result again. -/
def reread (v : Value) : Reading → Except Failure Value
  | .u64 => v.asUInt64.map unsigned
  | .i64 => v.asInt64.map signed
  | .f32 => v.asFloat32.map float32
  | .f64 => v.asFloat.map float
  | .bool => v.asBool.map bool
  | .str => v.asText.map text
  | .duration => v.asDuration.map duration
  | .list => v.asList.map list

end Value

def ValueType.InRange (t : ValueType) (n : Int) : Prop :=
  ∃ range, t.integerRange? = some range ∧ range.1 ≤ n ∧ n ≤ range.2

/-- A value is well typed when it has the form and the range of its type, through all
levels of lists. -/
def WellTyped : ValueType → Value → Prop
  | .f32, v => ∃ x, v = .float32 x
  | .f64, v => ∃ x, v = .float x
  | .bool, v => ∃ b, v = .bool b
  | .string, v => ∃ s, v = .text s
  | .duration, v => ∃ d, v = .duration d
  | .enum _ variants, v => ∃ s ∈ variants, v = .enum s
  | .list element, v => ∃ items, v = .list items ∧ ∀ item ∈ items, WellTyped element item
  | t, v =>
    if t.isUnsigned then ∃ n : UInt64, v = .unsigned n ∧ t.InRange n.toNat
    else ∃ n : Int64, v = .signed n ∧ t.InRange n.toInt

end NodeProbe
