import NodeProbe.Number.Integer
import NodeProbe.Text.Cut
import NodeProbe.Value.Basic

/-!
# Conversion of text

The raw text of a write or an argument becomes a value of the declared type, or a
failure that names the text, the type and the reason.
-/
namespace NodeProbe

open Number Text

namespace Conversion

def failure (raw : List Char) (target : ValueType) (reason : String) : Failure :=
  .argumentConversion (.ofList raw) target.text reason

/-- The largest magnitude that the integer reader keeps. -/
def integerLimit : Nat := 170141183460469231731687303715884105727

/-- A decimal integer, or a hexadecimal one after `0x`. Underscores may stand anywhere
and a sign may come first. -/
def readInteger? (cs : List Char) : Option Int :=
  let (negative, digits) := splitSign (cs.filter (· ≠ '_'))
  let magnitude? := match digits with
    | [] | '+' :: _ | '-' :: _ => none
    | '0' :: 'x' :: hex | '0' :: 'X' :: hex => (Number.readInteger 16 integerLimit hex).toOption
    | decimal => (Number.readInteger 10 integerLimit decimal).toOption
  magnitude?.map fun n => if negative then -n else n

def readBool? (cs : List Char) : Option Bool :=
  let word : String := .ofList (cs.map Char.toLower)
  if word ∈ ["true", "yes", "on", "1"] then some true
  else if word ∈ ["false", "no", "off", "0"] then some false
  else none

def integer (raw : List Char) (target : ValueType) : Except Failure Value :=
  match target.integerRange? with
  | none => .error (failure raw target "unsupported target type")
  | some (least, largest) =>
    match readInteger? (trim raw) with
    | none => .error (failure raw target "not an integer")
    | some n =>
      if n < least ∨ largest < n then
        .error (failure raw target s!"out of range {least}..={largest}")
      else if target.isUnsigned then .ok (.unsigned (UInt64.ofNat n.toNat))
      else .ok (.signed (Int64.ofInt n))

def isListSeparator (c : Char) : Bool := c == ';' || isBlank c

/-- The value of a declared type that a raw text spells. -/
def convert (raw : List Char) (target : ValueType) : Except Failure Value :=
  match target with
  | .string => .ok (.text (.ofList raw))
  | .bool =>
    match readBool? (trim raw) with
    | some b => .ok (.bool b)
    | none => .error (failure raw target "expected true/false")
  | .f32 =>
    match Binary.read .single (trim raw) with
    | .ok x => .ok (.float32 x)
    | .error fault => .error (failure raw target fault.message)
  | .f64 =>
    match Binary.read .double (trim raw) with
    | .ok x => .ok (.float x)
    | .error fault => .error (failure raw target fault.message)
  | .duration =>
    match Duration.read? (trim raw) with
    | some d => .ok (.duration d)
    | none => .error (failure raw target "expected <n>[ns|us|ms|s|m|h]")
  | .enum _ variants =>
    match variants.find? fun v => sameLetters v.toList (trim raw) with
    | some v => .ok (.enum v)
    | none => .error (failure raw target ("expected one of " ++ "|".intercalate variants))
  | .list element =>
    ((pieces isListSeparator (trim raw)).mapM (convert · element)).map .list
  | _ => integer raw target

end Conversion

def ValueType.convert (target : ValueType) (raw : String) : Except Failure Value :=
  Conversion.convert raw.toList target

end NodeProbe
