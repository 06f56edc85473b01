import NodeProbe.Number.Word

/-!
# Reading whole numbers

A whole number is read digit by digit under a bound, so that the first character
that is no digit, or that takes the value past the bound, decides the fault.
-/
namespace NodeProbe.Number

/-- Why a text is not a whole number of the wanted range. -/
inductive IntegerFault where
  | empty
  | invalidDigit
  | tooLarge
  | tooSmall
deriving DecidableEq, Repr

def IntegerFault.message : IntegerFault → String
  | .empty => "cannot parse integer from empty string"
  | .invalidDigit => "invalid digit found in string"
  | .tooLarge => "number too large to fit in target type"
  | .tooSmall => "number too small to fit in target type"

def digit? (base : Nat) (c : Char) : Option Nat :=
  let value? :=
    if '0' ≤ c ∧ c ≤ '9' then some (c.toNat - '0'.toNat)
    else if 'a' ≤ c ∧ c ≤ 'f' then some (c.toNat - 'a'.toNat + 10)
    else if 'A' ≤ c ∧ c ≤ 'F' then some (c.toNat - 'A'.toNat + 10)
    else none
  value?.filter (· < base)

/-- Continues a number that is worth `value` so far. A value past `limit` is the
given fault. -/
def readDigits (base limit : Nat) (fault : IntegerFault) (value : Nat) :
    List Char → Except IntegerFault Nat
  | [] => .ok value
  | c :: cs =>
    match digit? base c with
    | none => .error .invalidDigit
    | some d =>
      if value * base + d ≤ limit then readDigits base limit fault (value * base + d) cs
      else .error fault

/-- A natural number up to `limit`, with an optional plus sign. -/
def readNatural (base limit : Nat) : List Char → Except IntegerFault Nat
  | [] => .error .empty
  | ['+'] => .error .invalidDigit
  | '+' :: digits => readDigits base limit .tooLarge 0 digits
  | digits => readDigits base limit .tooLarge 0 digits

/-- An integer from `-limit - 1` to `limit`, with an optional sign. -/
def readInteger (base limit : Nat) : List Char → Except IntegerFault Int
  | ['-'] => .error .invalidDigit
  | '-' :: digits => (readDigits base (limit + 1) .tooSmall 0 digits).map fun n => -(n : Int)
  | digits => (readNatural base limit digits).map Int.ofNat

def readUInt64 (cs : List Char) : Except IntegerFault UInt64 :=
  (readNatural 10 maxUInt64 cs).map UInt64.ofNat

def readInt64 (cs : List Char) : Except IntegerFault Int64 :=
  (readInteger 10 maxInt64 cs).map Int64.ofInt

end NodeProbe.Number
