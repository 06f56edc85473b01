import NodeProbe.Number.Decimal
import NodeProbe.Text.Blank

/-!
# Durations

A duration is a number of nanoseconds. It is written in seconds or milliseconds when
that is exact and in nanoseconds otherwise. It is read as a decimal number and a unit;
the number is a 64-bit floating-point number and so is its product with the unit.
-/
namespace NodeProbe

structure Duration where
  nanos : Nat
deriving DecidableEq, Repr, Inhabited

namespace Duration

open Number Text

/-- The text in whole seconds, in whole milliseconds or in nanoseconds. -/
def text (d : Duration) : String :=
  if d.nanos % 1000000 ≠ 0 then d.nanos.repr ++ "ns"
  else
    let millis := d.nanos / 1000000
    if millis ≠ 0 ∧ millis % 1000 = 0 then (millis / 1000).repr ++ "s"
    else millis.repr ++ "ms"

/-- The nanoseconds of a unit; a bare number counts milliseconds. -/
def unitNanos? (unit : String) : Option Nat :=
  if unit = "ns" then some 1
  else if unit = "us" then some 1000
  else if unit = "" ∨ unit = "ms" then some 1000000
  else if unit = "s" then some 1000000000
  else if unit = "m" then some 60000000000
  else if unit = "h" then some 3600000000000
  else none

/-- Rounds a number of nanoseconds, a half up. Anything past `2 ^ 64` is refused, and
`2 ^ 64` itself is cut to the longest duration. -/
def ofBinary? (nanos : Binary64) : Option Duration :=
  if !nanos.isFinite || (Binary.ofNat (f := .double) (maxUInt64 + 1)).rank < nanos.rank then none
  else some ⟨min nanos.roundAway.toNat maxUInt64⟩

def read? (cs : List Char) : Option Duration :=
  let isNumeric (c : Char) : Bool := c.isDigit || c == '.'
  match Binary.read .double (cs.takeWhile isNumeric) with
  | .error _ => none
  | .ok amount =>
    (unitNanos? (.ofList (trim (cs.dropWhile isNumeric)))).bind fun unit =>
      ofBinary? (amount * Binary.ofNat unit)

/-- A decimal fraction of a unit without trailing zeros. -/
def decimalText (whole fraction places : Nat) : String :=
  let digits := Nat.toDigits 10 fraction
  let digits := List.replicate (places - digits.length) '0' ++ digits
  let digits := (digits.reverse.dropWhile (· == '0')).reverse
  if digits.isEmpty then whole.repr else whole.repr ++ "." ++ .ofList digits

/-- The text in the largest unit of which there is at least one, with its fraction. -/
def inspect (d : Duration) : String :=
  if 1000000000 ≤ d.nanos then
    decimalText (d.nanos / 1000000000) (d.nanos % 1000000000) 9 ++ "s"
  else if 1000000 ≤ d.nanos then decimalText (d.nanos / 1000000) (d.nanos % 1000000) 6 ++ "ms"
  else if 1000 ≤ d.nanos then decimalText (d.nanos / 1000) (d.nanos % 1000) 3 ++ "µs"
  else d.nanos.repr ++ "ns"

end Duration

end NodeProbe
