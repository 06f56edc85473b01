import NodeProbe.Number.Binary
import NodeProbe.Text.Cut

/-!
# Floating-point numbers in decimal text

Reading takes an optional sign, digits with an optional point and an optional
exponent, or the name of infinity or of what is not a number, and gives the nearest
number. Writing gives the fewest digits that read back, the nearest such decimal,
and on a tie the larger; it never uses an exponent.
-/
namespace NodeProbe.Number

open Text

inductive FloatFault where
  | empty
  | invalid
deriving DecidableEq, Repr

def FloatFault.message : FloatFault → String
  | .empty => "cannot parse float from empty string"
  | .invalid => "invalid float literal"

/-- How many binary places lie between the least and the largest magnitude. -/
def Format.span (f : Format) : Nat := f.infinity / f.blockSize + f.precision

/-- The number nearest to `digits * 10 ^ exponent`. Exponents beyond the span of the
format are settled without computing the power. -/
def Format.nearestDecimal (f : Format) (digits : Nat) (exponent : Int) : Nat :=
  if digits = 0 then 0
  else if 0 ≤ exponent then
    if f.span < exponent.toNat then f.infinity
    else f.nearest (digits * Nat.pow 10 exponent.toNat) 1
  else
    if digits.log2 + f.span < (-exponent).toNat then 0
    else f.nearest digits (Nat.pow 10 (-exponent).toNat)

def readExponent : List Char → Option Int
  | [] => some 0
  | c :: cs =>
    if c = 'e' ∨ c = 'E' then
      let (negative, digits) := splitSign cs
      if digits.isEmpty || !digits.all Char.isDigit then none
      else
        let n : Int := Nat.ofDigitChars 10 digits 0
        some (if negative then -n else n)
    else none

def readMagnitude (f : Format) (cs : List Char) : Option Nat :=
  let whole := cs.takeWhile Char.isDigit
  let (fraction, rest) := match cs.dropWhile Char.isDigit with
    | '.' :: rest => (rest.takeWhile Char.isDigit, rest.dropWhile Char.isDigit)
    | rest => ([], rest)
  if whole.isEmpty && fraction.isEmpty then none
  else (readExponent rest).map fun exponent =>
    f.nearestDecimal (Nat.ofDigitChars 10 (whole ++ fraction) 0) (exponent - fraction.length)

def Binary.read (f : Format) (cs : List Char) : Except FloatFault (Binary f) :=
  if cs.isEmpty then .error .empty
  else
    let (negative, unsigned) := splitSign cs
    if sameLetters unsigned "nan".toList then .ok (notANumber negative)
    else if sameLetters unsigned "inf".toList || sameLetters unsigned "infinity".toList then
      .ok (infinite negative)
    else match readMagnitude f unsigned with
      | some rank => .ok ⟨negative, min rank f.infinity, Nat.le_succ_of_le (Nat.min_le_right _ _)⟩
      | none => .error .invalid

structure Decimal where
  digits : Nat
  exponent : Int
deriving DecidableEq, Repr

def Decimal.positional (d : Decimal) : List Char :=
  let digits := Nat.toDigits 10 d.digits
  if 0 ≤ d.exponent then digits ++ List.replicate d.exponent.toNat '0'
  else
    let places := (-d.exponent).toNat
    if places < digits.length then
      digits.take (digits.length - places) ++ '.' :: digits.drop (digits.length - places)
    else '0' :: '.' :: List.replicate (places - digits.length) '0' ++ digits

/-- The point of the grid of multiples of `10 ^ exponent` that is nearest to `value / unit`
among those between `low / unit` and `high / unit`, the ends included on request. -/
def gridPoint? (low value high unit : Nat) (ends : Bool) (exponent : Int) : Option Decimal :=
  let up := Nat.pow 10 (-exponent).toNat
  let step := unit * Nat.pow 10 exponent.toNat
  let within (n : Nat) : Bool :=
    let x := n * step
    if ends then low * up ≤ x && x ≤ high * up else low * up < x && x < high * up
  let below := value * up / step
  let above := below + 1
  let aboveIsNearer := (2 * below + 1) * step ≤ 2 * (value * up)
  match within below, within above with
  | true, true => some ⟨if aboveIsNearer then above else below, exponent⟩
  | true, false => some ⟨below, exponent⟩
  | false, true => some ⟨above, exponent⟩
  | false, false => none

/-- The first grid point found going down from a grid exponent. -/
def searchGrid (low value high unit : Nat) (ends : Bool) : Nat → Int → Decimal
  | 0, exponent => ⟨value * Nat.pow 10 (-exponent).toNat / (unit * Nat.pow 10 exponent.toNat), exponent⟩
  | steps + 1, exponent =>
    match gridPoint? low value high unit ends exponent with
    | some d => d
    | none => searchGrid low value high unit ends steps (exponent - 1)

/-- The shortest decimal that reads back as a finite positive rank. The search starts
at a grid too coarse to hold a point other than zero below the value. -/
def Format.shortest (f : Format) (rank : Nat) : Decimal :=
  let low := f.units (rank - 1) + f.units rank
  let value := 2 * f.units rank
  let high := f.units rank + f.units (rank + 1)
  let unit := 2 * f.one
  let bits : Int := value.log2 + 1 - (f.scale + 1 : Nat)
  let start := if 0 ≤ bits then bits * 31 / 100 + 1 else -(-bits * 3 / 10)
  searchGrid low value high unit (rank % 2 == 0) (f.precision + 16) start

namespace Binary

variable {f : Format}

def text (x : Binary f) : String :=
  if x.isNaN then "NaN"
  else
    let magnitude :=
      if x.isInfinite then "inf".toList
      else if x.isZero then ['0']
      else (f.shortest x.rank).positional
    .ofList (if x.negative then '-' :: magnitude else magnitude)

/-- The text with exactly one decimal place, a half to the even neighbour. -/
def textWithOnePlace (x : Binary f) : String :=
  if x.isNaN then "NaN"
  else
    let magnitude :=
      if x.isInfinite then "inf".toList
      else
        let tenths := divideToEven (10 * x.units) f.one
        Nat.toDigits 10 (tenths / 10) ++ '.' :: Nat.toDigits 10 (tenths % 10)
    .ofList (if x.negative then '-' :: magnitude else magnitude)

end Binary

end NodeProbe.Number
