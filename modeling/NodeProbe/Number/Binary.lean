import NodeProbe.Number.Word

/-!
# Binary floating-point numbers

The magnitudes of a format stand in one ascending line: zero, the subnormal
numbers, the normal numbers, infinity, and one place behind it for what is not a
number. A floating-point number is a sign and its place in that line, its *rank*,
so order and equality are those of natural numbers. Every finite magnitude is a
whole multiple of the least positive one, `2 ^ -scale`; all arithmetic is exact in
these units and then rounded once, to the nearest rank, a tie to the even one.
-/
namespace NodeProbe.Number

/-- A binary interchange format. -/
structure Format where
  /-- Bits of a normal significand. -/
  precision : Nat
  /-- The least positive magnitude is `2 ^ -scale`. -/
  scale : Nat
  /-- The rank of infinity. -/
  infinity : Nat
deriving DecidableEq

namespace Format

/-- How many ranks share a power of two. -/
def blockSize (f : Format) : Nat := Nat.pow 2 (f.precision - 1)

/-- The number one in units of `2 ^ -scale`. -/
def one (f : Format) : Nat := Nat.pow 2 f.scale

def double : Format := ⟨53, 1074, 2047 * Nat.pow 2 52⟩

def single : Format := ⟨24, 149, 255 * Nat.pow 2 23⟩

/-- The magnitude at a finite rank, in units of `2 ^ -scale`. At the rank of infinity
it is the power of two that would come next. -/
def units (f : Format) (rank : Nat) : Nat :=
  let block := rank / f.blockSize
  if block = 0 then rank
  else (f.blockSize + rank % f.blockSize) * Nat.pow 2 (block - 1)

end Format

/-- A quotient rounded to the nearest whole number, a half to the even neighbour. -/
def divideToEven (a b : Nat) : Nat :=
  let q := a / b
  let twice := 2 * (a % b)
  if twice < b then q
  else if b < twice then q + 1
  else q + q % 2

/-- The rank nearest to the fraction `num / den`. -/
def Format.nearest (f : Format) (num den : Nat) : Nat :=
  let n := num * f.one
  let exponent := (n / den).log2 + 1 - f.precision
  min (exponent * f.blockSize + divideToEven n (den * Nat.pow 2 exponent)) f.infinity

theorem Format.nearest_le (f : Format) (num den : Nat) : f.nearest num den ≤ f.infinity :=
  Nat.min_le_right _ _

/-- A floating-point number of a format. -/
structure Binary (f : Format) where
  negative : Bool
  rank : Nat
  rank_le : rank ≤ f.infinity + 1
deriving DecidableEq

abbrev Binary64 := Binary .double
abbrev Binary32 := Binary .single

namespace Binary

variable {f : Format}

def notANumber (negative : Bool) : Binary f := ⟨negative, f.infinity + 1, Nat.le_refl _⟩
def infinite (negative : Bool) : Binary f := ⟨negative, f.infinity, Nat.le_succ _⟩
def zero (negative : Bool) : Binary f := ⟨negative, 0, Nat.zero_le _⟩

def ofRatio (negative : Bool) (num den : Nat) : Binary f :=
  ⟨negative, f.nearest num den, Nat.le_succ_of_le (f.nearest_le num den)⟩

def ofNat (n : Nat) : Binary f := ofRatio false n 1
def ofInt (i : Int) : Binary f := ofRatio (i < 0) i.natAbs 1

def isNaN (x : Binary f) : Bool := f.infinity < x.rank
def isInfinite (x : Binary f) : Bool := x.rank == f.infinity
def isFinite (x : Binary f) : Bool := x.rank < f.infinity
def isZero (x : Binary f) : Bool := x.rank == 0

def units (x : Binary f) : Nat := f.units x.rank

def mul (x y : Binary f) : Binary f :=
  let negative := x.negative != y.negative
  if x.isNaN || y.isNaN then notANumber false
  else if x.isInfinite || y.isInfinite then
    if x.isZero || y.isZero then notANumber false else infinite negative
  else ofRatio negative (x.units * y.units) (f.one * f.one)

def div (x y : Binary f) : Binary f :=
  let negative := x.negative != y.negative
  if x.isNaN || y.isNaN then notANumber false
  else if x.isInfinite then if y.isInfinite then notANumber false else infinite negative
  else if y.isInfinite then zero negative
  else if y.isZero then if x.isZero then notANumber false else infinite negative
  else ofRatio negative x.units y.units

instance : Mul (Binary f) := ⟨mul⟩
instance : Div (Binary f) := ⟨div⟩

def convert (g : Format) (x : Binary f) : Binary g :=
  if x.isNaN then notANumber x.negative
  else if x.isInfinite then infinite x.negative
  else ofRatio x.negative x.units f.one

/-- The nearest whole number to a finite number, a half away from zero. -/
def roundAway (x : Binary f) : Int :=
  let magnitude := (2 * x.units + f.one) / (2 * f.one)
  if x.negative then -(magnitude : Int) else magnitude

/-- The nearest whole number that 64 signed bits hold, a half away from zero. What is
not a number becomes zero. -/
def toInt64 (x : Binary f) : Int64 :=
  if x.isNaN then 0
  else if x.isInfinite then if x.negative then Int64.minValue else Int64.maxValue
  else clampInt64 x.roundAway

/-- A key whose order is the total order of floating-point numbers: by sign, then by
rank, so negative zero stands below zero and what is not a number at the ends. -/
def totalOrderKey (x : Binary f) : Int :=
  if x.negative then -(x.rank : Int) - 1 else x.rank

end Binary

end NodeProbe.Number
