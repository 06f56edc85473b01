import NodeProbe.Number.Decimal
import NodeProbe.Text.Cut
import NodeProbe.Toml.Text
import NodeProbe.Toml.Value

/-!
# TOML scalars

Truth values, integers, floating-point numbers, dates and times. Digits may be separated
by single underscores.
-/
namespace NodeProbe.Toml

open Number Text

/-- Digits and single underscores between them; the underscores are left out. -/
def moreDigits (isDigit : Char → Bool) : List Char → List Char × List Char
  | '_' :: c :: rest =>
    if isDigit c then
      let (digits, behind) := moreDigits isDigit rest
      (c :: digits, behind)
    else ([], '_' :: c :: rest)
  | c :: rest =>
    if isDigit c then
      let (digits, behind) := moreDigits isDigit rest
      (c :: digits, behind)
    else ([], c :: rest)
  | [] => ([], [])

def someDigits (isDigit : Char → Bool) : List Char → Scanned (List Char)
  | c :: rest =>
    if isDigit c then
      let (digits, behind) := moreDigits isDigit rest
      some (c :: digits, behind)
    else none
  | [] => none

/-- The digits of a decimal integer, which have no leading zero. -/
def decimalDigits : List Char → Scanned (List Char)
  | '0' :: rest => some (['0'], rest)
  | rest => someDigits Char.isDigit rest

def inRange? (n : Int) : Option Int64 :=
  if minInt64 ≤ n ∧ n ≤ maxInt64 then some (.ofInt n) else none

def digitsValue (base : Nat) (digits : List Char) : Nat :=
  digits.foldl (fun n c => base * n + (hexDigit? c).getD 0) 0

/-- An integer with the letter of its base. -/
def basedInteger (base : Nat) (isDigit : Char → Bool) (cs : List Char) : Scanned Toml :=
  (someDigits isDigit cs).bind fun (digits, rest) =>
    (inRange? (digitsValue base digits)).map fun n => (integer n, rest)

/-- The fraction of a floating-point number with its point, if there is one. -/
def fractionText : List Char → Scanned (List Char)
  | '.' :: rest => (someDigits Char.isDigit rest).map fun (digits, rest) => ('.' :: digits, rest)
  | rest => some ([], rest)

def exponentText : List Char → Scanned (List Char)
  | c :: rest =>
    if c = 'e' ∨ c = 'E' then
      let (negative, rest) := splitSign rest
      (someDigits Char.isDigit rest).map fun (digits, rest) =>
        ('e' :: if negative then '-' :: digits else digits, rest)
    else some ([], c :: rest)
  | [] => some ([], [])

def fractionAndExponent (cs : List Char) : Scanned (List Char) :=
  (fractionText cs).bind fun (fraction, rest) =>
    (exponentText rest).map fun (exponent, rest) => (fraction ++ exponent, rest)

/-- An integer or a floating-point number. Only negative numbers may leave the finite
range. -/
def readNumber (cs : List Char) : Scanned Toml :=
  let (negative, unsigned) := splitSign cs
  match cs, unsigned with
  | '0' :: 'x' :: rest, _ => basedInteger 16 (fun c => (hexDigit? c).isSome) rest
  | '0' :: 'o' :: rest, _ => basedInteger 8 (fun c => '0' ≤ c && c ≤ '7') rest
  | '0' :: 'b' :: rest, _ => basedInteger 2 (fun c => c == '0' || c == '1') rest
  | _, 'i' :: 'n' :: 'f' :: rest => some (float (.infinite negative), rest)
  | _, 'n' :: 'a' :: 'n' :: rest => some (float (.notANumber negative), rest)
  | _, _ =>
    (decimalDigits unsigned).bind fun (digits, rest) =>
      match rest with
      | '.' :: _ | 'e' :: _ | 'E' :: _ =>
        (fractionAndExponent rest).bind fun (tail, rest) =>
          match Binary.read .double (digits ++ tail) with
          | .ok x =>
            if x.isInfinite && !negative then none
            else some (float { x with negative }, rest)
          | .error _ => none
      | _ =>
        let n : Int := Nat.ofDigitChars 10 digits 0
        (inRange? (if negative then -n else n)).map fun n => (integer n, rest)

/-- A number of exactly so many digits between two bounds. -/
def fixedDigits (count least most : Nat) (cs : List Char) : Scanned Nat :=
  let digits := cs.take count
  let n := Nat.ofDigitChars 10 digits 0
  if digits.length = count ∧ digits.all Char.isDigit ∧ least ≤ n ∧ n ≤ most then
    some (n, cs.drop count)
  else none

def expect (c : Char) : List Char → Option (List Char)
  | x :: rest => if x = c then some rest else none
  | [] => none

def daysOfMonth (year month : Nat) : Nat :=
  let leap := year % 4 = 0 ∧ (year % 100 ≠ 0 ∨ year % 400 = 0)
  if month = 2 then if leap then 29 else 28
  else if month ∈ [4, 6, 9, 11] then 30
  else 31

def dropDate (cs : List Char) : Option (List Char) := do
  let (year, rest) ← fixedDigits 4 0 9999 cs
  let (month, rest) ← fixedDigits 2 1 12 (← expect '-' rest)
  let (_, rest) ← fixedDigits 2 1 (daysOfMonth year month) (← expect '-' rest)
  return rest

def dropTime (cs : List Char) : Option (List Char) := do
  let (_, rest) ← fixedDigits 2 0 23 cs
  let (_, rest) ← fixedDigits 2 0 59 (← expect ':' rest)
  let (_, rest) ← fixedDigits 2 0 60 (← expect ':' rest)
  match rest with
  | '.' :: c :: behind => if c.isDigit then return behind.dropWhile Char.isDigit else return rest
  | _ => return rest

/-- The rest behind an offset from universal time, which may be missing. -/
def dropOffset (cs : List Char) : Option (List Char) :=
  match cs with
  | 'Z' :: rest | 'z' :: rest => some rest
  | '+' :: rest | '-' :: rest => do
    let (_, rest) ← fixedDigits 2 0 23 rest
    let (_, rest) ← fixedDigits 2 0 59 (← expect ':' rest)
    return rest
  | rest => some rest

/-- The rest behind a date, a time, or both with an optional offset. -/
def dropMoment (cs : List Char) : Option (List Char) :=
  match dropDate cs with
  | some rest =>
    match rest with
    | c :: behind =>
      if c = 'T' ∨ c = 't' ∨ c = ' ' then
        match dropTime behind with
        | some rest => dropOffset rest
        | none => some rest
      else some rest
    | [] => some []
  | none => dropTime cs

def readNumeric (cs : List Char) : Scanned Toml :=
  match dropMoment cs with
  | some rest => some (moment (.ofList (cs.take (cs.length - rest.length))), rest)
  | none => readNumber cs

/-- A value without parts of its own. -/
def readScalar (cs : List Char) : Scanned Toml :=
  match cs with
  | '"' :: _ | '\'' :: _ => (readString cs).map fun (text, rest) => (string (.ofList text), rest)
  | 't' :: 'r' :: 'u' :: 'e' :: rest => some (boolean true, rest)
  | 'f' :: 'a' :: 'l' :: 's' :: 'e' :: rest => some (boolean false, rest)
  | _ => readNumeric cs

end NodeProbe.Toml
