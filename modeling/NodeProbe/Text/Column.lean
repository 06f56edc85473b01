/-!
# Columns and digit groups

Cells of a fixed-width table are filled with spaces up to a width counted in
characters; longer cells keep their text. Whole numbers are written with a comma
between groups of three digits.
-/
namespace NodeProbe.Text

def padEnd (width : Nat) (s : String) : String :=
  s ++ .ofList (List.replicate (width - s.length) ' ')

def padStart (width : Nat) (s : String) : String :=
  .ofList (List.replicate (width - s.length) ' ') ++ s

/-- A comma before every group of three digits counted from the right, the first
group aside. -/
def groupDigits : List Char → List Char
  | [] => []
  | [d] => [d]
  | d :: e :: rest =>
    if (rest.length + 1) % 3 = 0 then d :: ',' :: groupDigits (e :: rest)
    else d :: groupDigits (e :: rest)

def groupThousands (value : Int64) : String :=
  let digits := groupDigits (Nat.toDigits 10 value.toInt.natAbs)
  .ofList (if value < 0 then '-' :: digits else digits)

end NodeProbe.Text
