/-!
# TOML strings

A string is basic, with escapes between double quotes, or literal, without escapes
between single quotes, and either may run over several lines between tripled quotes.
The readers start behind the opening quotes and give the contents and the rest.
-/
namespace NodeProbe.Toml

/-- A text and the rest behind it. -/
abbrev Scanned (α : Type) := Option (α × List Char)

def keep (c : Char) (r : Scanned (List Char)) : Scanned (List Char) :=
  r.map fun (text, rest) => (c :: text, rest)

/-- Tabs, printable ASCII and everything beyond ASCII. -/
def isPlain (c : Char) : Bool := c == '\t' || (' ' ≤ c && c ≠ '\x7f')

def hexDigit? (c : Char) : Option Nat :=
  if '0' ≤ c ∧ c ≤ '9' then some (c.toNat - '0'.toNat)
  else if 'a' ≤ c ∧ c ≤ 'f' then some (c.toNat - 'a'.toNat + 10)
  else if 'A' ≤ c ∧ c ≤ 'F' then some (c.toNat - 'A'.toNat + 10)
  else none

def hexChar? (digits : List Char) : Option Char :=
  (digits.foldlM (fun n c => (hexDigit? c).map (16 * n + ·)) 0).bind fun n =>
    if n.isValidChar then some (.ofNat n) else none

/-- The character of an escape with one letter. -/
def escapedChar? : Char → Option Char
  | 'b' => some '\x08'
  | 't' => some '\t'
  | 'n' => some '\n'
  | 'f' => some '\x0c'
  | 'r' => some '\r'
  | '"' => some '"'
  | '\\' => some '\\'
  | _ => none

def readBasic : List Char → Scanned (List Char)
  | [] => none
  | '"' :: rest => some ([], rest)
  | '\\' :: 'u' :: a :: b :: c :: d :: rest =>
    (hexChar? [a, b, c, d]).bind fun x => keep x (readBasic rest)
  | '\\' :: 'U' :: a :: b :: c :: d :: e :: f :: g :: h :: rest =>
    (hexChar? [a, b, c, d, e, f, g, h]).bind fun x => keep x (readBasic rest)
  | '\\' :: c :: rest => (escapedChar? c).bind fun x => keep x (readBasic rest)
  | c :: rest => if isPlain c && c ≠ '\\' then keep c (readBasic rest) else none

def readLiteral : List Char → Scanned (List Char)
  | [] => none
  | '\'' :: rest => some ([], rest)
  | c :: rest => if isPlain c then keep c (readLiteral rest) else none

/-- Where the reader of a basic string of several lines stands. -/
inductive LineFold where
  /-- In the contents. -/
  | none
  /-- Behind a backslash, where only blanks may stand before the end of the line. -/
  | started
  /-- Behind a folded line end, where blanks and further line ends are skipped. -/
  | skipping
deriving DecidableEq

/-- The contents of a basic string of several lines. Up to two quotes may stand before the
closing ones. -/
def readBasicLines : LineFold → List Char → Scanned (List Char)
  | _, [] => .none
  | .started, c :: rest =>
    if c = ' ' ∨ c = '\t' ∨ (c = '\r' ∧ rest.head? = some '\n') then readBasicLines .started rest
    else if c = '\n' then readBasicLines .skipping rest
    else .none
  | .skipping, ' ' :: rest => readBasicLines .skipping rest
  | .skipping, '\t' :: rest => readBasicLines .skipping rest
  | .skipping, '\n' :: rest => readBasicLines .skipping rest
  | .skipping, '\r' :: '\n' :: rest => readBasicLines .skipping rest
  | _, '"' :: '"' :: '"' :: '"' :: '"' :: rest => some (['"', '"'], rest)
  | _, '"' :: '"' :: '"' :: '"' :: rest => some (['"'], rest)
  | _, '"' :: '"' :: '"' :: rest => some ([], rest)
  | _, '\\' :: 'u' :: a :: b :: c :: d :: rest =>
    (hexChar? [a, b, c, d]).bind fun x => keep x (readBasicLines .none rest)
  | _, '\\' :: 'U' :: a :: b :: c :: d :: e :: f :: g :: h :: rest =>
    (hexChar? [a, b, c, d, e, f, g, h]).bind fun x => keep x (readBasicLines .none rest)
  | _, '\\' :: c :: rest =>
    match escapedChar? c with
    | some x => keep x (readBasicLines .none rest)
    | .none => readBasicLines .started (c :: rest)
  | _, '\r' :: '\n' :: rest => keep '\n' (readBasicLines .none rest)
  | _, c :: rest =>
    if c = '\n' || (isPlain c && c ≠ '\\') then keep c (readBasicLines .none rest) else .none

/-- The contents of a literal string of several lines. Up to two quotes may stand before
the closing ones. -/
def readLiteralLines : List Char → Scanned (List Char)
  | [] => none
  | '\'' :: '\'' :: '\'' :: '\'' :: '\'' :: rest => some (['\'', '\''], rest)
  | '\'' :: '\'' :: '\'' :: '\'' :: rest => some (['\''], rest)
  | '\'' :: '\'' :: '\'' :: rest => some ([], rest)
  | '\r' :: '\n' :: rest => keep '\n' (readLiteralLines rest)
  | c :: rest => if c = '\n' || isPlain c then keep c (readLiteralLines rest) else none

def dropNewline : List Char → List Char
  | '\n' :: rest => rest
  | '\r' :: '\n' :: rest => rest
  | rest => rest

/-- A string of any kind with its quotes. -/
def readString : List Char → Scanned (List Char)
  | '"' :: '"' :: '"' :: rest => readBasicLines .none (dropNewline rest)
  | '"' :: rest => readBasic rest
  | '\'' :: '\'' :: '\'' :: rest => readLiteralLines (dropNewline rest)
  | '\'' :: rest => readLiteral rest
  | _ => none

end NodeProbe.Toml
