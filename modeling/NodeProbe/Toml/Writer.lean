import NodeProbe.Document
import NodeProbe.Toml.Text

/-!
# Writing TOML

A string takes the first form that shows it without escapes: basic on one line, literal
on one line, basic over several lines, literal over several lines. When there is none it
is basic with escapes. A document has a line for each setting, and sections stand behind their
headers with a blank line between them.
-/
namespace NodeProbe.Toml

/-- Control characters other than tab and line end, which only an escape can show. -/
def isControl (c : Char) : Bool := (c < ' ' && c ≠ '\t' && c ≠ '\n') || c == '\x7f'

def hasTriple (quote : Char) : List Char → Bool
  | a :: b :: c :: cs =>
    (a == quote && b == quote && c == quote) || hasTriple quote (b :: c :: cs)
  | _ => false

inductive StringForm where
  | basic | literal | basicLines | literalLines
deriving DecidableEq, Repr

/-- The basic form that a text with escapes takes. -/
def StringForm.escaped (cs : List Char) : StringForm := if '\n' ∈ cs then basicLines else basic

def StringForm.of (cs : List Char) : StringForm :=
  if cs.any isControl then escaped cs
  else if '\n' ∉ cs ∧ '"' ∉ cs ∧ '\\' ∉ cs then basic
  else if '\n' ∉ cs ∧ '\'' ∉ cs then literal
  else if '\\' ∉ cs ∧ !hasTriple '"' cs then basicLines
  else if !hasTriple '\'' cs then literalLines
  else escaped cs

def fourDigits (n : Nat) : List Char :=
  let digits := (Nat.toDigits 16 n).map Char.toUpper
  List.replicate (4 - digits.length) '0' ++ digits

def escape (c : Char) : List Char :=
  match c with
  | '\x08' => ['\\', 'b']
  | '\t' => ['\\', 't']
  | '\n' => ['\\', 'n']
  | '\x0c' => ['\\', 'f']
  | '\r' => ['\\', 'r']
  | '"' => ['\\', '"']
  | '\\' => ['\\', '\\']
  | c => if isControl c then '\\' :: 'u' :: fourDigits c.toNat else [c]

/-- How a text is written in a basic string over several lines, behind `quotes` quotes in
a row. Line ends stand as they are, and so do two quotes in a row. -/
def escapeLines : Nat → List Char → List Char
  | _, [] => []
  | quotes, c :: cs =>
    if c = '\n' then c :: escapeLines 0 cs
    else if c = '"' ∧ quotes < 2 then c :: escapeLines (quotes + 1) cs
    else escape c ++ escapeLines 0 cs

/-- The line end behind the opening quotes of a text of several lines. -/
def openingLine (cs : List Char) : List Char := if '\n' ∈ cs then ['\n'] else []

def writeString (cs : List Char) : List Char :=
  match StringForm.of cs with
  | .basic => ['"'] ++ cs.flatMap escape ++ ['"']
  | .literal => ['\''] ++ cs ++ ['\'']
  | .basicLines => ['"', '"', '"'] ++ openingLine cs ++ escapeLines 0 cs ++ ['"', '"', '"']
  | .literalLines => ['\'', '\'', '\''] ++ openingLine cs ++ cs ++ ['\'', '\'', '\'']

inductive Line where
  | blank
  | header (key : String)
  | assign (key : String) (setting : Setting)

def writeSetting : Setting → List Char
  | .text s => writeString s.toList
  | .size n => Nat.toDigits 10 n.toNat
  | .flag true => ['t', 'r', 'u', 'e']
  | .flag false => ['f', 'a', 'l', 's', 'e']

def Line.written : Line → List Char
  | blank => []
  | header key => '[' :: key.toList ++ [']']
  | assign key setting => key.toList ++ ' ' :: '=' :: ' ' :: writeSetting setting

def settingLines (settings : Settings) : List Line := settings.map fun s => .assign s.1 s.2

def sectionLines (sections : List (String × Settings)) : List Line :=
  sections.flatMap fun s => .blank :: .header s.1 :: settingLines s.2

/-- The lines of a document, which does not begin with a blank one. -/
def documentLines (d : Document) : List Line :=
  match d.settings with
  | [] => (sectionLines d.sections).tail
  | settings => settingLines settings ++ sectionLines d.sections

/-- The text of a document, whose keys are taken to be bare. -/
def write (d : Document) : Except String String :=
  if d.fits then .ok (.ofList ((documentLines d).flatMap (·.written ++ ['\n'])))
  else .error "out-of-range value for u64 type"

end NodeProbe.Toml
