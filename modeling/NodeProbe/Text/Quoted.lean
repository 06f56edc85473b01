import NodeProbe.Text.Printable

/-!
# Quoted text

A quotation stands between double quotes. Quotes and backslashes are escaped, the
usual control characters have their letters, and every other character without a
glyph of its own is shown by its number in hexadecimal.
-/
namespace NodeProbe.Text

def quoteChar (c : Char) : List Char :=
  match c with
  | '"' => ['\\', '"']
  | '\\' => ['\\', '\\']
  | '\t' => ['\\', 't']
  | '\r' => ['\\', 'r']
  | '\n' => ['\\', 'n']
  | '\x00' => ['\\', '0']
  | c =>
    if isPrintable c then [c]
    else ['\\', 'u', '\x7b'] ++ Nat.toDigits 16 c.toNat ++ ['\x7d']

/-- A text between quotes, with whatever does not print escaped. -/
def quoted (s : String) : String :=
  .ofList ('"' :: s.toList.flatMap quoteChar ++ ['"'])

def quotedList (items : List String) : String :=
  "[" ++ ", ".intercalate (items.map quoted) ++ "]"

end NodeProbe.Text
