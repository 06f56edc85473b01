import NodeProbe.Toml.Scalar

/-!
# Reading TOML

A document is a sequence of lines; each is blank, opens a table, or assigns a value to a
key. Arrays and inline tables nest to a limited depth, and so do dotted keys.
-/
namespace NodeProbe.Toml

/-- Tabs and spaces. -/
def isGap (c : Char) : Bool := c == ' ' || c == '\t'

def skipGap (cs : List Char) : List Char := cs.dropWhile isGap

def skipComment : List Char → List Char
  | '#' :: rest => rest.dropWhile isPlain
  | rest => rest

def newline? : List Char → Option (List Char)
  | '\n' :: rest => some rest
  | '\r' :: '\n' :: rest => some rest
  | _ => none

/-- The rest behind the end of a line, which may hold a comment and may be the last. -/
def endLine (cs : List Char) : Option (List Char) :=
  match skipComment (skipGap cs) with
  | [] => some []
  | rest => newline? rest

def isBareKey (c : Char) : Bool := c.isAlphanum || c == '-' || c == '_'

/-- One key, bare or quoted on one line. -/
def readKey (cs : List Char) : Scanned String :=
  match cs with
  | '"' :: rest => (readBasic rest).map fun (key, rest) => (.ofList key, rest)
  | '\'' :: rest => (readLiteral rest).map fun (key, rest) => (.ofList key, rest)
  | _ =>
    let key := cs.takeWhile isBareKey
    if key.isEmpty then none else some (.ofList key, cs.dropWhile isBareKey)

/-- Keys separated by dots, with gaps around them: all but the last, the last, and the rest.
At most `limit` keys are read. -/
def readPath : Nat → List Char → Scanned (List String × String)
  | 0, _ => none
  | limit + 1, cs =>
    (readKey (skipGap cs)).bind fun (key, rest) =>
      match skipGap rest with
      | '.' :: rest =>
        (readPath limit rest).map fun ((path, last), rest) => ((key :: path, last), rest)
      | rest => some (([], key), rest)

/-- How many keys a dotted key may have. -/
def pathLimit : Nat := 79

/-- How deep arrays and inline tables may nest. -/
def depthLimit : Nat := 79

def readPair (readValue : List Char → Scanned Toml) (cs : List Char) :
    Scanned ((List String × String) × Toml) :=
  (readPath pathLimit cs).bind fun (key, rest) =>
    match rest with
    | '=' :: rest => (readValue (skipGap rest)).map fun (v, rest) => ((key, v), rest)
    | _ => none

/-- Skips gaps, line ends and comments between the items of an array. -/
def skipBetween (inComment : Bool) : List Char → List Char
  | [] => []
  | c :: rest =>
    if c = '\n' then skipBetween false rest
    else if c = '\r' ∧ rest.head? = some '\n' then skipBetween inComment rest
    else if inComment then if isPlain c then skipBetween true rest else c :: rest
    else if c = '#' then skipBetween true rest
    else if isGap c then skipBetween false rest
    else c :: rest

/-- The items of an array up to its closing bracket, a comma between them and one allowed
behind the last. -/
def readItems (readValue : List Char → Scanned Toml) : Nat → List Char → Scanned (List Toml)
  | 0, _ => none
  | steps + 1, cs =>
    match skipBetween false cs with
    | ']' :: rest => some ([], rest)
    | cs =>
      (readValue cs).bind fun (v, rest) =>
        match skipBetween false rest with
        | ']' :: rest => some ([v], rest)
        | ',' :: rest => (readItems readValue steps rest).map fun (vs, rest) => (v :: vs, rest)
        | _ => none

def readPairs (readValue : List Char → Scanned Toml) : Nat → List Char → Fields → Scanned Fields
  | 0, _, _ => none
  | steps + 1, cs, fields =>
    (readPair readValue cs).bind fun (((path, key), v), rest) =>
      (assign path key v fields).bind fun fields =>
        match skipGap rest with
        | '\x7d' :: rest => some (fields, rest)
        | ',' :: rest => readPairs readValue steps rest fields
        | _ => none

def readValue : Nat → List Char → Scanned Toml
  | 0, cs => readScalar cs
  | depth + 1, cs =>
    match cs with
    | '[' :: rest =>
      (readItems (readValue depth) (rest.length + 1) rest).map fun (items, rest) =>
        (array items, rest)
    | '\x7b' :: rest =>
      match skipGap rest with
      | '\x7d' :: rest => some (table .inline [], rest)
      | rest =>
        (readPairs (readValue depth) (rest.length + 1) rest []).map fun (fields, rest) =>
          (table .inline fields, rest)
    | _ => readScalar cs

/-- A statement and the rest behind it, not yet behind the end of its line. -/
def readStatement (cs : List Char) : Scanned Statement :=
  match cs with
  | '[' :: '[' :: rest =>
    (readPath pathLimit rest).bind fun ((path, key), rest) =>
      match rest with
      | ']' :: ']' :: rest => some (.openElement path key, rest)
      | _ => none
  | '[' :: rest =>
    (readPath pathLimit rest).bind fun ((path, key), rest) =>
      match rest with
      | ']' :: rest => some (.openTable path key, rest)
      | _ => none
  | _ =>
    (readPair (readValue depthLimit) cs).map fun (((path, key), v), rest) =>
      (.assign path key v, rest)

def readStatements : Nat → List Char → Option (List Statement)
  | 0, cs => if cs.isEmpty then some [] else none
  | lines + 1, cs =>
    match skipGap cs with
    | [] => some []
    | start =>
      match endLine start with
      | some rest => readStatements lines rest
      | none =>
        (readStatement start).bind fun (statement, rest) =>
          (endLine rest).bind fun rest => (readStatements lines rest).map (statement :: ·)

def dropMark : List Char → List Char
  | '\ufeff' :: rest => rest
  | rest => rest

def read (text : String) : Option Fields :=
  let cs := dropMark text.toList
  (readStatements cs.length cs).bind fun statements => build statements [] []

end NodeProbe.Toml
