import NodeProbe.Number.Binary

/-!
# TOML values

A table remembers how it came to be, because that decides what may still be added to it.
-/
namespace NodeProbe

/-- How a table came to be. -/
inductive TableOrigin where
  /-- Written between braces; nothing can be added. -/
  | inline
  /-- Opened by a header of its own. -/
  | header
  /-- On the way to a table opened by a header. -/
  | implicit
  /-- On the way to a value with a dotted key. -/
  | dotted
deriving DecidableEq, Repr

inductive Toml where
  | string (s : String)
  | integer (n : Int64)
  | float (x : Number.Binary64)
  | boolean (b : Bool)
  /-- A date, a time or both, as written. -/
  | moment (text : String)
  | array (items : List Toml)
  | table (origin : TableOrigin) (fields : List (String × Toml))
  /-- An array of tables, each opened by a header. -/
  | tables (elements : List (List (String × Toml)))

namespace Toml

abbrev Fields := List (String × Toml)

/-- The fields with another value for a key that is there. -/
def replace (key : String) (v : Toml) : Fields → Fields
  | [] => []
  | f :: fs => if f.1 = key then (key, v) :: fs else f :: replace key v fs

/-- Walks down a path of keys and changes the table at its end. Tables that are missing
are added with the origin `made`. A dotted key does not walk through a table that has a
header. -/
def updateAt (made : TableOrigin) (change : TableOrigin → Fields → Option Fields) :
    List String → TableOrigin → Fields → Option Fields
  | [], origin, fields => change origin fields
  | key :: path, _, fields =>
    match fields.lookup key with
    | none =>
      (updateAt made change path made []).map fun inner => fields ++ [(key, .table made inner)]
    | some (.table origin inner) =>
      if origin = .inline || (made = .dotted && origin = .header) then none
      else (updateAt made change path origin inner).map fun inner =>
        replace key (.table origin inner) fields
    | some (.tables elements) =>
      elements.getLast?.bind fun inner =>
        (updateAt made change path .header inner).map fun inner =>
          replace key (.tables (elements.dropLast ++ [inner])) fields
    | some _ => none

/-- Adds a value under a key, which must be new. The table at the end of a dotted key must
itself come from a dotted key. -/
def assign (path : List String) (key : String) (v : Toml) (fields : Fields) : Option Fields :=
  updateAt .dotted (fun origin fields =>
    if (origin = .dotted) = path.isEmpty then none
    else if (fields.lookup key).isSome then none
    else some (fields ++ [(key, v)])) path .header fields

/-- Opens the table of a header, which may so far only be implicit. -/
def openTable (path : List String) (key : String) (fields : Fields) : Option Fields :=
  updateAt .implicit (fun _ fields =>
    match fields.lookup key with
    | none => some (fields ++ [(key, .table .header [])])
    | some (.table .implicit inner) => some (replace key (.table .header inner) fields)
    | some _ => none) path .header fields

/-- Opens one more table of an array of tables. -/
def openElement (path : List String) (key : String) (fields : Fields) : Option Fields :=
  updateAt .implicit (fun _ fields =>
    match fields.lookup key with
    | none => some (fields ++ [(key, .tables [[]])])
    | some (.tables elements) => some (replace key (.tables (elements ++ [[]])) fields)
    | some _ => none) path .header fields

inductive Statement where
  | openTable (path : List String) (key : String)
  | openElement (path : List String) (key : String)
  | assign (path : List String) (key : String) (v : Toml)

/-- Carries out statements in order; values go to the table opened last. -/
def build : List Statement → List String → Fields → Option Fields
  | [], _, fields => some fields
  | .openTable path key :: rest, _, fields =>
    (openTable path key fields).bind (build rest (path ++ [key]))
  | .openElement path key :: rest, _, fields =>
    (openElement path key fields).bind (build rest (path ++ [key]))
  | .assign path key v :: rest, current, fields =>
    (updateAt .implicit (fun _ => assign path key v) current .header fields).bind (build rest current)

end Toml

end NodeProbe
