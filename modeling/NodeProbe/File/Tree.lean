import NodeProbe.File.Path

/-!
# File trees

A tree of directories and files, kept as the list of its places. Paths are followed part
by part, and only a directory can be passed through. A file is created together with the
directories on the way to it.
-/
namespace NodeProbe

/-- The names from the root to a directory or a file. -/
abbrev Place := List String

inductive FileEntry where
  /-- A directory, and whether entries can be created in it. -/
  | directory (isOpen : Bool)
  /-- A file and its text, absent when its bytes are no text. -/
  | file (text? : Option String)
deriving DecidableEq, Repr

def FileEntry.isDirectory : FileEntry → Bool
  | directory _ => true
  | file _ => false

/-- The places below the root and what stands there, in the order of creation. -/
structure FileTree where
  entries : List (Place × FileEntry) := []
  /-- The current directory. -/
  current : Place := []
deriving Repr

namespace FileTree

/-- The longest name in bytes. -/
def nameLimit : Nat := 255

/-- The longest path in bytes. -/
def pathLimit : Nat := 4095

def isName (name : String) : Bool := !name.contains '\x00' && name.utf8ByteSize ≤ nameLimit

/-- What stands at a place. The root is an open directory. -/
def get? (tree : FileTree) (place : Place) : Option FileEntry :=
  if place = [] then some (.directory true) else tree.entries.lookup place

def put (tree : FileTree) (place : Place) (entry : FileEntry) : FileTree :=
  { tree with entries :=
      if (tree.get? place).isSome then
        tree.entries.map fun (p, old) => (p, if p = place then entry else old)
      else tree.entries ++ [(place, entry)] }

/-- Creates an entry in a directory, if it is open and the name can be given. -/
def create? (tree : FileTree) (place : Place) (name : String) (entry : FileEntry) :
    Option FileTree :=
  if tree.get? place = some (.directory true) && isName name then
    some (tree.put (place ++ [name]) entry)
  else none

def start (tree : FileTree) (path : String) : Place :=
  if Path.isAbsolute path then [] else tree.current

def follow (tree : FileTree) (place : Place) (part : String) : Option Place :=
  if !((tree.get? place).any FileEntry.isDirectory) then none
  else if part = "" ∨ part = "." then some place
  else if part = ".." then some place.dropLast
  else if (tree.get? (place ++ [part])).isSome then some (place ++ [part])
  else none

/-- Whether the system takes a path at all. -/
def isPath (path : String) : Bool := path ≠ "" && path.utf8ByteSize ≤ pathLimit

def find? (tree : FileTree) (path : String) : Option Place :=
  if isPath path then (Path.parts path).foldlM tree.follow (tree.start path) else none

/-- Follows one part of a path, and creates a directory where nothing stands. -/
def enter (tree : FileTree) (place : Place) (part : String) : Option (FileTree × Place) :=
  match tree.follow place part with
  | some next => some (tree, next)
  | none => (tree.create? place part (.directory true)).map fun tree => (tree, place ++ [part])

def createDirectories? (tree : FileTree) (path : String) : Option (FileTree × Place) :=
  if isPath path then
    (Path.parts path).foldlM (fun (tree, place) part => tree.enter place part)
      (tree, tree.start path)
  else none

def text? (tree : FileTree) (path : String) : Option String := do
  match ← tree.get? (← tree.find? path) with
  | .file text? => text?
  | .directory _ => none

/-- Opens a file for appending, and creates it and its directory if they are missing. -/
def openToAppend? (tree : FileTree) (directory name : String) : Option FileTree := do
  let (tree, place) ← tree.createDirectories? directory
  match tree.get? (place ++ [name]) with
  | some (.file _) => return tree
  | some (.directory _) => none
  | none => tree.create? place name (.file (some ""))

/-- The names in the directory at a place, in the order of creation. -/
def names (tree : FileTree) (place : Place) : List String :=
  tree.entries.filterMap fun (p, _) =>
    if p.dropLast = place then p.getLast? else none

end FileTree

end NodeProbe
