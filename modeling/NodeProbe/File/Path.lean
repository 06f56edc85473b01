/-!
# Paths

A path is cut at its slashes. Empty parts and single dots lead nowhere, two dots lead
upwards, and every other part is a name. A path that begins with a slash starts at the
root, any other at the current directory.
-/
namespace NodeProbe.Path

def parts (path : String) : List String := (path.toList.splitOn '/').map .ofList

def isAbsolute (path : String) : Bool := path.toList.head? == some '/'

/-- The parts of a path that lead somewhere. -/
def steps (path : String) : List String := (parts path).filter fun part => part ≠ "" ∧ part ≠ "."

/-- The last name of a path, unless the path ends upwards or at its start. -/
def fileName? (path : String) : Option String := (steps path).getLast?.filter (· ≠ "..")

/-- The path of the directory that holds the last name of a path. -/
def directory (path : String) : String :=
  (if isAbsolute path then "/" else "./") ++ "/".intercalate (steps path).dropLast

end NodeProbe.Path
