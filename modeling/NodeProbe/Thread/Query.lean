import NodeProbe.Failure
import NodeProbe.Number.Integer
import NodeProbe.Text.Blank
import NodeProbe.Text.Cut

/-!
# Thread queries

The argument of the `threads` command: a sort key and, after an equals sign, a limit on
the number of rows.
-/
namespace NodeProbe

/-- What a thread report is sorted by. -/
inductive SortKey where
  /-- By name, ascending. -/
  | name
  /-- By the name of the state, ascending. -/
  | state
  /-- By CPU time, descending; the remaining keys are descending too. -/
  | cpu
  | user
  | blocks
  | blockTime
  | waits
  | waitTime
deriving DecidableEq, Repr, Inhabited

/-- The words that begin a sort key. -/
def SortKey.leads : List (String × SortKey) :=
  [("state", .state), ("cpu", .cpu), ("user", .user), ("block", .blocks), ("btime", .blockTime),
    ("wait", .waits), ("wtime", .waitTime)]

/-- The sort key that a text begins with; any other text sorts by name. -/
def SortKey.ofText (text : String) : SortKey :=
  match SortKey.leads.find? fun (lead, _) => (text.dropLeading? lead).isSome with
  | some (_, key) => key
  | none => .name

structure ThreadQuery where
  sort : SortKey := .name
  /-- The limit on the number of rows, when the command gives one. -/
  limit : Option Int64 := none
deriving DecidableEq, Repr

namespace ThreadQuery

def readLimit (argument raw : String) : Except Failure Int64 :=
  match Number.readInt64 (Text.trim raw.toList) with
  | .ok limit => .ok limit
  | .error fault =>
    .error (.malformedCommand ("threads=" ++ argument)
      ("invalid limit " ++ Text.quoted raw ++ ": " ++ fault.message))

def read : Option String → Except Failure ThreadQuery
  | none => .ok {}
  | some argument =>
    match argument.cut? '=' with
    | none => .ok { sort := .ofText argument }
    | some (sort, raw) => do
      let limit ← readLimit argument raw
      return { sort := .ofText sort, limit := some limit }

end ThreadQuery

end NodeProbe
