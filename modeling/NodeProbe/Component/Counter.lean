import NodeProbe.Component.Basic
import NodeProbe.Number.Word

/-!
# The counter component

A counter with a step, an overflow mode and a label, and a bounded history of the
values that its additions produced.
-/
namespace NodeProbe.Counter

/-- What an addition does at the limits of 64 bits. -/
inductive Mode where
  | saturating
  | wrapping
deriving DecidableEq, Repr, Inhabited

def Mode.text : Mode → String
  | .saturating => "Saturating"
  | .wrapping => "Wrapping"

def Mode.type : ValueType := .enum "CounterMode" ["Saturating", "Wrapping"]

def Mode.ofText (s : String) : Except Failure Mode :=
  if s = "Saturating" then .ok .saturating
  else if s = "Wrapping" then .ok .wrapping
  else .error (.operation ("unknown mode " ++ s))

structure State where
  count : Int64 := 0
  step : UInt64 := 1
  mode : Mode := .saturating
  label : String := ""
  /-- How many values the history keeps. -/
  capacity : UInt64 := 8
  /-- The values produced by additions, the oldest first. -/
  history : List Int64 := []
deriving DecidableEq, Repr, Inhabited

def lastItems {α : Type} (n : Nat) (items : List α) : List α := items.drop (items.length - n)

def saturatingAdd (a b : Int64) : Int64 := Number.clampInt64 (a.toInt + b.toInt)

def Mode.add : Mode → Int64 → Int64 → Int64
  | .saturating, a, b => saturatingAdd a b
  | .wrapping, a, b => a + b

namespace State

/-- Adds to the count and appends the new count to the history. -/
def add (s : State) (delta : Int64) : State :=
  let next := s.mode.add s.count delta
  { s with count := next, history := lastItems s.capacity.toNat (s.history ++ [next]) }

def increment (s : State) : State := s.add s.step.toInt64

def setCapacity (s : State) (capacity : UInt64) : State :=
  { s with capacity, history := lastItems capacity.toNat s.history }

def setStep (s : State) (step : UInt64) : Except Failure State :=
  if step = 0 then .error (.operation "step must be positive") else .ok { s with step }

def clear (s : State) : State := { s with count := 0, history := [] }

end State

/-- A setter that reads the value in one form and computes the next state. -/
def setter {α : Type} (read : Value → Except Failure α)
    (next : State → α → Except Failure State) (v : Value) : Action State Unit :=
  .atomic fun s => do
    let a ← read v
    return ((), ← next s a)

/-- An addition as an operation result: the count that it leaves. -/
def added (s : State) : Option Value × State := (some (.signed s.count), s)

def argument : List Value → Value
  | v :: _ => v
  | [] => .list []

def table : Table State :=
  (({} : Table State)
    |>.field "count" .i64 (some <| .signed ·.count)
      (setter Value.asInt64 fun s count => .ok { s with count })
    |>.accessor "step" .u32 (some <| .unsigned ·.step) (setter Value.asUInt64 State.setStep)
    |>.describe "Amount added by increment()"
    |>.field "mode" Mode.type (some <| .enum ·.mode.text)
      (setter Value.asText fun s name => do return { s with mode := ← Mode.ofText name })
    |>.field "label" .string (fun s => if s.label = "" then none else some (.text s.label))
      (setter Value.asText fun s label => .ok { s with label })
    |>.operation {
      name := "increment", params := [], returns := some .i64
      run := fun _ => .atomic fun s => .ok (added s.increment) }
    |>.operation {
      name := "add", params := [.i64], returns := some .i64
      run := fun args => .atomic fun s => (argument args).asInt64.map fun d => added (s.add d) }
    |>.operation {
      name := "reset", params := []
      run := fun _ => .atomic fun s => .ok (none, { s with count := 0 }) })

def historyTable : Table State :=
  (({} : Table State)
    |>.field "capacity" .usize (some <| .unsigned ·.capacity)
      (setter Value.asUInt64 fun s capacity => .ok (s.setCapacity capacity))
    |>.readOnly "recent" (.list .i64) (fun s => some (.list (s.history.map .signed)))
    |>.operation {
      name := "clear", params := []
      run := fun _ => .atomic fun s => .ok (none, { s with history := [] }) })

end Counter

def counter : Component Counter.State where
  name := "COUNTER"
  className := "Counter"
  surface := ({ own := Counter.table } : Surface Counter.State).withPart "history" Counter.historyTable
  reset := Counter.State.clear

end NodeProbe
