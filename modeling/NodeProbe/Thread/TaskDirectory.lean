import NodeProbe.File.Tree
import NodeProbe.Number.Integer
import NodeProbe.Text.Blank
import NodeProbe.Text.Cut
import NodeProbe.Thread.Source

/-!
# Task directories

A process lists its threads as directories named by thread id. Each holds a few files of
statistics; a file that is missing or is no text counts as unreadable. The files are
read as follows.

* `comm`: the name.
* `stat`: the state, and the user, system and input-output times in clock ticks.
* `status`: the counts of voluntary and involuntary switches.
* `schedstat`: the time spent in the run queue, in nanoseconds.
-/
namespace NodeProbe

open Number Text

structure StatFields where
  state : ThreadState
  userTicks : UInt64
  systemTicks : UInt64
  /-- Ticks spent waiting for input and output. -/
  ioTicks : UInt64
deriving DecidableEq, Repr

/-- Reads a `stat` file. The name stands in parentheses and may hold anything, so the
fields are counted from the last closing parenthesis. -/
def readStat? (content : String) : Option StatFields := do
  let fields := words (← afterLast ')' content.toList)
  let number (i : Nat) : Option UInt64 := fields[i]?.bind fun f => (readUInt64 f).toOption
  let letter ← (← fields[0]?).head?
  let userTicks ← number 11
  let systemTicks ← number 12
  return ⟨.ofChar letter, userTicks, systemTicks, (number 39).getD 0⟩

/-- The counts of voluntary and involuntary switches of a `status` file; a count that is
missing or no number is zero, and the last of several lines of a key counts. -/
def readSwitches (content : String) : UInt64 × UInt64 :=
  (lines content.toList).foldl (fun counts line =>
    match cut ':' line with
    | none => counts
    | some (key, raw) =>
      let count := (readUInt64 (trim raw)).toOption.getD 0
      if key = "voluntary_ctxt_switches".toList then (count, counts.2)
      else if key = "nonvoluntary_ctxt_switches".toList then (counts.1, count)
      else counts) (0, 0)

def readSchedule? (content : String) : Option (UInt64 × UInt64) :=
  match words content.toList with
  | run :: wait :: _ =>
    match readUInt64 run, readUInt64 wait with
    | .ok run, .ok wait => some (run, wait)
    | _, _ => none
  | _ => none

/-- An entry of a task directory: its name and the readable texts of its files. -/
structure TaskEntry where
  name : String
  stat : Option String := none
  comm : Option String := none
  status : Option String := none
  schedule : Option String := none
  /-- Whether there is a `schedstat` file, readable or not. -/
  hasSchedule : Bool := schedule.isSome
deriving DecidableEq, Repr

def TaskEntry.ofFiles (files : FileTree) (place : Place) (name : String) : TaskEntry :=
  let text (file : String) : Option String :=
    match files.get? (place ++ [name, file]) with
    | some (.file text?) => text?
    | _ => none
  { name
    stat := text "stat"
    comm := text "comm"
    status := text "status"
    schedule := text "schedstat"
    hasSchedule := (files.get? (place ++ [name, "schedstat"])).any (!·.isDirectory) }

def TaskEntry.listed (files : FileTree) (path : String) : List TaskEntry :=
  match files.find? path with
  | none => []
  | some place => (files.names place).map (TaskEntry.ofFiles files place)

def taskId? (name : String) : Option UInt64 := (readUInt64 name.toList).toOption

/-- Clock ticks in nanoseconds. The product is cut to 64 bits before it is divided. -/
def ticksToNanos (rate ticks : UInt64) : UInt64 :=
  UInt64.ofNat (min (ticks.toNat * 1000000000) maxUInt64 / rate.toNat)

def ticksToMillis (rate ticks : UInt64) : Binary64 :=
  .ofNat ticks.toNat * .ofNat 1000 / .ofNat rate.toNat

/-- The statistics of the thread whose files an entry holds. Without a readable `stat`
file the thread has ended. -/
def TaskEntry.info? (entry : TaskEntry) (rate : UInt64) : Option ThreadInfo := do
  let stat ← readStat? (← entry.stat)
  let name := match entry.comm with
    | some text => .ofList (trimEnd text.toList)
    | none => ""
  let (voluntary, involuntary) := match entry.status with
    | some text => readSwitches text
    | none => (0, 0)
  let queued := ((entry.schedule.bind readSchedule?).map (·.2)).getD 0
  return {
    name
    state := stat.state
    blockedCount := involuntary
    blockedMillis := .ofNat queued.toNat / .ofNat 1000000
    waitedCount := voluntary
    waitedMillis := ticksToMillis rate stat.ioTicks
    cpuNanos := ticksToNanos rate (stat.userTicks + stat.systemTicks)
    userNanos := ticksToNanos rate stat.userTicks }

/-- The clock rate of a platform that does not tell. -/
def defaultClockRate : UInt64 := 100

/-- The source over a task directory whose entries are listed in some order. Processor
times can be measured when there is a task, and contention times when the first task
has a `schedstat` file. -/
def ThreadSource.ofTasks (entries : List TaskEntry) (rate : UInt64 := defaultClockRate) :
    ThreadSource where
  cpuSupported := (entries.find? fun e => (taskId? e.name).isSome).isSome
  contentionSupported := match entries.find? fun e => (taskId? e.name).isSome with
    | some first => first.hasSchedule
    | none => false
  ids := (entries.filterMap fun e => taskId? e.name).mergeSort fun a b => a ≤ b
  info id := (entries.find? fun e => e.name == id.toNat.repr).bind fun e => e.info? (max rate 1)

end NodeProbe
