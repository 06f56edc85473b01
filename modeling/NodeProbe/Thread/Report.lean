import NodeProbe.Number.Decimal
import NodeProbe.Text.Column
import NodeProbe.Thread.Query
import NodeProbe.Thread.Source

/-!
# Thread reports

A report samples every thread that still runs, sorts the rows, cuts them at a limit and
writes a table with a column per figure. Times that are switched off or cannot be
measured are taken as `-1` before anything else happens to them.
-/
namespace NodeProbe

open Number Text

/-- One thread at the time of sampling. Times are in milliseconds. -/
structure ThreadRow where
  id : UInt64
  name : String
  state : ThreadState
  blocks : UInt64
  blockMillis : Binary64
  waits : UInt64
  waitMillis : Binary64
  cpuMillis : Binary64
  userMillis : Binary64
deriving DecidableEq

/-- Stands for a time that is not shown. -/
def hiddenTime : Binary64 := .ofInt (-1)

def millisOfNanos (nanos : UInt64) : Binary64 := .ofNat nanos.toNat / .ofNat 1000000

/-- The row of a thread; each kind of time is shown or hidden. -/
def ThreadRow.ofInfo (showCpu showContention : Bool) (id : UInt64) (info : ThreadInfo) : ThreadRow where
  id := id
  name := info.name
  state := info.state
  blocks := info.blockedCount
  blockMillis := if showContention then info.blockedMillis else hiddenTime
  waits := info.waitedCount
  waitMillis := if showContention then info.waitedMillis else hiddenTime
  cpuMillis := if showCpu then millisOfNanos info.cpuNanos else hiddenTime
  userMillis := if showCpu then millisOfNanos info.userNanos else hiddenTime

/-- Whether a kind of time is measured and switched on. -/
def ThreadSource.shows (source : ThreadSource) (flags : MonitoringFlags) (kind : MonitoringKind) : Bool :=
  source.supports kind && flags.isEnabled kind

/-- Samples all threads; those that ended since their enumeration are left out. -/
def ThreadSource.snapshot (source : ThreadSource) (flags : MonitoringFlags) : List ThreadRow :=
  source.ids.filterMap fun id => (source.info id).map
    (ThreadRow.ofInfo (source.shows flags .cpu) (source.shows flags .contention) id)

/-- Whether the first row may stand before the second. -/
def SortKey.le (key : SortKey) (a b : ThreadRow) : Bool :=
  match key with
  | .name => a.name ≤ b.name
  | .state => a.state.text ≤ b.state.text
  | .cpu => b.cpuMillis.totalOrderKey ≤ a.cpuMillis.totalOrderKey
  | .user => b.userMillis.totalOrderKey ≤ a.userMillis.totalOrderKey
  | .blocks => b.blocks ≤ a.blocks
  | .blockTime => b.blockMillis.totalOrderKey ≤ a.blockMillis.totalOrderKey
  | .waits => b.waits ≤ a.waits
  | .waitTime => b.waitMillis.totalOrderKey ≤ a.waitMillis.totalOrderKey

/-- The width of the name column: one more than the longest name, which counts up to a
cap. -/
def nameWidth (rows : List ThreadRow) (cap : Nat) : Nat :=
  min ((rows.map (·.name.length)).foldl max 0) cap + 1

def millisText (millis : Binary64) : String := groupThousands millis.toInt64

/-- A count, taken as a signed number of 64 bits. -/
def countText (count : UInt64) : String := groupThousands count.toInt64

def headerLine (width : Nat) : String :=
  "[state]   \t" ++ padEnd width "thread-name" ++ ": " ++ padStart 10 "cpu (ms)" ++ " " ++
    padStart 10 "user (ms)" ++ " " ++ padStart 6 "block" ++ " " ++ padStart 9 "btime (ms)" ++ " " ++
    padStart 10 "wait" ++ " " ++ padStart 10 "wtime (ms)"

def ThreadRow.line (row : ThreadRow) (width : Nat) : String :=
  "[" ++ row.state.text ++ "]\t" ++ padEnd width row.name ++ ": " ++
    padStart 8 (millisText row.cpuMillis) ++ " " ++ padStart 8 (millisText row.userMillis) ++ " " ++
    padStart 10 (countText row.blocks) ++ " " ++ padStart 9 (millisText row.blockMillis) ++ " " ++
    padStart 10 (countText row.waits) ++ " " ++ padStart 10 (millisText row.waitMillis)

/-- The table: an empty line, the header and a line per row. -/
def renderRows (rows : List ThreadRow) (width : Nat) : String :=
  "\n" ++ headerLine width ++ "\n" ++ String.join (rows.map (·.line width ++ "\n"))

/-- How rows are laid out when a command does not say. -/
structure ReportLayout where
  /-- The cap on the width of the name column. -/
  maxNameWidth : UInt64 := 50
  /-- The limit on the number of rows; zero for all. -/
  defaultLimit : UInt64 := 0
deriving DecidableEq, Repr, Inhabited

def ReportLayout.inspect (layout : ReportLayout) : String :=
  "ThreadReportConfig \x7b max_name_width: " ++ layout.maxNameWidth.toNat.repr ++
    ", default_limit: " ++ layout.defaultLimit.toNat.repr ++ " \x7d"

/-- At most `limit` rows; all of them when the limit is not positive. -/
def cutRows (limit : Int64) (rows : List ThreadRow) : List ThreadRow :=
  if 0 < limit then rows.take limit.toInt.toNat else rows

/-- The rows of a report in their order. Rows that compare equal keep the order of
enumeration. -/
def reportRows (query : ThreadQuery) (layout : ReportLayout) (rows : List ThreadRow) : List ThreadRow :=
  cutRows (query.limit.getD layout.defaultLimit.toInt64) (rows.mergeSort query.sort.le)

/-- The report of a query. The name column is as wide as all threads need, shown or not. -/
def ThreadSource.report (source : ThreadSource) (flags : MonitoringFlags) (query : ThreadQuery)
    (layout : ReportLayout) : String :=
  let rows := source.snapshot flags
  renderRows (reportRows query layout rows) (nameWidth rows layout.maxNameWidth.toNat)

end NodeProbe
