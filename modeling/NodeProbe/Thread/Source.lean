import NodeProbe.Monitoring
import NodeProbe.Number.Binary

/-!
# Sources of thread statistics

A source lists the threads of a process, tells what it can measure, and answers for each
thread that still runs.
-/
namespace NodeProbe

open Number

/-- The scheduling state of a thread. -/
inductive ThreadState where
  | running | sleeping
  /-- Sleep that cannot be interrupted, usually for input or output. -/
  | diskSleep
  | stopped | zombie | dead | idle | unknown
deriving DecidableEq, Repr, Inhabited

namespace ThreadState

def ofChar : Char → ThreadState
  | 'R' => running
  | 'S' => sleeping
  | 'D' => diskSleep
  | 'T' | 't' => stopped
  | 'Z' => zombie
  | 'X' | 'x' => dead
  | 'I' => idle
  | _ => unknown

/-- The name in reports, which also orders the states. -/
def text : ThreadState → String
  | running => "RUNNING"
  | sleeping => "SLEEPING"
  | diskSleep => "DISK_SLEEP"
  | stopped => "STOPPED"
  | zombie => "ZOMBIE"
  | dead => "DEAD"
  | idle => "IDLE"
  | unknown => "UNKNOWN"

end ThreadState

/-- The statistics of one thread as its platform tells them. -/
structure ThreadInfo where
  name : String
  state : ThreadState
  /-- How often the thread was kept off the processor while it could run. -/
  blockedCount : UInt64 := 0
  blockedMillis : Binary64 := .zero false
  /-- How often the thread gave up the processor to wait. -/
  waitedCount : UInt64 := 0
  waitedMillis : Binary64 := .zero false
  /-- User and system time together. -/
  cpuNanos : UInt64 := 0
  userNanos : UInt64 := 0
deriving DecidableEq

structure ThreadSource where
  cpuSupported : Bool
  contentionSupported : Bool
  /-- The ids of all threads, in the order of their enumeration. -/
  ids : List UInt64
  /-- The statistics of a thread, absent when it has ended. -/
  info : UInt64 → Option ThreadInfo

namespace ThreadSource

def supports (source : ThreadSource) : MonitoringKind → Bool
  | .cpu => source.cpuSupported
  | .contention => source.contentionSupported

/-- A source with a fixed list of threads under given ids. A thread of the list may be
enumerated and yet have ended. -/
def ofList (cpuSupported contentionSupported : Bool) (threads : List (UInt64 × Option ThreadInfo)) :
    ThreadSource where
  cpuSupported := cpuSupported
  contentionSupported := contentionSupported
  ids := threads.map (·.1)
  info id := (threads.lookup id).join

def numbered (cpuSupported contentionSupported : Bool) (threads : List ThreadInfo) : ThreadSource :=
  ofList cpuSupported contentionSupported <|
    threads.zipIdx.map fun (info, i) => (UInt64.ofNat (i + 1), some info)

end ThreadSource

end NodeProbe
