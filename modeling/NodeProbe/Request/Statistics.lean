import NodeProbe.Number.Decimal

/-!
# Request statistics

Counters of the requests and commands a node has handled, and the times of the
requests in microseconds.
-/
namespace NodeProbe

open Number

structure Statistics where
  /-- Finished requests. -/
  requests : UInt64 := 0
  /-- Commands that completed without a failure. -/
  handled : UInt64 := 0
  /-- Commands that failed and were skipped. -/
  failed : UInt64 := 0
  totalMicros : UInt64 := 0
  /-- The time of the most recent request. -/
  lastMicros : UInt64 := 0
  /-- The least time so far; before the first request it is above every other. -/
  leastMicros : UInt64 := 18446744073709551615
  mostMicros : UInt64 := 0
deriving DecidableEq, Repr, Inhabited

namespace Statistics

def record (s : Statistics) (micros handled failed : UInt64) : Statistics where
  requests := s.requests + 1
  handled := s.handled + handled
  failed := s.failed + failed
  totalMicros := s.totalMicros + micros
  lastMicros := micros
  leastMicros := min s.leastMicros micros
  mostMicros := max s.mostMicros micros

def fresh : Statistics := {}

/-- The least time, if there was a request. -/
def leastMicros? (s : Statistics) : Option UInt64 :=
  if 0 < s.requests then some s.leastMicros else none

/-- The mean time of a request, zero before the first. -/
def averageMicros (s : Statistics) : Binary64 :=
  if s.requests = 0 then .zero false
  else .ofNat s.totalMicros.toNat / .ofNat s.requests.toNat

def commands (s : Statistics) : UInt64 := s.handled + s.failed

/-- The share of commands that completed, in percent; all of none. -/
def successRate (s : Statistics) : Binary64 :=
  if s.commands = 0 then .ofNat 100
  else .ofNat s.handled.toNat / .ofNat s.commands.toNat * .ofNat 100

def summary (s : Statistics) : String :=
  "requests=" ++ s.requests.toNat.repr ++ " commands=" ++ s.commands.toNat.repr ++
    " failed=" ++ s.failed.toNat.repr ++ " success=" ++ s.successRate.textWithOnePlace ++
    "% avg=" ++ s.averageMicros.textWithOnePlace ++ "us max=" ++ s.mostMicros.toNat.repr ++ "us"

end Statistics

end NodeProbe
