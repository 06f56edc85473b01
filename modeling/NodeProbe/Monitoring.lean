/-!
# Monitoring flags

Two kinds of thread times can be switched on and off while a node runs.
-/
namespace NodeProbe

inductive MonitoringKind where
  /-- CPU and user time. -/
  | cpu
  /-- Blocked and waited times. -/
  | contention
deriving DecidableEq, Repr, Inhabited

def MonitoringKind.text : MonitoringKind → String
  | .cpu => "CPU"
  | .contention => "contention"

structure MonitoringFlags where
  cpu : Bool := true
  contention : Bool := false
deriving DecidableEq, Repr, Inhabited

namespace MonitoringFlags

def isEnabled (flags : MonitoringFlags) : MonitoringKind → Bool
  | .cpu => flags.cpu
  | .contention => flags.contention

def set (flags : MonitoringFlags) (kind : MonitoringKind) (enabled : Bool) : MonitoringFlags :=
  match kind with
  | .cpu => { flags with cpu := enabled }
  | .contention => { flags with contention := enabled }

def inspect (flags : MonitoringFlags) : String :=
  "MonitoringFlags \x7b cpu: " ++ toString flags.cpu ++ ", contention: " ++
    toString flags.contention ++ " \x7d"

end MonitoringFlags

end NodeProbe
