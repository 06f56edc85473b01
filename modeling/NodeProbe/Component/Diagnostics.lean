import NodeProbe.Component.Basic
import NodeProbe.Request.Statistics

/-!
# The diagnostics component

Shows the statistics of the node as read-only attributes and as a one-line summary.
A reset clears them.
-/
namespace NodeProbe.Diagnostics

def count (read : Statistics → UInt64) (s : Statistics) : Option Value := some (.unsigned (read s))

def table : Table Statistics :=
  (({} : Table Statistics)
    |>.readOnly "requests" .u64 (count (·.requests))
    |>.describe "Number of probe requests handled"
    |>.readOnly "commands_handled" .u64 (count (·.handled))
    |>.readOnly "commands_failed" .u64 (count (·.failed))
    |>.describe "Commands that failed and were skipped"
    |>.readOnly "last_handle_time_us" .u64 (count (·.lastMicros))
    |>.readOnly "min_handle_time_us" .u64 (·.leastMicros?.map .unsigned)
    |>.readOnly "max_handle_time_us" .u64 (count (·.mostMicros))
    |>.readOnly "avg_handle_time_us" .f64 (some <| .float ·.averageMicros)
    |>.readOnly "success_rate" .f64 (some <| .float ·.successRate)
    |>.operation {
      name := "summary"
      params := []
      returns := some .string
      description := some "One-line summary of the probe counters"
      run := fun _ => .ask fun s => .ok (some (.text s.summary)) })

end Diagnostics

def diagnostics : Component Statistics where
  name := "DIAG"
  className := "Diagnostics"
  surface := { own := Diagnostics.table }
  reset _ := .fresh

end NodeProbe
