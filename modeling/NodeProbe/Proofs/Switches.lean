import Mathlib.Data.List.Induction
import NodeProbe.Proofs.Routing

/-!
# Switches of monitoring

No verb that is tried before the switches claims one, and no other token throws one. So a
kind of monitoring is as its last switch left it, if the platform can measure it at all. The
answer to a switch tells whether a snapshot takes the times of that kind or hides them.
-/
namespace NodeProbe

open Number

variable {σ : Type}

/-! ## Tokens that are switches -/

namespace Verb

end Verb

/-! ## Flags after a run -/

namespace Node

end Node

/-! ## What a snapshot shows -/

def ThreadRow.times (row : ThreadRow) : MonitoringKind → Binary64 × Binary64
  | .cpu => (row.cpuMillis, row.userMillis)
  | .contention => (row.blockMillis, row.waitMillis)

def ThreadInfo.times (info : ThreadInfo) : MonitoringKind → Binary64 × Binary64
  | .cpu => (millisOfNanos info.cpuNanos, millisOfNanos info.userNanos)
  | .contention => (info.blockedMillis, info.waitedMillis)

namespace ThreadSource

def MeasuresAs (source source' : ThreadSource) : Prop :=
  ∀ kind, source.supports kind = source'.supports kind

variable {source : ThreadSource} {flags : MonitoringFlags} {kind : MonitoringKind}

theorem MeasuresAs.shows_eq {source' : ThreadSource} (h : source.MeasuresAs source')
    (flags : MonitoringFlags) (kind : MonitoringKind) :
    source.shows flags kind = source'.shows flags kind := by
  unfold shows
  rw [h kind]

end ThreadSource

end NodeProbe
