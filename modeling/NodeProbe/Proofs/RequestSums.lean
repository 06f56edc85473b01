import Mathlib.Algebra.Order.BigOperators.Group.List
import Mathlib.Algebra.Order.Ring.Nat
import Mathlib.Data.List.DropRight
import Mathlib.Data.List.Induction
import NodeProbe.Request.Statistics

/-!
# What the statistics add up

Requests are recorded and the statistics are reset in any order. Whatever came before the last
reset, the counters sum up the records behind it, and are those of a fresh node if there are none.
-/
namespace NodeProbe

namespace Statistics

/-- One finished request: its time, and its commands that completed and that failed. -/
structure Record where
  micros : UInt64
  handled : UInt64
  failed : UInt64
deriving DecidableEq, Repr

inductive Step where
  | record (r : Record)
  | reset
deriving DecidableEq, Repr

namespace Step

def perform (s : Statistics) : Step → Statistics
  | record r => s.record r.micros r.handled r.failed
  | reset => .fresh

def record? : Step → Option Record
  | record r => some r
  | reset => none

end Step

def after (steps : List Step) : Statistics := steps.foldl Step.perform .fresh

/-- The records behind the last reset, or all if there was none. -/
def sinceReset (steps : List Step) : List Record :=
  (steps.rtakeWhile (·.record?.isSome)).filterMap Step.record?

theorem sinceReset_record (steps : List Step) (r : Record) :
    sinceReset (steps ++ [.record r]) = sinceReset steps ++ [r] := by
  unfold sinceReset
  rw [List.rtakeWhile_concat_pos _ _ _ rfl, List.filterMap_append]
  rfl

theorem sinceReset_reset (steps : List Step) : sinceReset (steps ++ [.reset]) = [] := by
  unfold sinceReset
  rw [List.rtakeWhile_concat_neg _ _ _ (by decide)]
  rfl

/-- The sum of one field of the records, as a number without a limit. -/
def total (field : Record → UInt64) (records : List Record) : Nat :=
  (records.map fun r => (field r).toNat).sum

theorem total_concat (field : Record → UInt64) (records : List Record) (r : Record) :
    UInt64.ofNat (total field (records ++ [r])) = .ofNat (total field records) + field r := by
  unfold total
  rw [List.map_append, List.sum_append, List.map_singleton, List.sum_singleton, UInt64.ofNat_add,
    UInt64.ofNat_toNat]

def times (records : List Record) : List Nat := records.map (·.micros.toNat)

theorem times_concat (records : List Record) (r : Record) :
    times (records ++ [r]) = times records ++ [r.micros.toNat] := List.map_append

theorem lt_of_mem_times {records : List Record} {time : Nat} (h : time ∈ times records) :
    time < 2 ^ 64 := by
  obtain ⟨r, -, rfl⟩ := List.mem_map.mp h
  exact r.micros.toNat_lt

theorem times_ne_nil {records : List Record} (h : records ≠ []) : times records ≠ [] :=
  mt List.map_eq_nil_iff.mp h

theorem exists_least {records : List Record} (h : records ≠ []) :
    ∃ least, (times records).min? = some least :=
  Option.isSome_iff_exists.mp (List.isSome_min?_of_ne_nil (times_ne_nil h))

/-- No sum of the records reaches the limit of a counter. -/
structure Fits (records : List Record) : Prop where
  requests : records.length < 2 ^ 64
  handled : total Record.handled records < 2 ^ 64
  failed : total Record.failed records < 2 ^ 64
  micros : total Record.micros records < 2 ^ 64

/-- The counters are the sums of the records, wrapped around; the least and the greatest time
start from the greatest word and from zero. -/
structure Summarizes (s : Statistics) (records : List Record) : Prop where
  requests : s.requests = .ofNat records.length
  handled : s.handled = .ofNat (total Record.handled records)
  failed : s.failed = .ofNat (total Record.failed records)
  micros : s.totalMicros = .ofNat (total Record.micros records)
  last : s.lastMicros.toNat = (times records).getLast?.getD 0
  least : s.leastMicros.toNat = (times records).foldl min (2 ^ 64 - 1)
  most : s.mostMicros.toNat = (times records).foldl max 0

namespace Summarizes

variable {s : Statistics} {records : List Record}

theorem fresh : Summarizes .fresh [] where
  requests := rfl
  handled := rfl
  failed := rfl
  micros := rfl
  last := rfl
  least := rfl
  most := rfl

/-- One more record is added to all sums and compared with both extremes. -/
theorem record (h : s.Summarizes records) (r : Record) :
    (s.record r.micros r.handled r.failed).Summarizes (records ++ [r]) := by
  constructor
  · show s.requests + 1 = _
    rw [h.requests, List.length_append, UInt64.ofNat_add]
    rfl
  · show s.handled + r.handled = _
    rw [h.handled, total_concat]
  · show s.failed + r.failed = _
    rw [h.failed, total_concat]
  · show s.totalMicros + r.micros = _
    rw [h.micros, total_concat]
  · rw [times_concat, List.getLast?_concat]
    rfl
  · show (min s.leastMicros r.micros).toNat = _
    rw [UInt64.toNat_min, h.least, times_concat, List.foldl_concat]
  · show (max s.mostMicros r.micros).toNat = _
    rw [UInt64.toNat_max, h.most, times_concat, List.foldl_concat]

theorem perform {steps : List Step} (h : s.Summarizes (sinceReset steps)) (step : Step) :
    (step.perform s).Summarizes (sinceReset (steps ++ [step])) := by
  cases step with
  | record r =>
    rw [sinceReset_record]
    exact h.record r
  | reset =>
    rw [sinceReset_reset]
    exact .fresh

theorem mostMicros (h : s.Summarizes records) :
    s.mostMicros.toNat = (times records).max?.getD 0 := by
  rw [h.most, List.foldl_max, Nat.zero_max]

/-- The start value, the largest word, is never below a time. -/
theorem leastMicros (h : s.Summarizes records) {least : Nat}
    (hleast : (times records).min? = some least) : s.leastMicros.toNat = least := by
  have hlt := lt_of_mem_times (List.min?_mem hleast)
  rw [h.least, List.foldl_min, hleast, Option.getD_some]
  omega

section

variable (h : s.Summarizes records) (hfits : Fits records)
include h hfits

theorem requests_toNat : s.requests.toNat = records.length := by
  rw [h.requests]
  exact UInt64.toNat_ofNat_of_lt' hfits.requests

theorem handled_toNat : s.handled.toNat = total Record.handled records := by
  rw [h.handled]
  exact UInt64.toNat_ofNat_of_lt' hfits.handled

theorem failed_toNat : s.failed.toNat = total Record.failed records := by
  rw [h.failed]
  exact UInt64.toNat_ofNat_of_lt' hfits.failed

theorem totalMicros_toNat : s.totalMicros.toNat = (times records).sum := by
  rw [h.micros]
  exact UInt64.toNat_ofNat_of_lt' hfits.micros

theorem leastMicros? : s.leastMicros?.map UInt64.toNat = (times records).min? := by
  have hsome : 0 < s.requests ↔ records ≠ [] := by
    rw [UInt64.lt_iff_toNat_lt, h.requests_toNat hfits]
    exact List.length_pos_iff
  unfold Statistics.leastMicros?
  by_cases hrecords : records = []
  · rw [if_neg (mt hsome.mp (not_not_intro hrecords)), hrecords]
    rfl
  · obtain ⟨least, hleast⟩ := exists_least hrecords
    rw [if_pos (hsome.mpr hrecords), Option.map_some, h.leastMicros hleast, hleast]

/-- The last time is one of the times, and each of them counts once for the sum, so the bounds of
all times hold of the last one and of the mean. -/
theorem bounds (hrecords : records ≠ []) : ∃ least, s.leastMicros? = some least ∧
    least ≤ s.lastMicros ∧ s.lastMicros ≤ s.mostMicros ∧
    s.requests.toNat * least.toNat ≤ s.totalMicros.toNat ∧
    s.totalMicros.toNat ≤ s.requests.toNat * s.mostMicros.toNat := by
  have hlength : (times records).length = records.length := List.length_map _
  have hlast : s.lastMicros.toNat ∈ times records := by
    rw [h.last, List.getLast?_eq_some_getLast (times_ne_nil hrecords)]
    exact List.getLast_mem (times_ne_nil hrecords)
  have hmost : ∀ time ∈ times records, time ≤ s.mostMicros.toNat := by
    intro time htime
    rw [h.mostMicros]
    exact List.le_max?_getD_of_mem htime
  obtain ⟨least, hleast⟩ := exists_least hrecords
  obtain ⟨-, hle⟩ := List.min?_eq_some_iff.mp hleast
  obtain ⟨word, hword, rfl⟩ := Option.map_eq_some_iff.mp ((h.leastMicros? hfits).trans hleast)
  refine ⟨word, hword, ?_, ?_, ?_, ?_⟩
  · exact UInt64.le_iff_toNat_le.mpr (hle _ hlast)
  · exact UInt64.le_iff_toNat_le.mpr (hmost _ hlast)
  · rw [h.requests_toNat hfits, h.totalMicros_toNat hfits, ← hlength]
    exact List.card_nsmul_le_sum _ _ hle
  · rw [h.requests_toNat hfits, h.totalMicros_toNat hfits, ← hlength]
    exact List.sum_le_card_nsmul _ _ hmost

end

end Summarizes

/-- The counters summarize what was recorded since the last reset. -/
theorem after_summarizes (steps : List Step) : (after steps).Summarizes (sinceReset steps) := by
  induction steps using List.reverseRecOn with
  | nil => exact .fresh
  | append_singleton steps step ih =>
    unfold after
    rw [List.foldl_concat]
    exact ih.perform step

end Statistics

open Statistics

/-- The statistics sum up the records behind the last reset, when none of these sums overflows:
what was recorded before leaves no trace. Before the first of these
records there is no least time; from it on, the last time is between the least and the greatest
one, and so is the mean. -/
theorem statistics_sum_up_since_reset (steps : List Step) (hfits : Fits (sinceReset steps)) :
    let records := sinceReset steps
    let s := after steps
    s.requests.toNat = records.length ∧
    s.handled.toNat = total Record.handled records ∧
    s.failed.toNat = total Record.failed records ∧
    s.totalMicros.toNat = (times records).sum ∧
    s.lastMicros.toNat = (times records).getLast?.getD 0 ∧
    s.mostMicros.toNat = (times records).max?.getD 0 ∧
    s.leastMicros?.map UInt64.toNat = (times records).min? ∧
    (records ≠ [] → ∃ least, s.leastMicros? = some least ∧
      least ≤ s.lastMicros ∧ s.lastMicros ≤ s.mostMicros ∧
      s.requests.toNat * least.toNat ≤ s.totalMicros.toNat ∧
      s.totalMicros.toNat ≤ s.requests.toNat * s.mostMicros.toNat) := by
  intro records s
  have h := after_summarizes steps
  refine ⟨h.requests_toNat hfits, h.handled_toNat hfits, h.failed_toNat hfits,
    h.totalMicros_toNat hfits, h.last, h.mostMicros, h.leastMicros? hfits, ?_⟩
  intro hrecords
  exact h.bounds hfits hrecords

theorem statistics_sum_up_after_reset :
    let steps := [.record ⟨90, 7, 0⟩, .record ⟨5, 0, 1⟩, .reset, .record ⟨40, 2, 0⟩,
      .record ⟨10, 1, 1⟩, .record ⟨25, 3, 0⟩]
    let s := after steps
    Fits (sinceReset steps) ∧ s.requests.toNat = 3 ∧ s.handled.toNat = 6 ∧ s.failed.toNat = 1 ∧
      s.totalMicros.toNat = 75 ∧ s.lastMicros.toNat = 25 ∧ s.mostMicros.toNat = 40 ∧
      s.leastMicros?.map UInt64.toNat = some 10 := by
  intro steps s
  have hfits : Fits (sinceReset steps) := ⟨by decide, by decide, by decide, by decide⟩
  obtain ⟨hrequests, hhandled, hfailed, htotal, hlast, hmost, hleast, -⟩ :=
    statistics_sum_up_since_reset steps hfits
  have hsince : sinceReset steps = [⟨40, 2, 0⟩, ⟨10, 1, 1⟩, ⟨25, 3, 0⟩] := by decide
  rw [hsince] at hrequests hhandled hfailed htotal hlast hmost hleast
  exact ⟨hfits, hrequests, hhandled, hfailed, htotal, hlast, hmost, hleast⟩

end NodeProbe
