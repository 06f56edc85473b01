import Mathlib.Order.Lattice
import NodeProbe.Proofs.TaskListing

/-!
# Clock ticks in nanoseconds

The product of ticks and nanoseconds is cut to 64 bits before it is divided by the clock rate. So
the conversion rounds down exactly as long as the result is no greater than the largest number of
64 bits divided by the rate, and stands still from there on, long before its result is too large.
-/
namespace NodeProbe

open Number

/-- The whole nanoseconds of some ticks. -/
def exactNanos (rate ticks : Nat) : Nat := ticks * 10 ^ 9 / rate

/-- Cutting before the division and cutting after it give the same, at a bound that is divided
too. -/
theorem ticksToNanos_toNat (rate ticks : UInt64) : (ticksToNanos rate ticks).toNat =
    min (exactNanos rate.toNat ticks.toNat) (maxUInt64 / rate.toNat) := by
  have hmono : Monotone fun n => n / rate.toNat := fun _ _ h => Nat.div_le_div_right h
  have hcut : min (ticks.toNat * 1000000000) maxUInt64 / rate.toNat =
      min (ticks.toNat * 1000000000 / rate.toNat) (maxUInt64 / rate.toNat) := hmono.map_min
  have hbound : maxUInt64 / rate.toNat < 2 ^ 64 :=
    Nat.lt_of_le_of_lt (Nat.div_le_self _ _) (by decide)
  unfold ticksToNanos
  rw [hcut, UInt64.toNat_ofNat_of_lt' (Nat.lt_of_le_of_lt (Nat.min_le_right _ _) hbound)]
  rfl

/-- The largest number is given only for more ticks than have an exact result. -/
theorem exactNanos_of_largest {rate ticks : UInt64}
    (h : (ticksToNanos rate ticks).toNat = maxUInt64) :
    maxUInt64 < exactNanos rate.toNat ticks.toNat := by
  rw [ticksToNanos_toNat] at h
  have hrate : maxUInt64 / rate.toNat = maxUInt64 := by
    have hle := Nat.div_le_self maxUInt64 rate.toNat
    omega
  have hone : rate.toNat = 1 := by
    by_contra hne
    rcases Nat.eq_zero_or_pos rate.toNat with hzero | hpos
    · rw [hzero] at hrate
      exact absurd hrate (by decide)
    · have hless := Nat.div_lt_self (show 0 < maxUInt64 by decide) (show 1 < rate.toNat by omega)
      omega
  have hexact : exactNanos rate.toNat ticks.toNat = ticks.toNat * 10 ^ 9 := by
    rw [exactNanos, hone, Nat.div_one]
  -- the largest number does not end in nine zeros, so the product is not the number itself
  have hother : ticks.toNat * 10 ^ 9 ≠ maxUInt64 := by
    unfold maxUInt64
    omega
  omega

/-- The times of a thread are the ticks of its `stat` file, converted. -/
theorem TaskEntry.info?_nanos {entry : TaskEntry} {rate : UInt64} {fields : StatFields}
    {info : ThreadInfo} (hfields : entry.stat.bind readStat? = some fields)
    (hinfo : entry.info? rate = some info) :
    info.userNanos = ticksToNanos rate fields.userTicks ∧
      info.cpuNanos = ticksToNanos rate (fields.userTicks + fields.systemTicks) := by
  obtain ⟨text, hstat, hread⟩ := Option.bind_eq_some_iff.mp hfields
  unfold TaskEntry.info? at hinfo
  simp only [hstat, hread, Option.bind_eq_bind, Option.bind_some, Option.pure_def,
    Option.some.injEq] at hinfo
  rw [← hinfo]
  exact ⟨rfl, rfl⟩

/-- Ticks are converted exactly if and only if the exact result is at most the largest number of
64 bits divided by the rate; any greater result is replaced by that quotient. The largest number
itself is given only where the exact result would not fit. The user time of a thread is converted
so, and its user and system time together. -/
theorem ticks_convert_exactly_iff (rate ticks : UInt64) :
    (ticksToNanos rate ticks).toNat =
      min (exactNanos rate.toNat ticks.toNat) (maxUInt64 / rate.toNat) ∧
    ((ticksToNanos rate ticks).toNat = exactNanos rate.toNat ticks.toNat ↔
      exactNanos rate.toNat ticks.toNat ≤ maxUInt64 / rate.toNat) ∧
    ((ticksToNanos rate ticks).toNat = maxUInt64 →
      maxUInt64 < exactNanos rate.toNat ticks.toNat) ∧
    ∀ (entry : TaskEntry) (fields : StatFields) (info : ThreadInfo),
      entry.stat.bind readStat? = some fields → entry.info? rate = some info →
      info.userNanos = ticksToNanos rate fields.userTicks ∧
        info.cpuNanos = ticksToNanos rate (fields.userTicks + fields.systemTicks) := by
  have hvalue := ticksToNanos_toNat rate ticks
  refine ⟨hvalue, ?_, exactNanos_of_largest, fun _ _ _ => TaskEntry.info?_nanos⟩
  rw [hvalue]
  exact min_eq_left_iff

/-- After less than six years of processor time at a hundred ticks a second, a result that fits
easily is not given. -/
theorem years_of_ticks_convert_too_low :
    exactNanos 100 18446744074 = 184467440740000000 ∧ 184467440740000000 ≤ maxUInt64 ∧
    (ticksToNanos 100 18446744074).toNat = 184467440737095516 := by
  decide

end NodeProbe
