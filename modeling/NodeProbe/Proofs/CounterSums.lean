import Mathlib.Algebra.Order.BigOperators.Group.List
import Mathlib.Algebra.Ring.Int.Defs
import Mathlib.Data.List.Forall2
import NodeProbe.Proofs.CounterInvariant

/-!
# The sums of the counter

A run of additions adds up: wrapping at every step is wrapping once, and as long as the numbers
have one sign, cutting at every step is cutting once. Neither depends on the order of the calls.
-/
namespace NodeProbe.Counter

/-! ## Sums of words -/

/-- Wrapping at every addition leaves the sum, wrapped once. -/
theorem foldl_wrapping (count : Int64) (ns : List Int64) :
    (ns.foldl Mode.wrapping.add count).toInt =
      (count.toInt + (ns.map Int64.toInt).sum).bmod (2 ^ 64) := by
  induction ns generalizing count with
  | nil =>
    have hlow := Int64.le_toInt count
    have hhigh := Int64.toInt_lt count
    rw [List.map_nil, List.sum_nil, Int.add_zero, List.foldl_nil]
    exact (Int.bmod_eq_of_le (by omega) (by omega)).symm
  | cons n ns ih =>
    have hstep : (Mode.wrapping.add count n).toInt = (count.toInt + n.toInt).bmod (2 ^ 64) :=
      Int64.toInt_add count n
    rw [List.foldl_cons, ih, hstep, Int.bmod_add_bmod, List.map_cons, List.sum_cons, Int.add_assoc]

/-- The integer of 64 bits that is nearest to a sum. -/
def cutSum (n : Int) : Int := max (-2 ^ 63) (min (2 ^ 63 - 1) n)

/-- Cutting a part of a sum first makes no difference when what is added goes on in the direction
in which the part has gone. -/
theorem cutSum_add {part rest : Int}
    (h : (-2 ^ 63 ≤ part ∧ 0 ≤ rest) ∨ (part ≤ 2 ^ 63 - 1 ∧ rest ≤ 0)) :
    cutSum (cutSum part + rest) = cutSum (part + rest) := by
  unfold cutSum
  omega

/-- Numbers without two different signs. -/
def OneSign (ns : List Int) : Prop := (∀ n ∈ ns, 0 ≤ n) ∨ ∀ n ∈ ns, n ≤ 0

theorem OneSign.of_perm {ns ns' : List Int} (h : OneSign ns) (hperm : ns'.Perm ns) : OneSign ns' :=
  h.imp (fun hall n hn => hall n (hperm.mem_iff.mp hn)) fun hall n hn => hall n (hperm.mem_iff.mp hn)

/-- Cutting at every addition of numbers of one sign leaves the sum, cut once. -/
theorem foldl_saturating (count : Int64) {ns : List Int64} (h : OneSign (ns.map Int64.toInt)) :
    (ns.foldl Mode.saturating.add count).toInt =
      cutSum (count.toInt + (ns.map Int64.toInt).sum) := by
  induction ns generalizing count with
  | nil =>
    have hlow := Int64.le_toInt count
    have hhigh := Int64.toInt_lt count
    rw [List.map_nil, List.sum_nil, Int.add_zero, List.foldl_nil]
    unfold cutSum
    omega
  | cons n ns ih =>
    have hstep : (Mode.saturating.add count n).toInt = cutSum (count.toInt + n.toInt) :=
      saturatingAdd_toInt count n
    have hrest : OneSign (ns.map Int64.toInt) :=
      h.imp (fun hall m hm => hall m (List.mem_cons_of_mem _ hm))
        fun hall m hm => hall m (List.mem_cons_of_mem _ hm)
    have hlow := Int64.le_toInt count
    have hhigh := Int64.toInt_lt count
    rw [List.foldl_cons, ih _ hrest, hstep, List.map_cons, List.sum_cons, ← Int.add_assoc]
    -- the rest goes on in the direction of `n`, so a sum that `n` takes out of range never comes back
    refine cutSum_add ?_
    rcases h with hall | hall
    · have hn := hall n.toInt List.mem_cons_self
      have hsum : 0 ≤ (ns.map Int64.toInt).sum :=
        List.sum_nonneg fun m hm => hall m (List.mem_cons_of_mem _ hm)
      exact .inl ⟨by omega, hsum⟩
    · have hn := hall n.toInt List.mem_cons_self
      have hsum : (ns.map Int64.toInt).sum ≤ 0 := by
        simpa using List.sum_le_card_nsmul (ns.map Int64.toInt) 0
          fun m hm => hall m (List.mem_cons_of_mem _ hm)
      exact .inr ⟨by omega, hsum⟩

/-! ## Runs of calls -/

def State.after (s : State) (deeds : List (Deed State)) : State :=
  deeds.foldl (fun s d => (d.perform counter s).2) s

theorem State.Sound.after {s : State} (h : s.Sound) {deeds : List (Deed State)}
    (hdeeds : ∀ d ∈ deeds, d.On counter ∧ d.Typed) : (s.after deeds).Sound := by
  induction deeds generalizing s with
  | nil => exact h
  | cons d deeds ih =>
    obtain ⟨⟨hon, htyped⟩, hrest⟩ := List.forall_mem_cons.mp hdeeds
    exact ih (perform_sound hon htyped h) hrest

/-- A call of an addition and the integer that it is to add: its argument, or the step. -/
inductive Adds (step : Int) : Deed State → Int → Prop where
  | add {o : Operation State} {args : List Value} {n : Int64} (ho : o ∈ counter.operations)
    (hname : o.name = "add") (hargs : (argument args).asInt64 = .ok n) :
    Adds step (.run o args) n.toInt
  | increment {o : Operation State} {args : List Value} (ho : o ∈ counter.operations)
    (hname : o.name = "increment") : Adds step (.run o args) step

theorem add_run {o : Operation State} (h : o ∈ counter.operations) (hname : o.name = "add")
    {args : List Value} {n : Int64} (hargs : (argument args).asInt64 = .ok n) :
    o.run args = fun s => (.ok (some (.signed (s.add n).count)), s.add n) := by
  have hbody := body_run h args
  generalize o.run args = act at hbody ⊢
  cases hbody with
  | increment hother => rw [hname] at hother; exact absurd hother (by decide)
  | add => rw [hargs]
  | reset hother => rw [hname] at hother; exact absurd hother (by decide)
  | clear hother => rw [hname] at hother; exact absurd hother (by decide)

/-- A call adds a word that is the integer to be added, and gives the count that it leaves. -/
theorem Adds.perform {s : State} (hs : s.Sound) {d : Deed State} {delta : Int}
    (h : Adds s.step.toNat d delta) : ∃ n : Int64, n.toInt = delta ∧
      d.perform counter s = (.ok (some (.signed (s.add n).count)), s.add n) := by
  cases h with
  | @add o args n ho hname hargs =>
    refine ⟨n, rfl, ?_⟩
    rw [Deed.perform_run, add_run ho hname hargs]
  | @increment o args ho hname =>
    refine ⟨s.step.toInt64, hs.step_toInt, ?_⟩
    rw [Deed.perform_run, increment_run ho hname]
    rfl

/-- A run of calls adds one word after another. -/
theorem exists_after_eq {s : State} (hs : s.Sound) {calls : List (Deed State)} {deltas : List Int}
    (h : List.Forall₂ (Adds s.step.toNat) calls deltas) :
    ∃ ns : List Int64, ns.map Int64.toInt = deltas ∧ s.after calls = ns.foldl State.add s := by
  induction calls generalizing s deltas with
  | nil =>
    cases h
    exact ⟨[], rfl, rfl⟩
  | cons d calls ih =>
    cases h with
    | cons hd hcalls =>
      obtain ⟨n, rfl, hperform⟩ := hd.perform hs
      obtain ⟨ns, rfl, hafter⟩ := ih (hs.add n) hcalls
      refine ⟨n :: ns, rfl, ?_⟩
      rw [List.foldl_cons, ← hafter]
      unfold State.after
      rw [List.foldl_cons, hperform]

/-- Additions touch neither the mode nor the step, so they all add in one mode. -/
theorem foldl_add (s : State) (ns : List Int64) :
    (ns.foldl State.add s).count = ns.foldl s.mode.add s.count ∧
      (ns.foldl State.add s).step = s.step := by
  induction ns generalizing s with
  | nil => exact ⟨rfl, rfl⟩
  | cons n ns ih => exact ih (s.add n)

theorem State.Sound.foldl_add {s : State} (h : s.Sound) (ns : List Int64) :
    (ns.foldl State.add s).Sound := by
  induction ns generalizing s with
  | nil => exact h
  | cons n ns ih => exact ih (h.add n)

theorem State.after_snoc (s : State) (calls : List (Deed State)) (d : Deed State) :
    s.after (calls ++ [d]) = (d.perform counter (s.after calls)).2 := by
  unfold after
  rw [List.foldl_append]
  rfl

/-- A call behind others finds the step that they found, and gives the count that it leaves. -/
theorem perform_after {s : State} (hs : s.Sound) {before behind : List (Deed State)} {d : Deed State}
    {deltas : List Int} (h : List.Forall₂ (Adds s.step.toNat) (before ++ d :: behind) deltas) :
    (s.after before).step = s.step ∧ (d.perform counter (s.after before)).1 =
      .ok (some (.signed (s.after (before ++ [d])).count)) := by
  have hbefore := List.forall₂_take before.length h
  have hbehind := List.forall₂_drop before.length h
  rw [List.take_left] at hbefore
  rw [List.drop_left] at hbehind
  obtain ⟨ns, -, hafter⟩ := exists_after_eq hs hbefore
  have hstep : (s.after before).step = s.step := by
    rw [hafter]
    exact (foldl_add s ns).2
  have hsound : (s.after before).Sound := by
    rw [hafter]
    exact hs.foldl_add ns
  refine ⟨hstep, ?_⟩
  generalize deltas.drop before.length = later at hbehind
  cases hbehind with
  | cons hd _ =>
    rw [← hstep] at hd
    obtain ⟨n, -, hperform⟩ := hd.perform hsound
    rw [State.after_snoc, hperform]

/-- Reducing after every addition comes to reducing once at the end. -/
theorem count_after_wrapping {s : State} (hs : s.Sound) (hmode : s.mode = .wrapping)
    {calls : List (Deed State)} {deltas : List Int}
    (h : List.Forall₂ (Adds s.step.toNat) calls deltas) :
    (s.after calls).count.toInt = (s.count.toInt + deltas.sum).bmod (2 ^ 64) := by
  obtain ⟨ns, rfl, hafter⟩ := exists_after_eq hs h
  rw [hafter, (foldl_add s ns).1, hmode, foldl_wrapping]

/-- Without two different signs a saturating sum is cut in one direction only, so one cut at the end
is enough. -/
theorem count_after_saturating {s : State} (hs : s.Sound) (hmode : s.mode = .saturating)
    {calls : List (Deed State)} {deltas : List Int}
    (h : List.Forall₂ (Adds s.step.toNat) calls deltas) (hsign : OneSign deltas) :
    (s.after calls).count.toInt = cutSum (s.count.toInt + deltas.sum) := by
  obtain ⟨ns, rfl, hafter⟩ := exists_after_eq hs h
  rw [hafter, (foldl_add s ns).1, hmode, foldl_saturating s.count hsign]

/-- Whatever well typed deeds came before, and from any count, a run of additions leaves the exact
sum of the count and all integers that were to be added: wrapped into 64 bits in the wrapping mode,
and cut to 64 bits in the saturating mode when the integers have one sign. It does so for every
order of the calls. Each call finds the same step and gives the count that it leaves. -/
theorem additions_leave_the_sum {earlier : List (Deed State)}
    (hearlier : ∀ d ∈ earlier, d.On counter ∧ d.Typed) (count : Int64)
    {calls : List (Deed State)} {deltas : List Int}
    (hcalls : List.Forall₂ (Adds (({} : State).after earlier).step.toNat) calls deltas) :
    let s : State := { ({} : State).after earlier with count }
    let exact := count.toInt + deltas.sum
    (∀ before d behind, calls = before ++ d :: behind → (s.after before).step = s.step ∧
      (d.perform counter (s.after before)).1 =
        .ok (some (.signed (s.after (before ++ [d])).count))) ∧
    (s.mode = .wrapping → ∀ calls', calls'.Perm calls →
      (s.after calls').count.toInt = exact.bmod (2 ^ 64)) ∧
    (s.mode = .saturating → OneSign deltas → ∀ calls', calls'.Perm calls →
      (s.after calls').count.toInt = max (-2 ^ 63) (min (2 ^ 63 - 1) exact)) := by
  intro s exact
  have hs : s.Sound := by
    have hbefore := State.sound_fresh.after hearlier
    exact ⟨hbefore.step_pos, hbefore.step_le, hbefore.history_le⟩
  have horder : ∀ calls', calls'.Perm calls →
      ∃ deltas', List.Forall₂ (Adds s.step.toNat) calls' deltas' ∧ deltas'.Perm deltas :=
    fun calls' hperm => List.perm_comp_forall₂ hperm hcalls
  refine ⟨?_, ?_, ?_⟩
  · rintro before d behind rfl
    exact perform_after hs hcalls
  · intro hmode calls' hperm
    obtain ⟨deltas', hcalls', hdeltas⟩ := horder calls' hperm
    rw [count_after_wrapping hs hmode hcalls', hdeltas.sum_eq]
  · intro hmode hsign calls' hperm
    obtain ⟨deltas', hcalls', hdeltas⟩ := horder calls' hperm
    rw [count_after_saturating hs hmode hcalls' (hsign.of_perm hdeltas), hdeltas.sum_eq]
    rfl

/-- Past the largest count and back, in any order, with the step among what is added. -/
theorem three_wrapping_calls_leave_their_sum :
    let setStep : Deed State := .store (counter.attributes.get ⟨1, by decide⟩) (.unsigned 5)
    let setMode : Deed State := .store (counter.attributes.get ⟨2, by decide⟩) (.enum "Wrapping")
    let increment : Deed State := .run (counter.operations.get ⟨0, by decide⟩) []
    let add (n : Int64) : Deed State := .run (counter.operations.get ⟨1, by decide⟩) [.signed n]
    let earlier := [setStep, setMode]
    let s : State := { ({} : State).after earlier with count := Int64.maxValue }
    (∀ d ∈ earlier, d.On counter ∧ d.Typed) ∧
    List.Forall₂ (Adds (({} : State).after earlier).step.toNat) [increment, add (-3), add 1] [5, -3, 1] ∧
    (s.after [add 1, increment, add (-3)]).count.toInt = (2 ^ 63 - 1 + 3 : Int).bmod (2 ^ 64) := by
  intro setStep setMode increment add earlier s
  have hearlier : ∀ d ∈ earlier, d.On counter ∧ d.Typed := by
    intro d hd
    simp only [earlier, List.mem_cons, List.not_mem_nil, or_false] at hd
    rcases hd with rfl | rfl
    · refine ⟨List.get_mem _ _, ?_⟩
      exact (@wellTyped_unsigned .u32 5 rfl).mpr ⟨_, rfl, by decide, by decide⟩
    · exact ⟨List.get_mem _ _, "Wrapping", by decide, rfl⟩
  have hcalls : List.Forall₂ (Adds (({} : State).after earlier).step.toNat)
      [increment, add (-3), add 1] [5, -3, 1] := by
    have hadd : ∀ n : Int64, Adds (({} : State).after earlier).step.toNat (add n) n.toInt :=
      fun n => .add (List.get_mem _ _) rfl rfl
    exact .cons (.increment (List.get_mem _ _) rfl) (.cons (hadd (-3)) (.cons (hadd 1) .nil))
  have hperm : [add 1, increment, add (-3)].Perm [increment, add (-3), add 1] :=
    @List.perm_append_comm _ [add 1] [increment, add (-3)]
  exact ⟨hearlier, hcalls,
    (additions_leave_the_sum hearlier Int64.maxValue hcalls).2.1 rfl _ hperm⟩

end NodeProbe.Counter
