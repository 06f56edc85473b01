import Mathlib.Data.Option.Basic
import NodeProbe.CommandLine
import NodeProbe.Proofs.Routing

/-!
# Hidden times do not show

A time that is switched off or cannot be measured is replaced when the rows are sampled,
before they are sorted, cut and laid out. Two sources that differ in such times alone have
the same samples, so nothing in a report tells them apart.
-/
namespace NodeProbe

variable {σ : Type}

/-- The statistics of a thread differ at most in the times of one kind. -/
structure ThreadInfo.SameBut (hidden : MonitoringKind) (info info' : ThreadInfo) : Prop where
  name : info'.name = info.name
  state : info'.state = info.state
  blockedCount : info'.blockedCount = info.blockedCount
  waitedCount : info'.waitedCount = info.waitedCount
  cpu : hidden ≠ .cpu → info'.cpuNanos = info.cpuNanos ∧ info'.userNanos = info.userNanos
  contention : hidden ≠ .contention →
    info'.blockedMillis = info.blockedMillis ∧ info'.waitedMillis = info.waitedMillis

/-- The sources measure the same things and list the same threads; of each thread both tell
nothing, or statistics that differ at most in the times of one kind. -/
structure ThreadSource.SameBut (hidden : MonitoringKind) (source source' : ThreadSource) : Prop where
  cpuSupported : source'.cpuSupported = source.cpuSupported
  contentionSupported : source'.contentionSupported = source.contentionSupported
  ids : source'.ids = source.ids
  info : ∀ id ∈ source.ids, Option.Rel (ThreadInfo.SameBut hidden) (source.info id) (source'.info id)

namespace ThreadSource.SameBut

variable {hidden : MonitoringKind} {source source' : ThreadSource}

theorem supports_eq (h : source.SameBut hidden source') (kind : MonitoringKind) :
    source'.supports kind = source.supports kind := by
  cases kind with
  | cpu => exact h.cpuSupported
  | contention => exact h.contentionSupported

theorem shows_eq (h : source.SameBut hidden source') (flags : MonitoringFlags)
    (kind : MonitoringKind) : source'.shows flags kind = source.shows flags kind := by
  unfold shows
  rw [h.supports_eq]

end ThreadSource.SameBut

/-- A row takes the times of a kind only where they are shown. -/
theorem ThreadRow.ofInfo_eq {hidden : MonitoringKind} {info info' : ThreadInfo}
    (h : info.SameBut hidden info') {shows : MonitoringKind → Bool} (hhidden : shows hidden = false)
    (id : UInt64) :
    ofInfo (shows .cpu) (shows .contention) id info' =
      ofInfo (shows .cpu) (shows .contention) id info := by
  unfold ofInfo
  rw [h.name, h.state, h.blockedCount, h.waitedCount]
  cases hidden with
  | cpu =>
    obtain ⟨hblocked, hwaited⟩ := h.contention (by decide)
    simp only [hhidden, hblocked, hwaited, Bool.false_eq_true, if_false]
  | contention =>
    obtain ⟨hcpu, huser⟩ := h.cpu (by decide)
    simp only [hhidden, hcpu, huser, Bool.false_eq_true, if_false]

namespace ThreadSource.SameBut

variable {hidden : MonitoringKind} {source source' : ThreadSource}

/-- A snapshot that hides a kind of time does not show what the platform tells of it. -/
theorem snapshot_eq (h : source.SameBut hidden source') {flags : MonitoringFlags}
    (hhidden : source.shows flags hidden = false) :
    source'.snapshot flags = source.snapshot flags := by
  unfold snapshot
  rw [h.ids, h.shows_eq, h.shows_eq]
  refine List.filterMap_congr fun id hid => ?_
  have hinfo := h.info id hid
  generalize source.info id = info?, source'.info id = info?' at hinfo
  cases hinfo with
  | none => rfl
  | some hinfo => exact congrArg some (ThreadRow.ofInfo_eq hinfo hhidden id)

theorem report_eq (h : source.SameBut hidden source') {flags : MonitoringFlags}
    (hhidden : source.shows flags hidden = false) (query : ThreadQuery) (layout : ReportLayout) :
    source'.report flags query layout = source.report flags query layout := by
  unfold report
  rw [h.snapshot_eq hhidden]

end ThreadSource.SameBut

namespace Node

variable {node node' : Node σ}

/-- Where the reports are the same, so are the replies to commands for threads. -/
theorem runVerb_threads_alike {s s' : NodeState σ}
    (h : ∀ query, node'.threadReport query s' = node.threadReport query s) (token : String)
    (argument : Option String) :
    (node'.runVerb token (.threads argument) s').entries =
        (node.runVerb token (.threads argument) s).entries ∧
      (node'.runVerb token (.threads argument) s').failure =
        (node.runVerb token (.threads argument) s).failure := by
  simp only [runVerb]
  cases ThreadQuery.read argument with
  | error e => exact ⟨rfl, rfl⟩
  | ok query =>
    simp only [Reply.ofEntries, h query]
    trivial

/-- Nodes whose platforms measure the same things throw switches alike. -/
theorem flagsAfter_alike (h : ∀ kind, node'.threads.supports kind = node.threads.supports kind) :
    node'.flagsAfter = node.flagsAfter := by
  funext flags token
  unfold flagsAfter switchedBy
  simp only [h]

end Node

/-- Two nodes whose sources differ in the times of one kind go through the same commands,
however long these take. They have the same flags, and as long as that kind is not shown under
these, every query gets the same report from both, and so does every command for threads. -/
theorem hidden_times_do_not_show (hidden : MonitoringKind) (node node' : Node σ)
    (hthreads : node.threads.SameBut hidden node'.threads) (hlayout : node'.layout = node.layout)
    (batches batches' : List (UInt64 × List String)) (hsame : batches'.map (·.2) = batches.map (·.2))
    (tokens : List String) (s s' : NodeState σ) (hflags : s'.flags = s.flags) :
    let here := node.afterRun batches tokens s
    let there := node'.afterRun batches' tokens s'
    there.flags = here.flags ∧
    (¬ (node.threads.supports hidden = true ∧ here.flags.isEnabled hidden = true) →
      (∀ query, node'.threadReport query there = node.threadReport query here) ∧
      ∀ token argument, Verb.ofToken? token = some (.threads argument) →
        (node'.dispatch token there).entries = (node.dispatch token here).entries ∧
        (node'.dispatch token there).failure = (node.dispatch token here).failure) := by
  intro here there
  have hflags : there.flags = here.flags := by
    have hswitches := Node.flagsAfter_alike hthreads.supports_eq
    have htokens : batches'.flatMap (·.2) = batches.flatMap (·.2) := by
      rw [List.flatMap_def, List.flatMap_def, hsame]
    have hthere := node'.afterRun_flags batches' tokens s'
    rw [hswitches, htokens, hflags, ← node.afterRun_flags] at hthere
    exact hthere
  clear_value here there
  refine ⟨hflags, fun hnot => ?_⟩
  have hhidden : node.threads.shows here.flags hidden = false := by
    rw [← Bool.and_eq_true] at hnot
    exact Bool.not_eq_true _ ▸ hnot
  have hreport : ∀ query, node'.threadReport query there = node.threadReport query here := by
    intro query
    unfold Node.threadReport
    rw [hflags, hlayout]
    exact hthreads.report_eq hhidden query node.layout
  refine ⟨hreport, fun token argument hverb => ?_⟩
  rw [Node.dispatch_of_verb hverb, Node.dispatch_of_verb hverb]
  exact Node.runVerb_threads_alike hreport token argument

theorem cpu_times_do_not_show_after_switch :
    let threads (main io : UInt64) : ThreadSource := .numbered true true
      [{ name := "main", state := .running, waitedCount := 4, cpuNanos := main },
        { name := "io", state := .diskSleep, blockedMillis := .ofNat 7, cpuNanos := io }]
    let node := CommandLine.node {} (threads 9000000 2000000)
    let node' := CommandLine.node {} (threads 1000000 8000000)
    let s := CommandLine.initialState {}
    let here := node.afterRun [(5, ["enable-contention", "threads=cpu"])] ["disable-cpu"] s
    let there := node'.afterRun [(6, ["enable-contention", "threads=cpu"])] ["disable-cpu"] s
    node.threads.SameBut .cpu node'.threads ∧
    node.threads.info 1 ≠ node'.threads.info 1 ∧
    ¬ (node.threads.supports .cpu = true ∧ here.flags.isEnabled .cpu = true) ∧
    Verb.ofToken? "threads=cpu=1" = some (.threads (some "cpu=1")) ∧
    (node'.dispatch "threads=cpu=1" there).entries = (node.dispatch "threads=cpu=1" here).entries := by
  intro threads node node' s here there
  have hthreads : node.threads.SameBut .cpu node'.threads := by
    refine ⟨rfl, rfl, rfl, fun id hid => ?_⟩
    have hcases : id = 1 ∨ id = 2 := by
      have hids : node.threads.ids = [1, 2] := rfl
      rw [hids] at hid
      simpa using hid
    rcases hcases with rfl | rfl
    · exact .some ⟨rfl, rfl, rfl, rfl, fun h => absurd rfl h, fun _ => ⟨rfl, rfl⟩⟩
    · exact .some ⟨rfl, rfl, rfl, rfl, fun h => absurd rfl h, fun _ => ⟨rfl, rfl⟩⟩
  have hdiffer : node.threads.info 1 ≠ node'.threads.info 1 := by
    intro h
    have htimes := congrArg (Option.map ThreadInfo.cpuNanos) h
    exact absurd htimes (by decide)
  have hflags : here.flags.isEnabled .cpu = false := by
    change ((node.afterRun _ _ s).flags).isEnabled .cpu = false
    rw [Node.afterRun_flags]
    decide
  have hnot : ¬ (node.threads.supports .cpu = true ∧ here.flags.isEnabled .cpu = true) := by
    rw [hflags]
    exact fun h => Bool.false_ne_true h.2
  have hverb : Verb.ofToken? "threads=cpu=1" = some (.threads (some "cpu=1")) := by decide
  have h := hidden_times_do_not_show .cpu node node' hthreads rfl
    [(5, ["enable-contention", "threads=cpu"])] [(6, ["enable-contention", "threads=cpu"])] rfl
    ["disable-cpu"] s s rfl
  exact ⟨hthreads, hdiffer, hnot, hverb, ((h.2 hnot).2 _ _ hverb).1⟩

end NodeProbe
