import Mathlib.Data.List.Induction
import NodeProbe.Proofs.SharedStatistics

/-!
# Every token is counted once

A request is recorded when its batch is done, also when the components were reset in the
middle of it. So the statistics count the last batch with a reset and all batches after it,
the tokens in front of the reset included.
-/
namespace NodeProbe

variable {σ : Type}

namespace Node

/-- The tokens of a batch whose commands fail, each in the state that the tokens before it
leave. -/
def failures (node : Node σ) : List String → NodeState σ → List String
  | [], _ => []
  | token :: tokens, s =>
    let reply := node.dispatch token s
    let later := node.failures tokens reply.state
    if reply.failure.isSome then token :: later else later

def runFailures (node : Node σ) : List (UInt64 × List String) → NodeState σ → List (List String)
  | [], _ => []
  | batch :: batches, s =>
    node.failures batch.2 s :: node.runFailures batches (node.handle batch.1 batch.2 s).state

end Node

/-- The number of the last batch with a reset, counted from one, or one if there is none. -/
def lastReset (batches : List (UInt64 × List String)) : Nat :=
  (batches.zipIdx 1).foldl (fun last (batch, i) => if "reset-stats" ∈ batch.2 then i else last) 1

example : lastReset [(5, ["a"]), (9, ["b", "reset-stats", "c"]), (2, []), (3, ["d"])] = 2 := by decide

theorem lastReset_concat (batches : List (UInt64 × List String)) (batch : UInt64 × List String) :
    lastReset (batches ++ [batch]) =
      if "reset-stats" ∈ batch.2 then batches.length + 1 else lastReset batches := by
  unfold lastReset
  rw [List.zipIdx_append, List.foldl_append, Nat.add_comm]
  rfl

theorem lastReset_pos (batches : List (UInt64 × List String)) : 1 ≤ lastReset batches := by
  induction batches using List.reverseRecOn with
  | nil => exact Nat.le_refl 1
  | append_singleton batches batch ih =>
    rw [lastReset_concat]
    split <;> omega

theorem lastReset_le (batches : List (UInt64 × List String)) :
    lastReset batches ≤ batches.length + 1 := by
  induction batches using List.reverseRecOn with
  | nil => exact Nat.le_refl 1
  | append_singleton batches batch ih =>
    rw [lastReset_concat, List.length_append, List.length_singleton]
    split <;> omega

namespace Node

variable {node : Node σ}

theorem failures_length_le (node : Node σ) (tokens : List String) (s : NodeState σ) :
    (node.failures tokens s).length ≤ tokens.length := by
  induction tokens generalizing s with
  | nil => exact Nat.le_refl 0
  | cons token tokens ih =>
    have hlater := ih (node.dispatch token s).state
    unfold failures
    dsimp only
    split <;> simp only [List.length_cons] <;> omega

theorem runFailures_concat (node : Node σ) (batches : List (UInt64 × List String))
    (batch : UInt64 × List String) (s : NodeState σ) :
    node.runFailures (batches ++ [batch]) s =
      node.runFailures batches s ++ [node.failures batch.2 (node.afterBatches batches s)] := by
  induction batches generalizing s with
  | nil => rfl
  | cons first batches ih =>
    rw [List.cons_append, runFailures, ih]
    rfl

theorem runFailures_length (node : Node σ) (batches : List (UInt64 × List String))
    (s : NodeState σ) : (node.runFailures batches s).length = batches.length := by
  induction batches generalizing s with
  | nil => rfl
  | cons batch batches ih => rw [runFailures, List.length_cons, ih, List.length_cons]

theorem afterBatches_concat (node : Node σ) (batches : List (UInt64 × List String))
    (batch : UInt64 × List String) (s : NodeState σ) :
    node.afterBatches (batches ++ [batch]) s =
      (node.handle batch.1 batch.2 (node.afterBatches batches s)).state := by
  unfold afterBatches
  rw [List.foldl_append]
  rfl

/-- A batch counts its failing tokens as failed and all tokens as handled or failed. -/
theorem foldl_step_counts (node : Node σ) (tokens : List String) (batch : Batch σ) :
    (tokens.foldl node.step batch).failed =
      batch.failed + .ofNat (node.failures tokens batch.state).length ∧
    (tokens.foldl node.step batch).handled + (tokens.foldl node.step batch).failed =
      batch.handled + batch.failed + .ofNat tokens.length := by
  induction tokens generalizing batch with
  | nil => exact ⟨(UInt64.add_zero _).symm, (UInt64.add_zero _).symm⟩
  | cons token tokens ih =>
    obtain ⟨hfailed, htotal⟩ := ih (node.step batch token)
    rw [List.foldl_cons]
    rw [step_state, step_failed] at hfailed
    rw [step_handled, step_failed] at htotal
    have hlength : UInt64.ofNat (token :: tokens).length = .ofNat tokens.length + 1 :=
      UInt64.ofNat_add _ 1
    unfold failures
    dsimp only
    rw [hlength]
    cases hfailure : (node.dispatch token batch.state).failure with
    | none =>
      rw [hfailure] at hfailed htotal
      simp only [Option.isSome_none, Option.isNone_none, if_true, Bool.false_eq_true, if_false,
        UInt64.add_zero] at hfailed htotal ⊢
      refine ⟨hfailed, ?_⟩
      rw [htotal]
      ac_rfl
    | some e =>
      rw [hfailure] at hfailed htotal
      simp only [Option.isSome_some, Option.isNone_some, if_true, Bool.false_eq_true, if_false,
        UInt64.add_zero] at hfailed htotal ⊢
      have hfailures := UInt64.ofNat_add
        (node.failures tokens (node.dispatch token batch.state).state).length 1
      refine ⟨?_, ?_⟩
      · rw [hfailed, List.length_cons, hfailures]
        change _ + 1 + _ = _ + (_ + 1)
        ac_rfl
      · rw [htotal]
        ac_rfl

end Node

/-- The statistics count so many batches and tokens, and so many failing ones among these. -/
structure Statistics.Tally (t : Statistics) (batches tokens failing : Nat) : Prop where
  requests : t.requests = .ofNat batches
  commands : t.handled + t.failed = .ofNat tokens
  failed : t.failed = .ofNat failing
  failing_le : failing ≤ tokens

namespace Statistics.Tally

theorem fresh : Tally .fresh 0 0 0 := ⟨rfl, rfl, rfl, Nat.le_refl 0⟩

/-- A batch adds itself, its tokens and its failing tokens to what the statistics counted before. -/
theorem handle {node : Node σ} {tokens : List String} {s : NodeState σ}
    {batches earlier failing : Nat}
    (h : Tally (node.runBatch tokens s).state.memory.statistics batches earlier failing)
    (micros : UInt64) :
    Tally (node.handle micros tokens s).state.memory.statistics (batches + 1)
      (earlier + tokens.length) (failing + (node.failures tokens s).length) := by
  have hcounts := node.foldl_step_counts tokens { state := s }
  obtain ⟨hfailed, htotal⟩ := hcounts
  change (node.runBatch tokens s).failed = 0 + _ at hfailed
  change (node.runBatch tokens s).handled + (node.runBatch tokens s).failed = 0 + 0 + _ at htotal
  rw [UInt64.zero_add] at hfailed
  rw [UInt64.zero_add, UInt64.zero_add] at htotal
  have hle := node.failures_length_le tokens s
  have hle' := h.failing_le
  rw [node.handle_statistics]
  refine ⟨?_, ?_, ?_, by omega⟩
  · rw [UInt64.ofNat_add, ← h.requests]
    rfl
  · rw [UInt64.ofNat_add, ← h.commands, ← htotal]
    change _ + _ + (_ + _) = _
    ac_rfl
  · rw [UInt64.ofNat_add, ← h.failed, ← hfailed]
    rfl

/-- Below the limit of a counter, the counters are the numbers that they count. -/
theorem toNat {t : Statistics} {batches tokens failing : Nat} (h : t.Tally batches tokens failing)
    (hbatches : batches < 2 ^ 64) (htokens : tokens < 2 ^ 64) :
    t.requests.toNat = batches ∧ t.failed.toNat = failing ∧
      t.handled.toNat + t.failed.toNat = tokens := by
  have hle := h.failing_le
  have hfailing : failing < 2 ^ 64 := by omega
  have hfailed : t.failed.toNat = failing := by
    rw [h.failed]
    exact UInt64.toNat_ofNat_of_lt' hfailing
  have htotal : (t.handled.toNat + t.failed.toNat) % 2 ^ 64 = tokens := by
    rw [← UInt64.toNat_add, h.commands]
    exact UInt64.toNat_ofNat_of_lt' htokens
  have hhandled := t.handled.toNat_lt
  refine ⟨?_, hfailed, by omega⟩
  rw [h.requests]
  exact UInt64.toNat_ofNat_of_lt' hbatches

end Statistics.Tally

/-- The batches that the statistics count: from the last one with a reset on, or all. -/
def countedBatches (batches : List (UInt64 × List String)) : List (UInt64 × List String) :=
  batches.drop (lastReset batches - 1)

namespace Node

variable {node : Node σ}

/-- The failing tokens of the batches that the statistics count. -/
def countedFailures (node : Node σ) (batches : List (UInt64 × List String)) (s : NodeState σ) :
    List String := ((node.runFailures batches s).drop (lastReset batches - 1)).flatten

/-- After a run the statistics count the batches from the last one with a reset on. -/
theorem ShowsStatistics.tally (h : node.ShowsStatistics)
    (batches : List (UInt64 × List String)) {s : NodeState σ} (hs : s.memory.statistics = .fresh) :
    (node.afterBatches batches s).memory.statistics.Tally (batches.length + 1 - lastReset batches)
      ((countedBatches batches).flatMap (·.2)).length (node.countedFailures batches s).length := by
  induction batches using List.reverseRecOn with
  | nil =>
    change s.memory.statistics.Tally 0 0 0
    rw [hs]
    exact .fresh
  | append_singleton batches batch ih =>
    unfold countedBatches countedFailures at ih ⊢
    rw [afterBatches_concat, runFailures_concat, lastReset_concat, List.length_append,
      List.length_singleton]
    have hstatistics := h.runBatch batch.2 (node.afterBatches batches s)
    by_cases hreset : "reset-stats" ∈ batch.2
    · -- the batch is counted alone
      rw [if_pos hreset] at hstatistics ⊢
      have hfresh : (node.runBatch batch.2 (node.afterBatches batches s)).state.memory.statistics.Tally
          0 0 0 := by
        rw [hstatistics]
        exact .fresh
      have hlength := node.runFailures_length batches s
      rw [Nat.add_sub_cancel, List.drop_left, ← hlength, List.drop_left, hlength]
      have hhandled := hfresh.handle batch.1
      simp only [Nat.zero_add] at hhandled
      have hone : batches.length + 1 + 1 - (batches.length + 1) = 1 := by omega
      rw [hone, List.flatMap_singleton, List.flatten_singleton]
      exact hhandled
    · rw [if_neg hreset] at hstatistics ⊢
      rw [← hstatistics] at ih
      have hpos := lastReset_pos batches
      have hle := lastReset_le batches
      have hhandled := ih.handle batch.1
      have hbatches : batches.length + 1 + 1 - lastReset batches =
          batches.length + 1 - lastReset batches + 1 := by omega
      have hdrop : lastReset batches - 1 ≤ batches.length := by omega
      have hdrop' : lastReset batches - 1 ≤ (node.runFailures batches s).length := by
        rw [node.runFailures_length]
        exact hdrop
      rw [List.drop_append_of_le_length hdrop, List.drop_append_of_le_length hdrop', hbatches,
        List.flatMap_append, List.length_append, List.flatten_append, List.length_append,
        List.flatMap_singleton, List.flatten_singleton]
      exact hhandled

/-- Before a reset, the tokens of a batch find the statistics of the batches before it. -/
theorem ShowsStatistics.afterRun (h : node.ShowsStatistics)
    (earlier : List (UInt64 × List String)) {before : List String}
    (hbefore : "reset-stats" ∉ before) (s : NodeState σ) :
    (node.afterRun earlier before s).memory.statistics =
      (node.afterBatches earlier s).memory.statistics := by
  have hbatch := h.runBatch before (node.afterBatches earlier s)
  rw [if_neg hbefore] at hbatch
  exact hbatch

theorem ShowsStatistics.read_requests_entries (h : node.ShowsStatistics) (s : NodeState σ) :
    (node.accessAttributes "DIAG.requests" s).entries =
      [("DIAG.requests", s.memory.statistics.requests.toNat.repr)] := by
  have hdot : '.' ∉ "DIAG".toList := by decide
  have hlistable : ∀ path ∈ ["requests"], AttributeItem.Listable path := by
    intro path hpath
    rw [List.mem_singleton.mp hpath]
    exact .of_plain (by decide)
  have hread := dispatch_component_read h.unique h.shown hdot hlistable s
  rw [dispatch_jmx] at hread
  rw [← sharedDiagnostics_read]
  exact congrArg Reply.entries hread

end Node

/-- The statistics count the batches from the last one with a reset on, and every token of
these once, as failed or as handled; a token that finds no component, and one whose writes
fail, are handled. A token that shows `DIAG.requests` before a reset in its own batch shows
the number of batches that the statistics counted before it. -/
theorem statistics_count_every_token_once (node : Node σ) (hnode : node.ShowsStatistics)
    (s : NodeState σ) (hs : s.memory.statistics = .fresh) :
    (∀ batches : List (UInt64 × List String),
      let requests := batches.length + 1 - lastReset batches
      let tokens := ((countedBatches batches).flatMap (·.2)).length
      let statistics := (node.afterBatches batches s).memory.statistics
      requests < 2 ^ 64 → tokens < 2 ^ 64 →
      statistics.requests.toNat = requests ∧
      statistics.failed.toNat = (node.countedFailures batches s).length ∧
      statistics.handled.toNat + statistics.failed.toNat = tokens) ∧
    (∀ (earlier : List (UInt64 × List String)) (before : List String), "reset-stats" ∉ before →
      let seen := earlier.length + 1 - lastReset earlier
      let now := node.afterRun earlier before s
      seen < 2 ^ 64 →
      now.memory.statistics.requests.toNat = seen ∧
      (∀ token, ∀ e ∈ (node.dispatch token now).entries,
        e.1 = "DIAG.requests" → e.2 = seen.repr) ∧
      (node.dispatch "jmx=DIAG.requests" now).entries = [("DIAG.requests", seen.repr)] ∧
      (node.dispatch "DIAG.requests" now).entries = [("DIAG.requests", seen.repr)]) ∧
    ∀ now : NodeState σ,
      (∀ token, Verb.ofToken? token = none →
        findByName node.components (Node.splitToken token).1 = none →
        (node.dispatch token now).failure = none) ∧
      ∀ argument c, findByName node.components (Node.attributeTarget argument).1 = some c →
        (node.dispatch ("jmx=" ++ argument) now).failure = none := by
  refine ⟨?_, ?_, ?_⟩
  · intro batches requests tokens statistics hrequests htokens
    exact (hnode.tally batches hs).toNat hrequests htokens
  · intro earlier before hbefore seen now hseen
    have hnow : now.memory.statistics.requests.toNat = seen := by
      rw [hnode.afterRun earlier hbefore, (hnode.tally earlier hs).requests]
      exact UInt64.toNat_ofNat_of_lt' hseen
    have hread := hnode.read_requests_entries now
    rw [hnow] at hread
    refine ⟨hnow, fun token e he hkey => ?_, ?_, ?_⟩
    · rw [← hnow]
      exact hnode.dispatch_requests he hkey
    · rw [show "jmx=DIAG.requests" = "jmx=" ++ "DIAG.requests" from rfl, Node.dispatch_jmx]
      exact hread
    · have hverb : Verb.ofToken? "DIAG.requests" = none := by decide
      have hname : findByName node.components "DIAG" = some sharedDiagnostics :=
        Node.findByName_of_mem hnode.unique hnode.shown
      rw [Node.dispatch_eq, node.commandOf?_of_no_verb hverb,
        show (Node.splitToken "DIAG.requests").1 = "DIAG" from rfl, hname]
      exact hread
  · intro now
    refine ⟨fun token hverb hname => ?_, fun argument c hfound => ?_⟩
    · rw [Node.dispatch_unknown hverb hname]
    · rw [Node.dispatch_jmx, Node.accessAttributes_eq, hfound]
      exact Node.accessComponent_failure c _ now

/-- The program's node shows its statistics through its diagnostics, and its counter spares them. -/
theorem CommandLine.node_showsStatistics (config : Config) (threads : ThreadSource) :
    (node config threads).ShowsStatistics where
  unique := by
    have hnames : (node config threads).components.map (·.name) = ["DIAG", "COUNTER"] := rfl
    rw [hnames]
    decide
  shown := List.mem_cons_self
  spared c hc hname := by
    simp only [node, List.mem_cons, List.not_mem_nil, or_false] at hc
    rcases hc with rfl | rfl
    · exact absurd rfl hname
    · exact counter.focus_spares

theorem statistics_after_reset_in_batch :
    let node := CommandLine.node {} (.numbered true true [])
    let s := CommandLine.initialState {}
    let batches : List (UInt64 × List String) :=
      [(5, ["COUNTER.increment[]", "op=COUNTER.add[x]"]),
        (7, ["op=COUNTER.add[y]", "COUNTER", "reset-stats", "NOPE.x"]),
        (2, ["jmx=COUNTER.count=a", "jmx=NOPE"])]
    let statistics := (node.afterBatches batches s).memory.statistics
    let now := node.afterRun batches ["NOPE"] s
    node.ShowsStatistics ∧ s.memory.statistics = .fresh ∧ lastReset batches = 2 ∧
    node.countedFailures batches s = ["op=COUNTER.add[y]", "jmx=NOPE"] ∧
    statistics.requests.toNat = 2 ∧ statistics.failed.toNat = 2 ∧
    statistics.handled.toNat + statistics.failed.toNat = 6 ∧
    "reset-stats" ∉ ["NOPE"] ∧
    (node.dispatch "DIAG.requests" now).entries = [("DIAG.requests", "2")] ∧
    (node.dispatch "NOPE.x" now).failure = none ∧
    (node.dispatch "jmx=COUNTER.count=a" now).failure = none := by
  intro node s batches statistics now
  have hnode := CommandLine.node_showsStatistics {} (.numbered true true [])
  have hfailures : node.countedFailures batches s = ["op=COUNTER.add[y]", "jmx=NOPE"] := by
    decide +kernel
  have hbefore : "reset-stats" ∉ ["NOPE"] := by decide
  obtain ⟨hcounts, hshown, hhandled⟩ := statistics_count_every_token_once node hnode s rfl
  have h := hcounts batches (by decide) (by decide)
  refine ⟨hnode, rfl, by decide, hfailures, h.1, ?_, h.2.2, hbefore, ?_, ?_, ?_⟩
  · rw [h.2.1, hfailures]
    rfl
  · have hshows := (hshown batches ["NOPE"] hbefore (by decide)).2.2.2
    have hseen : batches.length + 1 - lastReset batches = 2 := by decide
    rw [hseen] at hshows
    exact hshows
  · exact (hhandled now).1 "NOPE.x" (by decide) (by decide)
  · exact (hhandled now).2 "COUNTER.count=a" _ rfl

end NodeProbe
