import Mathlib.Algebra.Group.Nat.Defs
import Mathlib.Data.List.Nodup
import NodeProbe.Proofs.ByteOrder
import NodeProbe.Thread.Report

/-!
# The rows of a thread report

A report shows the first rows of a list that holds every sampled thread once. The list is
ordered by the key of the query, and rows with equal keys stand as they were enumerated. The
cut comes last, so the width of the name column does not depend on it.
-/
namespace NodeProbe

open Number Text

/-! ## The order of rows -/

/-- The total order of floating-point numbers. Numbers with a minus sign come first, those of
greater magnitude before the others; a magnitude is greater the later it stands in the line from
zero over infinity to what is not a number. -/
def Number.Binary.TotalLe {f : Format} (x y : Binary f) : Prop :=
  match x.negative, y.negative with
  | true, false => True
  | false, true => False
  | false, false => x.rank ≤ y.rank
  | true, true => y.rank ≤ x.rank

theorem Number.Binary.totalOrderKey_le {f : Format} {x y : Binary f} :
    x.totalOrderKey ≤ y.totalOrderKey ↔ x.TotalLe y := by
  unfold totalOrderKey TotalLe
  cases x.negative <;> cases y.negative <;>
    simp only [Bool.false_eq_true, if_false, if_true, iff_true, iff_false] <;> omega

namespace SortKey

/-- Whether a row may stand before another: names and states ascend by their bytes, counts and
times descend. -/
def Before (key : SortKey) (a b : ThreadRow) : Prop :=
  match key with
  | .name => bytes a.name ≤ bytes b.name
  | .state => bytes a.state.text ≤ bytes b.state.text
  | .cpu => b.cpuMillis.TotalLe a.cpuMillis
  | .user => b.userMillis.TotalLe a.userMillis
  | .blocks => b.blocks.toNat ≤ a.blocks.toNat
  | .blockTime => b.blockMillis.TotalLe a.blockMillis
  | .waits => b.waits.toNat ≤ a.waits.toNat
  | .waitTime => b.waitMillis.TotalLe a.waitMillis

theorem le_iff_before {key : SortKey} {a b : ThreadRow} : key.le a b = true ↔ key.Before a b := by
  unfold le Before
  cases key <;> dsimp only <;> rw [decide_eq_true_eq]
  case name | state => exact le_iff_bytes_le
  case blocks | waits => exact UInt64.le_iff_toNat_le
  all_goals exact Binary.totalOrderKey_le

theorem le_trans (key : SortKey) (a b c : ThreadRow) (hab : key.le a b = true)
    (hbc : key.le b c = true) : key.le a c = true := by
  unfold le at *
  cases key <;> dsimp only at * <;> rw [decide_eq_true_eq] at *
  case name | state => exact String.le_trans hab hbc
  case blocks | waits => exact UInt64.le_trans hbc hab
  all_goals exact Int.le_trans hbc hab

theorem le_total (key : SortKey) (a b : ThreadRow) : (key.le a b || key.le b a) = true := by
  unfold le
  rw [Bool.or_eq_true]
  cases key <;> dsimp only <;> rw [decide_eq_true_eq, decide_eq_true_eq]
  case name | state => exact String.le_total _ _
  case blocks | waits => exact UInt64.le_total _ _
  all_goals exact Int.le_total _ _

/-- Rows with their places in the enumeration: one stands ahead of another when it may stand
before it and, if both may stand first, was enumerated first. -/
def Ahead (key : SortKey) (a b : ThreadRow × Nat) : Prop :=
  key.Before a.1 b.1 ∧ (key.Before b.1 a.1 → a.2 < b.2)

end SortKey

/-- Sorting keeps every row, with its place in the enumeration, and puts it behind all that stand
ahead of it. -/
theorem exists_sorted (key : SortKey) (rows : List ThreadRow) :
    ∃ sorted : List (ThreadRow × Nat), sorted.Perm rows.zipIdx ∧ sorted.Pairwise key.Ahead ∧
      sorted.map (·.1) = rows.mergeSort key.le := by
  refine ⟨rows.zipIdx.mergeSort (List.zipIdxLE key.le), List.mergeSort_perm _ _, ?_,
    List.mergeSort_zipIdx⟩
  have hordered := List.pairwise_mergeSort (List.zipIdxLE_trans key.le_trans)
    (List.zipIdxLE_total key.le_total) rows.zipIdx
  have hplaces : (rows.zipIdx.mergeSort (List.zipIdxLE key.le)).Pairwise (·.2 ≠ ·.2) := by
    have hnodup : (rows.zipIdx.map Prod.snd).Nodup := by
      rw [List.zipIdx_map_snd]
      exact List.nodup_range' 1
    exact List.pairwise_map.mp (((List.mergeSort_perm _ _).map Prod.snd).nodup_iff.mpr hnodup)
  refine hordered.imp₂ (fun a b hle hne => ?_) hplaces
  unfold List.zipIdxLE at hle
  by_cases hab : key.le a.1 b.1 = true
  · refine ⟨SortKey.le_iff_before.mp hab, fun hba => ?_⟩
    rw [if_pos hab, if_pos (SortKey.le_iff_before.mpr hba), decide_eq_true_eq] at hle
    omega
  · rw [if_neg hab] at hle
    cases hle

/-! ## The cut -/

/-- How many of `n` rows are shown. A limit that is not positive is none, and so is a default that
64 signed bits do not hold. -/
def shownCount (query : ThreadQuery) (layout : ReportLayout) (n : Nat) : Nat :=
  match query.limit with
  | some limit => if 0 < limit then min n limit.toInt.toNat else n
  | none =>
    let limit := layout.defaultLimit.toNat
    if limit = 0 ∨ 2 ^ 63 ≤ limit then n else min n limit

theorem shownCount_le (query : ThreadQuery) (layout : ReportLayout) (n : Nat) :
    shownCount query layout n ≤ n := by
  unfold shownCount
  cases query.limit <;> dsimp only <;> split_ifs <;> omega

/-- A number of 64 bits taken as a signed one is positive when its sign bit is clear and it is not
zero, and then it is the same number. -/
theorem toInt64_pos_iff (n : UInt64) :
    (0 < n.toInt64 ↔ ¬ (n.toNat = 0 ∨ 2 ^ 63 ≤ n.toNat)) ∧
      (0 < n.toInt64 → n.toInt64.toInt.toNat = n.toNat) := by
  have hbound := n.toNat_lt
  rw [Int64.lt_iff_toInt_lt, Int64.toInt_zero, toInt_toInt64]
  unfold maxInt64 maxUInt64
  split_ifs <;> omega

theorem cutRows_eq (limit : Int64) (rows : List ThreadRow) :
    cutRows limit rows =
      rows.take (if 0 < limit then min rows.length limit.toInt.toNat else rows.length) := by
  unfold cutRows
  split_ifs
  · rw [List.take_eq_take_iff]
    omega
  · rw [List.take_length]

/-- The rows of a report are the first ones in the order of its key. -/
theorem reportRows_eq (query : ThreadQuery) (layout : ReportLayout) (rows : List ThreadRow) :
    reportRows query layout rows =
      (rows.mergeSort query.sort.le).take (shownCount query layout rows.length) := by
  unfold reportRows shownCount
  rw [cutRows_eq, List.length_mergeSort]
  cases query.limit with
  | some limit => rfl
  | none =>
    obtain ⟨hpos, hvalue⟩ := toInt64_pos_iff layout.defaultLimit
    simp only [Option.getD_none]
    by_cases h : 0 < layout.defaultLimit.toInt64
    · rw [if_pos h, if_neg (hpos.mp h), hvalue h]
    · rw [if_neg h, if_pos (not_not.mp (mt hpos.mpr h))]

/-! ## The name column -/

theorem foldl_max_spec (xs : List Nat) (start : Nat) :
    (start ≤ xs.foldl max start ∧ ∀ x ∈ xs, x ≤ xs.foldl max start) ∧
      (xs.foldl max start = start ∨ xs.foldl max start ∈ xs) := by
  induction xs generalizing start with
  | nil => simp
  | cons x xs ih =>
    obtain ⟨⟨hstart, hall⟩, hattained⟩ := ih (max start x)
    rw [List.foldl_cons]
    refine ⟨⟨by omega, ?_⟩, ?_⟩
    · intro y hy
      rcases List.mem_cons.mp hy with rfl | hy
      · omega
      · exact hall y hy
    · rcases hattained with h | h
      · rw [h]
        rcases Nat.le_total start x with hle | hle
        · right; simp [Nat.max_eq_right hle]
        · left; exact Nat.max_eq_left hle
      · right; exact List.mem_cons_of_mem _ h

/-- A width is the longest name of the rows: none is longer, and it is the length of one of them
unless there are no rows. -/
structure LongestName (rows : List ThreadRow) (longest : Nat) : Prop where
  bound : ∀ row ∈ rows, row.name.length ≤ longest
  attained : longest = 0 ∨ ∃ row ∈ rows, row.name.length = longest

theorem exists_longestName (rows : List ThreadRow) (cap : Nat) :
    ∃ longest, LongestName rows longest ∧ nameWidth rows cap = min longest cap + 1 := by
  obtain ⟨⟨-, hbound⟩, hattained⟩ := foldl_max_spec (rows.map (·.name.length)) 0
  refine ⟨(rows.map (·.name.length)).foldl max 0, ⟨fun row hrow => ?_, ?_⟩, rfl⟩
  · exact hbound _ (List.mem_map_of_mem hrow)
  · exact hattained.imp_right List.mem_map.mp

/-! ## The report -/

/-- A choice of rows to show from all rows of a snapshot, each with its place in the
enumeration. -/
structure ReportCut (query : ThreadQuery) (layout : ReportLayout) (rows : List ThreadRow)
    (shown omitted : List (ThreadRow × Nat)) : Prop where
  all : (shown ++ omitted).Perm rows.zipIdx
  ordered : (shown ++ omitted).Pairwise query.sort.Ahead
  count : shown.length = shownCount query layout rows.length

/-- The sort is stable, so it can be followed from row to row by the places in the enumeration. -/
theorem exists_reportCut (query : ThreadQuery) (layout : ReportLayout) (rows : List ThreadRow) :
    ∃ shown omitted, ReportCut query layout rows shown omitted ∧
      reportRows query layout rows = shown.map (·.1) := by
  obtain ⟨sorted, hperm, hordered, hrows⟩ := exists_sorted query.sort rows
  have hsplit := sorted.take_append_drop (shownCount query layout rows.length)
  have hlength : sorted.length = rows.length := by rw [hperm.length_eq, List.length_zipIdx]
  refine ⟨sorted.take (shownCount query layout rows.length),
    sorted.drop (shownCount query layout rows.length), ⟨?_, ?_, ?_⟩, ?_⟩
  · rw [hsplit]
    exact hperm
  · rw [hsplit]
    exact hordered
  · rw [List.length_take, hlength]
    exact Nat.min_eq_left (shownCount_le query layout rows.length)
  · rw [reportRows_eq, ← hrows, List.map_take]

theorem ThreadSource.snapshot_ids (source : ThreadSource) (flags : MonitoringFlags) :
    (source.snapshot flags).map (·.id) = source.ids.filter fun id => (source.info id).isSome := by
  unfold snapshot
  induction source.ids with
  | nil => rfl
  | cons id ids ih =>
    rw [List.filterMap_cons, List.filter_cons]
    cases source.info id with
    | none => exact ih
    | some info => exact congrArg (id :: ·) ih

theorem ThreadSource.row_of_info {source : ThreadSource} {flags : MonitoringFlags} {row : ThreadRow}
    (h : row ∈ source.snapshot flags) : ∃ info, source.info row.id = some info ∧
      row = .ofInfo (source.shows flags .cpu) (source.shows flags .contention) row.id info := by
  obtain ⟨id, -, hrow⟩ := List.mem_filterMap.mp h
  obtain ⟨info, hinfo, rfl⟩ := Option.map_eq_some_iff.mp hrow
  exact ⟨info, hinfo, rfl⟩

/-- A report shows the first rows of a list that holds each present thread once, in the order of
the query's key and then of the enumeration: behind an empty line and the header stand their lines.
The key orders all rows totally, and the name column fits the longest name of all threads or the
cap, however many are shown. -/
theorem report_shows_first_rows (source : ThreadSource) (flags : MonitoringFlags)
    (query : ThreadQuery) (layout : ReportLayout) :
    (∀ a b, query.sort.le a b = true ↔ query.sort.Before a b) ∧
    (∀ a, query.sort.Before a a) ∧
    (∀ a b c, query.sort.Before a b → query.sort.Before b c → query.sort.Before a c) ∧
    (∀ a b, query.sort.Before a b ∨ query.sort.Before b a) ∧
    (source.snapshot flags).map (·.id) = (source.ids.filter fun id => (source.info id).isSome) ∧
    (∀ row ∈ source.snapshot flags, ∃ info, source.info row.id = some info ∧
      row = .ofInfo (source.shows flags .cpu) (source.shows flags .contention) row.id info) ∧
    ∃ shown omitted, ReportCut query layout (source.snapshot flags) shown omitted ∧
      ∃ longest, LongestName (source.snapshot flags) longest ∧
        let width := min longest layout.maxNameWidth.toNat + 1
        source.report flags query layout = renderRows (shown.map (·.1)) width ∧
        renderRows (shown.map (·.1)) width =
          "\n" ++ headerLine width ++ "\n" ++ String.join (shown.map (·.1.line width ++ "\n")) := by
  have htotal (a b : ThreadRow) : query.sort.Before a b ∨ query.sort.Before b a := by
    simpa only [Bool.or_eq_true, SortKey.le_iff_before] using query.sort.le_total a b
  refine ⟨fun a b => SortKey.le_iff_before, fun a => (htotal a a).elim id id, ?_, htotal,
    source.snapshot_ids flags, fun _ => ThreadSource.row_of_info, ?_⟩
  · intro a b c hab hbc
    rw [← SortKey.le_iff_before] at *
    exact query.sort.le_trans a b c hab hbc
  · obtain ⟨shown, omitted, hcut, hshown⟩ :=
      exists_reportCut query layout (source.snapshot flags)
    obtain ⟨longest, hlongest, hwidth⟩ :=
      exists_longestName (source.snapshot flags) layout.maxNameWidth.toNat
    refine ⟨shown, omitted, hcut, longest, hlongest, ?_, ?_⟩
    · simp only [ThreadSource.report, hwidth, hshown]
    · unfold renderRows
      rw [List.map_map]
      rfl

end NodeProbe
