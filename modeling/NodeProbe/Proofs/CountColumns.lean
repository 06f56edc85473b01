import Mathlib
import NodeProbe.Proofs.Grouping
import NodeProbe.Proofs.ReportRows

/-!
# The columns of counts

Rows are sorted by their counts as they are, but the cells show them as signed numbers. Both agree
on counts below `2 ^ 63`, and only on these: a greater count shows as a negative number. So the
numbers in a sorted column do not increase as long as all of them stand on one side of that bound.
-/
namespace NodeProbe

open Number Text

/-! ## The cells of a line -/

theorem words_spaced (s t : String) : words (s ++ " " ++ t).toList = words s.toList ++ words t.toList := by
  have hchars : (s ++ " " ++ t).toList = s.toList ++ ' ' :: t.toList := by simp
  rw [hchars]
  exact pieces_append_cons (by decide) _ _

/-- Padding belongs to no cell. -/
theorem words_padStart (width : Nat) {s : String} (h : Solid isBlank s.toList) :
    words (padStart width s).toList = [s.toList] := by
  have hblank : ∀ c ∈ List.replicate (width - s.length) ' ', isBlank c = true := by
    intro c hc
    rw [List.eq_of_mem_replicate hc]
    rfl
  unfold padStart words
  rw [String.toList_append, String.toList_ofList, pieces_separators_append hblank, h.pieces_eq]

/-- The last six cells of a line are its figures, whatever the name holds. -/
theorem ThreadRow.words_line (row : ThreadRow) (width : Nat) :
    ∃ before, words (row.line width).toList = before ++ [
      (millisText row.cpuMillis).toList, (millisText row.userMillis).toList,
      (countText row.blocks).toList, (millisText row.blockMillis).toList,
      (countText row.waits).toList, (millisText row.waitMillis).toList] := by
  have hcolon : ∀ s t : String, s ++ ": " ++ t = s ++ ":" ++ " " ++ t := by
    intro s t
    rw [@String.append_assoc s ":" " "]
    rfl
  have hcell : ∀ (width : Nat) (value : Int64), words (padStart width (groupThousands value)).toList =
      [(groupThousands value).toList] :=
    fun width value => words_padStart width (solid_groupThousands value)
  refine ⟨words ("[" ++ row.state.text ++ "]\t" ++ padEnd width row.name ++ ":").toList, ?_⟩
  unfold line millisText countText
  simp only [words_spaced, hcolon, hcell, List.append_assoc, List.cons_append, List.nil_append]

inductive CountColumn where
  | blocks
  | waits

namespace CountColumn

def count : CountColumn → ThreadRow → UInt64
  | blocks, row => row.blocks
  | waits, row => row.waits

def key : CountColumn → SortKey
  | blocks => .blocks
  | waits => .waits

/-- How many columns stand behind it. -/
def place : CountColumn → Nat
  | blocks => 3
  | waits => 1

/-- The cell of the column, counted from the end of the line because a name may hold blanks. -/
def cell? (column : CountColumn) (line : String) : Option (List Char) :=
  (words line.toList).reverse[column.place]?

/-- The cell of the column, without its padding and its commas, is the decimal text of a number. -/
def Shows (column : CountColumn) (line : String) (n : Int) : Prop :=
  (column.cell? line).map withoutCommas = some n.repr.toList

theorem Shows.unique {column : CountColumn} {line : String} {m n : Int} (hm : column.Shows line m)
    (hn : column.Shows line n) : m = n :=
  Int.repr_injective (String.toList_inj.mp (Option.some.inj (hm.symm.trans hn)))

theorem cell?_line (column : CountColumn) (row : ThreadRow) (width : Nat) :
    column.cell? (row.line width) = some (countText (column.count row)).toList := by
  obtain ⟨before, hwords⟩ := row.words_line width
  unfold cell?
  rw [hwords, List.reverse_append]
  cases column <;> rfl

/-- A line shows the count as a signed number. -/
theorem shows_line (column : CountColumn) (row : ThreadRow) (width : Nat) :
    column.Shows (row.line width) (column.count row).toInt64.toInt := by
  unfold Shows
  rw [cell?_line, Option.map_some]
  exact congrArg some (withoutCommas_groupThousands _)

/-- The count itself is shown when it is below the sign bit, and only then. -/
theorem shows_count_iff (column : CountColumn) (row : ThreadRow) (width : Nat) :
    column.Shows (row.line width) (column.count row).toNat ↔ (column.count row).toNat < 2 ^ 63 := by
  have hshown := column.shows_line row width
  have hhalf : (column.count row).toNat ≤ maxInt64 ↔ (column.count row).toNat < 2 ^ 63 := by
    unfold maxInt64
    omega
  rw [toInt_toInt64] at hshown
  rw [← hhalf]
  constructor
  · intro h
    by_contra hlarge
    rw [if_neg hlarge] at hshown
    have hsame := h.unique hshown
    omega
  · intro hsmall
    rwa [if_pos hsmall] at hshown

/-! ## Sorted columns -/

/-- The numbers that the column shows do not increase from row to row. -/
def Descends (column : CountColumn) (rows : List ThreadRow) (width : Nat) : Prop :=
  ∃ numbers : List Int, List.Forall₂ (fun row n => column.Shows (row.line width) n) rows numbers ∧
    numbers.Pairwise (· ≥ ·)

/-- A column descends as the signed readings of the counts do: a cell tells its number. -/
theorem descends_iff (column : CountColumn) (rows : List ThreadRow) (width : Nat) :
    column.Descends rows width ↔ rows.Pairwise fun a b =>
      (column.count b).toInt64.toInt ≤ (column.count a).toInt64.toInt := by
  constructor
  · rintro ⟨numbers, hshows, hpairwise⟩
    have hnumbers : rows.map (fun row => (column.count row).toInt64.toInt) = numbers := by
      rw [← List.forall₂_eq_eq_eq, List.forall₂_map_left_iff]
      exact hshows.imp fun row n h => (column.shows_line row width).unique h
    rw [← hnumbers] at hpairwise
    exact List.pairwise_map.mp hpairwise
  · intro hpairwise
    refine ⟨rows.map fun row => (column.count row).toInt64.toInt, ?_, List.pairwise_map.mpr hpairwise⟩
    rw [List.forall₂_map_right_iff, List.forall₂_same]
    exact fun row _ => column.shows_line row width

/-- Two counts keep their order as signed numbers when they stand on one side of the sign bit, and
reverse it otherwise. -/
theorem toInt_toInt64_le_iff {m n : UInt64} (h : n.toNat ≤ m.toNat) :
    n.toInt64.toInt ≤ m.toInt64.toInt ↔ (2 ^ 63 ≤ m.toNat → 2 ^ 63 ≤ n.toNat) := by
  have hbound := m.toNat_lt
  rw [toInt_toInt64, toInt_toInt64]
  unfold maxInt64 maxUInt64
  split_ifs <;> omega

/-- Counts that descend as words descend as signed numbers when none or all of them have the sign
bit. -/
theorem ordered_toInt_iff {column : CountColumn} {rows : List ThreadRow}
    (h : rows.Pairwise fun a b => (column.count b).toNat ≤ (column.count a).toNat) :
    (rows.Pairwise fun a b => (column.count b).toInt64.toInt ≤ (column.count a).toInt64.toInt) ↔
      (∀ row ∈ rows, (column.count row).toNat < 2 ^ 63) ∨
        ∀ row ∈ rows, 2 ^ 63 ≤ (column.count row).toNat := by
  induction rows with
  | nil => simp
  | cons first rest ih =>
    obtain ⟨hfirst, hrest⟩ := List.pairwise_cons.mp h
    have hsides : (∀ row ∈ rest, (column.count row).toInt64.toInt ≤
          (column.count first).toInt64.toInt) ↔
        ∀ row ∈ rest, 2 ^ 63 ≤ (column.count first).toNat → 2 ^ 63 ≤ (column.count row).toNat :=
      forall₂_congr fun row hrow => toInt_toInt64_le_iff (hfirst row hrow)
    rw [List.pairwise_cons, ih hrest, hsides, List.forall_mem_cons, List.forall_mem_cons]
    by_cases hlarge : 2 ^ 63 ≤ (column.count first).toNat
    · constructor
      · rintro ⟨hall, -⟩
        exact .inr ⟨hlarge, fun row hrow => hall row hrow hlarge⟩
      · rintro (⟨hsmall, -⟩ | ⟨-, hall⟩)
        · omega
        · exact ⟨fun row hrow _ => hall row hrow, .inr hall⟩
    · have hbelow : ∀ row ∈ rest, (column.count row).toNat < 2 ^ 63 := fun row hrow => by
        have hle := hfirst row hrow
        omega
      constructor
      · rintro -
        exact .inl ⟨by omega, hbelow⟩
      · rintro -
        exact ⟨fun row _ hcontra => absurd hcontra hlarge, .inl hbelow⟩

end CountColumn

theorem reportRows_ordered (query : ThreadQuery) (layout : ReportLayout) (rows : List ThreadRow) :
    (reportRows query layout rows).Pairwise query.sort.Before := by
  obtain ⟨shown, omitted, hcut, hrows⟩ := exists_reportCut query layout rows
  rw [hrows, List.pairwise_map]
  exact (List.pairwise_append.mp hcut.ordered).1.imp And.left

theorem CountColumn.before_key {column : CountColumn} {a b : ThreadRow}
    (h : column.key.Before a b) : (column.count b).toNat ≤ (column.count a).toNat := by
  cases column with
  | blocks => exact h
  | waits => exact h

/-- The line of a row stands in the table as it is. -/
theorem exists_renderRows_eq {rows : List ThreadRow} {row : ThreadRow} (h : row ∈ rows) (width : Nat) :
    ∃ before behind, renderRows rows width = before ++ (row.line width ++ "\n") ++ behind := by
  obtain ⟨earlier, later, rfl⟩ := List.append_of_mem h
  refine ⟨"\n" ++ headerLine width ++ "\n" ++ String.join (earlier.map (·.line width ++ "\n")),
    String.join (later.map (·.line width ++ "\n")), ?_⟩
  simp [renderRows, ← String.toList_inj, String.toList_join]

/-- In every table, the columns of counts show the counts of a row if and only if these are below
`2 ^ 63`. In a report that is sorted by such a column, the numbers that it shows do not increase
from row to row if and only if all its counts are below that bound or none of them is. -/
theorem count_columns_show_counts_iff (rows : List ThreadRow) (width : Nat) (source : ThreadSource)
    (flags : MonitoringFlags) (query : ThreadQuery) (layout : ReportLayout) (column : CountColumn) :
    (∀ row ∈ rows,
      (∃ before behind, renderRows rows width = before ++ (row.line width ++ "\n") ++ behind) ∧
      (column.Shows (row.line width) (column.count row).toNat ↔
        (column.count row).toNat < 2 ^ 63)) ∧
    let shown := reportRows query layout (source.snapshot flags)
    ∃ w, source.report flags query layout = renderRows shown w ∧
      (query.sort = column.key → (column.Descends shown w ↔
        (∀ row ∈ shown, (column.count row).toNat < 2 ^ 63) ∨
          ∀ row ∈ shown, 2 ^ 63 ≤ (column.count row).toNat)) := by
  refine ⟨fun row hrow => ⟨exists_renderRows_eq hrow width, column.shows_count_iff row width⟩, ?_⟩
  intro shown
  refine ⟨nameWidth (source.snapshot flags) layout.maxNameWidth.toNat, rfl, fun hkey => ?_⟩
  have hordered := reportRows_ordered query layout (source.snapshot flags)
  rw [hkey] at hordered
  rw [CountColumn.descends_iff]
  exact CountColumn.ordered_toInt_iff (hordered.imp CountColumn.before_key)

/-- Sorted by the blocked counts, a row with a negative number stands before one with a positive
number. -/
theorem largest_counts_show_as_negative :
    let source : ThreadSource := .numbered true true
      [{ name := "a", state := .sleeping, blockedCount := 9223372036854775808 },
        { name := "b", state := .sleeping, blockedCount := 9223372036854775807 }]
    ∃ a b, source.snapshot {} = [a, b] ∧
      reportRows { sort := .blocks } {} (source.snapshot {}) = [a, b] ∧
      ∀ width, CountColumn.blocks.Shows (a.line width) (-9223372036854775808) ∧
        CountColumn.blocks.Shows (b.line width) 9223372036854775807 ∧
        ¬ CountColumn.blocks.Shows (a.line width) a.blocks.toNat ∧
        ¬ CountColumn.blocks.Descends [a, b] width := by
  intro source
  have hsnapshot : ∃ a b : ThreadRow, source.snapshot {} = [a, b] ∧
      a.blocks = 9223372036854775808 ∧ b.blocks = 9223372036854775807 := ⟨_, _, rfl, rfl, rfl⟩
  obtain ⟨a, b, hrows, ha, hb⟩ := hsnapshot
  have hle : SortKey.blocks.le a b = true := by
    simp only [SortKey.le, ha, hb]
    decide
  have hshows := fun width row => CountColumn.blocks.shows_line row width
  have hcount : CountColumn.blocks.count = ThreadRow.blocks := rfl
  refine ⟨a, b, hrows, ?_, fun width => ⟨?_, ?_, ?_, ?_⟩⟩
  · rw [hrows, reportRows_eq]
    have hsorted : [a, b].mergeSort SortKey.blocks.le = [a, b] :=
      List.mergeSort_of_pairwise (by simpa using hle)
    rw [hsorted]
    rfl
  · have h := hshows width a
    rw [hcount, ha] at h
    exact h
  · have h := hshows width b
    rw [hcount, hb] at h
    exact h
  · rw [← hcount, CountColumn.shows_count_iff, hcount, ha]
    decide
  · rw [CountColumn.descends_iff, hcount]
    simp only [List.pairwise_cons, List.mem_singleton, forall_eq, ha, hb]
    decide

end NodeProbe
