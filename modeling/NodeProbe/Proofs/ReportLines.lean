import NodeProbe.Proofs.Grouping
import NodeProbe.Proofs.ReportRows

/-!
# The lines of a thread report

Every row of a report ends a line. Its figures and its state cannot end another, but its name can:
names stand in the table as they are. So the table has a line for each row exactly when no name
that is shown holds a line end.
-/
namespace NodeProbe

open Number Text

/-! ## Counting lines -/

namespace Text

theorem length_splitOn (c : Char) (cs : List Char) : (cs.splitOn c).length = cs.count c + 1 := by
  unfold List.splitOn
  induction cs with
  | nil => rfl
  | cons x cs ih =>
    rw [List.splitOnP_cons_eq_if_modifyHead, List.count_cons]
    by_cases h : x = c
    · simp [h, ih]
    · simp [h, ih]

/-- A text that ends its last line has as many lines as line ends. -/
theorem length_lines {cs : List Char} (h : cs = [] ∨ cs.getLast? = some '\n') :
    (lines cs).length = cs.count '\n' := by
  rcases h with rfl | hlast
  · rfl
  · obtain ⟨before, rfl⟩ := List.getLast?_eq_some_iff.mp hlast
    have hsplit : (before ++ ['\n']).splitOn '\n' = before.splitOn '\n' ++ [[]] :=
      List.splitOnP_append_cons before [] (beq_self_eq_true '\n')
    unfold lines
    simp [hsplit, length_splitOn]

def lineEnds (s : String) : Nat := s.toList.count '\n'

theorem lineEnds_append (s t : String) : lineEnds (s ++ t) = lineEnds s + lineEnds t := by
  simp [lineEnds]

theorem lineEnds_eq_zero {s : String} : lineEnds s = 0 ↔ '\n' ∉ s.toList := List.count_eq_zero

theorem lineEnds_spaces (n : Nat) : lineEnds (.ofList (List.replicate n ' ')) = 0 := by
  simp [lineEnds_eq_zero]

theorem lineEnds_padEnd (width : Nat) (s : String) : lineEnds (padEnd width s) = lineEnds s := by
  rw [padEnd, lineEnds_append, lineEnds_spaces, Nat.add_zero]

theorem lineEnds_padStart (width : Nat) (s : String) : lineEnds (padStart width s) = lineEnds s := by
  rw [padStart, lineEnds_append, lineEnds_spaces, Nat.zero_add]

theorem lineEnds_groupThousands (value : Int64) : lineEnds (groupThousands value) = 0 := by
  rw [lineEnds_eq_zero]
  intro hmem
  rcases mem_groupThousands hmem with hminus | hcomma | hdigit
  · cases hminus
  · cases hcomma
  · cases hdigit

end Text

/-! ## The table -/

theorem lineEnds_headerLine (width : Nat) : lineEnds (headerLine width) = 0 := by
  unfold headerLine
  simp only [lineEnds_append, lineEnds_padEnd, lineEnds_padStart]
  decide

theorem lineEnds_stateText (state : ThreadState) : lineEnds state.text = 0 := by
  cases state <;> decide

/-- Of all cells of a row only the name can end a line. -/
theorem ThreadRow.lineEnds_line (row : ThreadRow) (width : Nat) :
    lineEnds (row.line width) = lineEnds row.name := by
  have hsigns : lineEnds "[" = 0 ∧ lineEnds "]\t" = 0 ∧ lineEnds ": " = 0 ∧ lineEnds " " = 0 := by
    decide
  obtain ⟨hopen, hclose, hcolon, hspace⟩ := hsigns
  unfold line millisText countText
  simp only [lineEnds_append, lineEnds_padEnd, lineEnds_padStart, lineEnds_groupThousands,
    lineEnds_stateText, hopen, hclose, hcolon, hspace]
  omega

/-- The rows of the table, each with its line end. -/
def tableBody (rows : List ThreadRow) (width : Nat) : String :=
  String.join (rows.map (·.line width ++ "\n"))

/-- A row ends a line once by itself, and once more for every line end in its name. -/
theorem lineEnds_tableBody (rows : List ThreadRow) (width : Nat) :
    lineEnds (tableBody rows width) = rows.length + (rows.flatMap (·.name.toList)).count '\n' := by
  induction rows with
  | nil => rfl
  | cons row rows ih =>
    have hbody : tableBody (row :: rows) width = row.line width ++ "\n" ++ tableBody rows width := by
      simp [tableBody]
    have hend : lineEnds "\n" = 1 := by decide
    rw [hbody, lineEnds_append, lineEnds_append, row.lineEnds_line, ih, hend, List.length_cons,
      List.flatMap_cons, List.count_append]
    unfold lineEnds
    omega

theorem tableBody_ends (rows : List ThreadRow) (width : Nat) :
    (tableBody rows width).toList = [] ∨ (tableBody rows width).toList.getLast? = some '\n' := by
  rcases List.eq_nil_or_concat rows with rfl | ⟨before, row, rfl⟩
  · exact .inl rfl
  · right
    simp [tableBody, String.toList_join]

theorem length_lines_tableBody (rows : List ThreadRow) (width : Nat) :
    (lines (tableBody rows width).toList).length =
      rows.length + (rows.flatMap (·.name.toList)).count '\n' := by
  rw [length_lines (tableBody_ends rows width)]
  exact lineEnds_tableBody rows width

/-- A report is an empty line, the header and the rows that are shown. -/
theorem ThreadSource.exists_report_eq (source : ThreadSource) (flags : MonitoringFlags)
    (query : ThreadQuery) (layout : ReportLayout) : ∃ width, source.report flags query layout =
      "\n" ++ headerLine width ++ "\n" ++
        tableBody (reportRows query layout (source.snapshot flags)) width := ⟨_, rfl⟩

/-- Behind the empty line and the header, a report has a line for each row that is shown if and
only if no name of these rows holds a line end; each line end in a name makes one line more. -/
theorem report_has_line_per_row_iff (source : ThreadSource) (flags : MonitoringFlags)
    (query : ThreadQuery) (layout : ReportLayout) :
    let present := source.ids.filter fun id => (source.info id).isSome
    let shown := reportRows query layout (source.snapshot flags)
    shown.length = shownCount query layout present.length ∧
    ∃ header body : String, source.report flags query layout = "\n" ++ header ++ "\n" ++ body ∧
      '\n' ∉ header.toList ∧
      (lines body.toList).length = shown.length + (shown.flatMap (·.name.toList)).count '\n' ∧
      ((lines body.toList).length = shown.length ↔ ∀ row ∈ shown, '\n' ∉ row.name.toList) := by
  intro present shown
  have hpresent : (source.snapshot flags).length = present.length := by
    rw [← List.length_map (·.id), source.snapshot_ids]
  have hshown : shown.length = shownCount query layout present.length := by
    rw [← hpresent]
    simp only [shown]
    rw [reportRows_eq, List.length_take, List.length_mergeSort]
    exact Nat.min_eq_left (shownCount_le query layout _)
  obtain ⟨width, hreport⟩ := source.exists_report_eq flags query layout
  have hlines := length_lines_tableBody shown width
  refine ⟨hshown, headerLine width, tableBody shown width, hreport,
    lineEnds_eq_zero.mp (lineEnds_headerLine width), hlines, ?_⟩
  rw [hlines, Nat.add_eq_left, List.count_eq_zero]
  simp

/-- One thread makes two lines when its name ends a line. -/
theorem name_with_line_end_takes_two_lines :
    let source : ThreadSource := .numbered true true [{ name := "a\nb", state := .sleeping }]
    let shown := reportRows {} {} (source.snapshot {})
    shown.length = 1 ∧
    ∃ header body : String, source.report {} {} {} = "\n" ++ header ++ "\n" ++ body ∧
      '\n' ∉ header.toList ∧ (lines body.toList).length = 2 := by
  intro source shown
  obtain ⟨width, hreport⟩ := source.exists_report_eq {} {} {}
  have hsnapshot : ∃ row : ThreadRow, source.snapshot {} = [row] ∧ row.name = "a\nb" := ⟨_, rfl, rfl⟩
  obtain ⟨row, hrow, hname⟩ := hsnapshot
  have hshown : shown = [row] := by
    simp only [shown, hrow]
    exact List.mergeSort_singleton row
  refine ⟨by rw [hshown]; rfl, headerLine width, tableBody shown width, hreport,
    lineEnds_eq_zero.mp (lineEnds_headerLine width), ?_⟩
  rw [length_lines_tableBody, hshown]
  simp [hname]

end NodeProbe
