import NodeProbe.Proofs.TomlLines
import NodeProbe.Toml.Format

/-!
# Plain documents in TOML

The statements of a document that was written build its table again, so the format reads back what
it writes.
-/
namespace NodeProbe.Toml

/-! ## Building the table -/

theorem lookup_eq_none {fields : Fields} {key : String} (h : key ∉ fields.map (·.1)) :
    fields.lookup key = none := by
  rw [List.lookup_eq_none_iff]
  intro f hf
  rw [bne_iff_ne]
  rintro rfl
  exact h (List.mem_map_of_mem hf)

theorem replace_concat {fields : Fields} {key : String} (h : key ∉ fields.map (·.1)) (v w : Toml) :
    replace key w (fields ++ [(key, v)]) = fields ++ [(key, w)] := by
  induction fields with
  | nil => exact if_pos rfl
  | cons f fields ih =>
    rw [List.map_cons, List.mem_cons, not_or] at h
    rw [List.cons_append, replace, if_neg (Ne.symm h.1), ih h.2, List.cons_append]

def settingFields (settings : Settings) : Fields := settings.map fun s => (s.1, settingValue s.2)

theorem assign_new {fields : Fields} {key : String} (h : key ∉ fields.map (·.1)) (v : Toml) :
    assign [] key v fields = some (fields ++ [(key, v)]) := by
  unfold assign updateAt
  rw [lookup_eq_none h]
  rfl

/-- Settings go to the table that is open: `put` gives the whole with that table in its place. -/
theorem build_settings {current : List String} (put : Fields → Fields)
    (hput : ∀ change inner, updateAt .implicit change current .header (put inner) =
      (change .header inner).map put)
    (settings : Settings) (inner : Fields)
    (hkeys : (inner.map (·.1) ++ settings.map (·.1)).Nodup) (later : List Statement) :
    build ((settingLines settings).filterMap Line.statement? ++ later) current (put inner) =
      build later current (put (inner ++ settingFields settings)) := by
  induction settings generalizing inner with
  | nil => rw [settingFields, List.map_nil, List.append_nil]; rfl
  | cons s settings ih =>
    have hnew : s.1 ∉ inner.map (·.1) := by
      intro h
      exact (List.nodup_append.mp hkeys).2.2 _ h _ List.mem_cons_self rfl
    have hnext : ((inner ++ [(s.1, settingValue s.2)]).map (·.1) ++ settings.map (·.1)).Nodup := by
      rw [List.map_append, List.append_assoc]
      exact hkeys
    show (updateAt .implicit (fun _ => assign [] s.1 (settingValue s.2)) current .header
      (put inner)).bind _ = _
    rw [hput, assign_new hnew, Option.map_some, Option.bind_some]
    refine (ih _ hnext).trans ?_
    rw [List.append_assoc]
    rfl

theorem updateAt_top (change : TableOrigin → Fields → Option Fields) (inner : Fields) :
    updateAt .implicit change [] .header inner = (change .header inner).map id := by
  rw [Option.map_id, updateAt]
  rfl

theorem updateAt_last {before : Fields} {key : String} (h : key ∉ before.map (·.1))
    (change : TableOrigin → Fields → Option Fields) (inner : Fields) :
    updateAt .implicit change [key] .header (before ++ [(key, .table .header inner)]) =
      (change .header inner).map fun inner => before ++ [(key, .table .header inner)] := by
  have hlookup : (before ++ [(key, Toml.table .header inner)]).lookup key =
      some (.table .header inner) := by
    rw [List.lookup_append, lookup_eq_none h]
    simp
  rw [updateAt, hlookup]
  dsimp only
  rw [if_neg (by decide), updateAt]
  simp only [replace_concat h]

def sectionFields (sections : List (String × Settings)) : Fields :=
  sections.map fun s => (s.1, .table .header (settingFields s.2))

/-- Sections open new tables one after the other, and their settings go to the table opened last. -/
theorem build_sections {sections : List (String × Settings)} {fields : Fields}
    (hkeys : (fields.map (·.1) ++ sections.map (·.1)).Nodup)
    (hsections : ∀ s ∈ sections, (s.2.map (·.1)).Nodup) (current : List String) :
    build ((sectionLines sections).filterMap Line.statement?) current fields =
      some (fields ++ sectionFields sections) := by
  induction sections generalizing fields current with
  | nil => rw [sectionFields, List.map_nil, List.append_nil]; rfl
  | cons s sections ih =>
    obtain ⟨key, settings⟩ := s
    obtain ⟨hsettings, hsections⟩ := List.forall_mem_cons.mp hsections
    have hnew : key ∉ fields.map (·.1) := by
      intro h
      exact (List.nodup_append.mp hkeys).2.2 _ h _ List.mem_cons_self rfl
    have hopen : openTable [] key fields = some (fields ++ [(key, .table .header [])]) := by
      unfold openTable updateAt
      rw [lookup_eq_none hnew]
    have hnext : ((fields ++ [(key, Toml.table .header (settingFields settings))]).map (·.1) ++
        sections.map (·.1)).Nodup := by
      rw [List.map_append, List.append_assoc]
      exact hkeys
    have hput := build_settings _ (updateAt_last hnew) settings [] hsettings
      ((sectionLines sections).filterMap Line.statement?)
    show build (.openTable [] key :: ((settingLines settings ++ sectionLines sections).filterMap
      Line.statement?)) current fields = _
    rw [build, hopen, Option.bind_some, List.filterMap_append, List.nil_append]
    refine hput.trans ?_
    rw [List.nil_append, ih hnext hsections, List.append_assoc]
    rfl

def documentFields (d : Document) : Fields := settingFields d.settings ++ sectionFields d.sections

theorem filterMap_tail_sectionLines (sections : List (String × Settings)) :
    (sectionLines sections).tail.filterMap Line.statement? =
      (sectionLines sections).filterMap Line.statement? := by
  cases sections with
  | nil => rfl
  | cons s sections => rfl

/-- The lines of a plain document build its table. -/
theorem build_documentLines {d : Document} (h : d.Plain) :
    build ((documentLines d).filterMap Line.statement?) [] [] = some (documentFields d) := by
  have hstatements : (documentLines d).filterMap Line.statement? =
      (settingLines d.settings).filterMap Line.statement? ++
        (sectionLines d.sections).filterMap Line.statement? := by
    unfold documentLines
    split
    · rename_i hnone
      rw [hnone, filterMap_tail_sectionLines]
      rfl
    · rw [List.filterMap_append]
  have hfields : ((settingFields d.settings).map (·.1) ++ d.sections.map (·.1)).Nodup := by
    unfold settingFields
    rw [List.map_map]
    exact h.keys
  rw [hstatements]
  refine (build_settings id updateAt_top d.settings [] ?_ _).trans ?_
  · exact (List.nodup_append.mp h.keys).1
  · exact build_sections hfields h.sectionKeys []

/-! ## Reading it -/

theorem fieldData_eq_map (fields : Fields) :
    fieldData fields = fields.map fun f => (f.1, f.2.datum) := by
  induction fields with
  | nil => rfl
  | cons f fields ih => exact congrArg (_ :: ·) ih

theorem fieldData_settingFields (settings : Settings) :
    fieldData (settingFields settings) = settings.fields := by
  rw [fieldData_eq_map, settingFields, List.map_map]
  refine List.map_congr_left fun s _ => ?_
  cases h : s.2 <;> simp [h, settingValue, datum, Setting.datum]

theorem fieldData_documentFields (d : Document) : fieldData (documentFields d) = d.fields := by
  have hsections : fieldData (sectionFields d.sections) =
      d.sections.map fun s => (s.1, .table s.2.fields) := by
    rw [fieldData_eq_map, sectionFields, List.map_map]
    refine List.map_congr_left fun s _ => ?_
    show (s.1, Datum.table (fieldData (settingFields s.2))) = _
    rw [fieldData_settingFields]
  rw [documentFields, fieldData_eq_map, List.map_append, ← fieldData_eq_map, ← fieldData_eq_map,
    fieldData_settingFields, hsections]
  rfl

theorem settingLines_wellFormed {settings : Settings} (hfits : settings.fits = true)
    (hbare : ∀ key ∈ settings.map (·.1), BareKey key) :
    ∀ line ∈ settingLines settings, line.WellFormed := by
  intro line hline
  obtain ⟨s, hs, rfl⟩ := List.mem_map.mp hline
  exact ⟨hbare _ (List.mem_map_of_mem hs), List.all_eq_true.mp hfits s hs⟩

theorem documentLines_wellFormed {d : Document} (h : d.Plain) :
    ∀ line ∈ documentLines d, line.WellFormed := by
  obtain ⟨hfits, hsectionFits⟩ := Bool.and_eq_true_iff.mp h.fits
  have hsettings : ∀ line ∈ settingLines d.settings, line.WellFormed :=
    settingLines_wellFormed hfits fun key hkey => h.bare key (List.mem_append_left _ hkey)
  have hsections : ∀ line ∈ sectionLines d.sections, line.WellFormed := by
    intro line hline
    obtain ⟨s, hs, hline⟩ := List.mem_flatMap.mp hline
    rcases List.mem_cons.mp hline with rfl | hline
    · trivial
    rcases List.mem_cons.mp hline with rfl | hline
    · exact h.bare s.1 (List.mem_append_right _ (List.mem_map_of_mem hs))
    · exact settingLines_wellFormed (List.all_eq_true.mp hsectionFits s hs) (h.sectionBare s hs)
        line hline
  intro line hline
  unfold documentLines at hline
  split at hline
  · exact hsections line (List.mem_of_mem_tail hline)
  · rcases List.mem_append.mp hline with hline | hline
    · exact hsettings line hline
    · exact hsections line hline

/-- The format keeps what the configuration relies on. -/
theorem format_readsBack : format.ReadsBack := by
  intro d h
  refine ⟨_, if_pos h.fits, ?_⟩
  show (read _).map fieldData = _
  rw [read_lines (documentLines_wellFormed h), build_documentLines h, Option.map_some,
    fieldData_documentFields]

end NodeProbe.Toml
