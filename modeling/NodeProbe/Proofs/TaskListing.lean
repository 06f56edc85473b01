import NodeProbe.Proofs.Numerals
import NodeProbe.Proofs.Registration
import NodeProbe.Thread.Report
import NodeProbe.Thread.TaskDirectory

/-!
# The order of a task directory

A task directory is listed in any order, with other things between the tasks. The ids are
sorted and the files of a task are found by its name. So two listings of the same tasks give
the same source, as long as the first task speaks for all of them, and the same reports.
-/
namespace NodeProbe

open Number

/-! ## Ids as names -/

/-- The plain decimal text of an id is a name of that id. -/
theorem taskId?_repr (id : UInt64) : taskId? id.toNat.repr = some id := by
  have hbound : id.toNat ≤ maxUInt64 := Nat.le_sub_one_of_lt id.toNat_lt
  unfold taskId? readUInt64
  rw [Nat.toList_repr, readNatural_numeral (by decide) (by decide)
    (numeral_toDigits (by decide) (by decide) _) hbound]
  exact congrArg some (UInt64.ofNat_toNat)

/-- A member with a name of its own is found in whatever order the members stand. -/
theorem find?_eq_of_perm {α : Type} {key : α → String} {xs ys : List α} (h : xs.Perm ys)
    (hnodup : (xs.map key).Nodup) (name : String) :
    xs.find? (key · == name) = ys.find? (key · == name) := by
  cases hx : xs.find? (key · == name) with
  | none =>
    rw [List.find?_eq_none] at hx
    exact (List.find?_eq_none.mpr fun y hy => hx y (h.mem_iff.mpr hy)).symm
  | some x =>
    have hfound := List.find?_some hx
    have hname : key x = name := beq_iff_eq.mp hfound
    have hmem : x ∈ ys := h.mem_iff.mp (List.mem_of_find?_eq_some hx)
    rw [← hname]
    exact (find?_of_nodup ((h.map key).nodup hnodup) hmem).symm

/-! ## Listings of the same tasks -/

def TaskEntry.isTask (entry : TaskEntry) : Bool := (taskId? entry.name).isSome

theorem TaskEntry.isTask_of_name (entry : TaskEntry) {id : UInt64}
    (h : entry.name = id.toNat.repr) : entry.isTask = true := by
  unfold isTask
  rw [h, taskId?_repr]
  rfl

def tasksOf (entries : List TaskEntry) : List TaskEntry := entries.filter (·.isTask)

/-- Two listings of the same tasks, in any order and with anything between them. Names are
unique, and all of the tasks have a `schedstat` file or none of them has one. -/
structure SameTasks (entries entries' : List TaskEntry) : Prop where
  tasks : (tasksOf entries).Perm (tasksOf entries')
  names : ((tasksOf entries).map (·.name)).Nodup
  schedules : (∀ e ∈ tasksOf entries, e.hasSchedule = true) ∨
    ∀ e ∈ tasksOf entries, e.hasSchedule = false

theorem find?_task (entries : List TaskEntry) :
    entries.find? (fun e => (taskId? e.name).isSome) = (tasksOf entries).head? :=
  List.head?_filter.symm

theorem find?_named (entries : List TaskEntry) (id : UInt64) :
    entries.find? (·.name == id.toNat.repr) = (tasksOf entries).find? (·.name == id.toNat.repr) := by
  unfold tasksOf
  rw [List.find?_filter]
  congr 1
  funext e
  by_cases h : e.name = id.toNat.repr
  · simp [h, e.isTask_of_name h]
  · simp [h]

theorem filterMap_taskId? (entries : List TaskEntry) :
    entries.filterMap (fun e => taskId? e.name) =
      (tasksOf entries).filterMap fun e => taskId? e.name := by
  unfold tasksOf
  rw [List.filterMap_filter]
  refine List.filterMap_congr fun e _ => ?_
  unfold TaskEntry.isTask
  cases taskId? e.name <;> rfl

namespace ThreadSource

variable {entries entries' : List TaskEntry} {rate : UInt64}

theorem ofTasks_ids_sorted : (ofTasks entries rate).ids.Pairwise (· ≤ ·) := by
  have hsorted : (ofTasks entries rate).ids.Pairwise fun a b => decide (a ≤ b) = true :=
    List.pairwise_mergeSort
      (fun a b c hab hbc => by
        simp only [decide_eq_true_eq] at hab hbc ⊢
        exact UInt64.le_trans hab hbc)
      (fun a b => by
        simp only [Bool.or_eq_true, decide_eq_true_eq]
        exact UInt64.le_total a b) _
  exact hsorted.imp of_decide_eq_true

theorem ofTasks_ids_perm :
    (ofTasks entries rate).ids.Perm (entries.filterMap fun e => taskId? e.name) :=
  List.mergeSort_perm _ _

end ThreadSource

namespace SameTasks

variable {entries entries' : List TaskEntry} (h : SameTasks entries entries')
include h

/-- Whichever task comes first speaks for all of them. -/
theorem first_eq : (tasksOf entries').head?.map (·.hasSchedule) =
    (tasksOf entries).head?.map (·.hasSchedule) := by
  have hlength := h.tasks.length_eq
  cases hfirst : (tasksOf entries).head? with
  | none =>
    rw [List.head?_eq_none_iff] at hfirst
    rw [hfirst, List.length_nil] at hlength
    rw [List.eq_nil_of_length_eq_zero hlength.symm]
    rfl
  | some e =>
    have he : e ∈ tasksOf entries := List.mem_of_head? hfirst
    obtain ⟨e', hfirst'⟩ : ∃ e', (tasksOf entries').head? = some e' := by
      refine Option.ne_none_iff_exists'.mp fun hnone => ?_
      rw [List.head?_eq_none_iff.mp hnone] at hlength
      exact List.ne_nil_of_mem he (List.eq_nil_of_length_eq_zero hlength)
    have he' : e' ∈ tasksOf entries := h.tasks.mem_iff.mpr (List.mem_of_head? hfirst')
    rw [hfirst']
    -- another task may come first, but it has a `schedstat` file just as this one has
    rcases h.schedules with hall | hall
    · simp only [Option.map_some, hall e he, hall e' he']
    · simp only [Option.map_some, hall e he, hall e' he']

theorem ids_eq (rate : UInt64) :
    (ThreadSource.ofTasks entries' rate).ids = (ThreadSource.ofTasks entries rate).ids := by
  refine List.Perm.eq_of_pairwise (fun _ _ _ _ hle hge => UInt64.le_antisymm hle hge)
    ThreadSource.ofTasks_ids_sorted ThreadSource.ofTasks_ids_sorted ?_
  refine ThreadSource.ofTasks_ids_perm.trans (.trans ?_ ThreadSource.ofTasks_ids_perm.symm)
  rw [filterMap_taskId?, filterMap_taskId? entries]
  exact h.tasks.symm.filterMap _

/-- The listings give the same source. -/
theorem ofTasks_eq (rate : UInt64) :
    ThreadSource.ofTasks entries' rate = ThreadSource.ofTasks entries rate := by
  have hcpu : (ThreadSource.ofTasks entries' rate).cpuSupported =
      (ThreadSource.ofTasks entries rate).cpuSupported := by
    have hsome := congrArg Option.isSome h.first_eq
    rw [Option.isSome_map, Option.isSome_map, ← find?_task, ← find?_task] at hsome
    exact hsome
  have hcontention : (ThreadSource.ofTasks entries' rate).contentionSupported =
      (ThreadSource.ofTasks entries rate).contentionSupported := by
    have hfirst := h.first_eq
    unfold ThreadSource.ofTasks
    rw [find?_task, find?_task]
    revert hfirst
    cases (tasksOf entries').head? <;> cases (tasksOf entries).head? <;> simp
  have hinfo : (ThreadSource.ofTasks entries' rate).info =
      (ThreadSource.ofTasks entries rate).info := by
    funext id
    unfold ThreadSource.ofTasks
    dsimp only
    rw [find?_named, find?_named entries, find?_eq_of_perm h.tasks h.names]
  exact ThreadSource.mk.injEq .. ▸ ⟨hcpu, hcontention, h.ids_eq rate, hinfo⟩

end SameTasks

/-! ## Rows of a listing -/

theorem TaskEntry.info?_isSome {entry : TaskEntry} {rate : UInt64} :
    (entry.info? rate).isSome = true ↔
      ∃ text, entry.stat = some text ∧ (readStat? text).isSome = true := by
  unfold TaskEntry.info?
  cases hstat : entry.stat with
  | none => simp
  | some text => cases hfields : readStat? text <;> simp [hfields]

/-- Without a limit there is a row for every thread that still runs. -/
theorem exists_row_iff {source : ThreadSource} {query : ThreadQuery} {layout : ReportLayout}
    (hlimit : ¬ 0 < query.limit.getD layout.defaultLimit.toInt64) (flags : MonitoringFlags)
    {id : UInt64} (hid : id ∈ source.ids) :
    (∃ row ∈ reportRows query layout (source.snapshot flags), row.id = id) ↔
      (source.info id).isSome = true := by
  unfold reportRows cutRows
  rw [if_neg hlimit]
  simp only [List.mem_mergeSort, ThreadSource.snapshot, List.mem_filterMap, Option.map_eq_some_iff,
    Option.isSome_iff_exists]
  constructor
  · rintro ⟨row, ⟨id', -, info, hinfo, rfl⟩, rfl⟩
    exact ⟨info, hinfo⟩
  · rintro ⟨info, hinfo⟩
    exact ⟨_, ⟨id, hid, info, hinfo, rfl⟩, rfl⟩

/-- A thread has statistics when a task of its number has a readable `stat` file. -/
theorem ofTasks_info_isSome {entries : List TaskEntry}
    (hnames : ((tasksOf entries).map (·.name)).Nodup) {rate id : UInt64} :
    ((ThreadSource.ofTasks entries rate).info id).isSome = true ↔
      ∃ entry ∈ entries, entry.name = id.toNat.repr ∧
        ∃ text, entry.stat = some text ∧ (readStat? text).isSome = true := by
  unfold ThreadSource.ofTasks
  simp only [Option.isSome_bind, Option.any_eq_true, TaskEntry.info?_isSome]
  constructor
  · rintro ⟨entry, hfound, htext⟩
    have hname := List.find?_some hfound
    exact ⟨entry, List.mem_of_find?_eq_some hfound, beq_iff_eq.mp hname, htext⟩
  · rintro ⟨entry, hentry, hname, htext⟩
    have htask : entry ∈ tasksOf entries := List.mem_filter.mpr ⟨hentry, entry.isTask_of_name hname⟩
    refine ⟨entry, ?_, htext⟩
    rw [find?_named, ← hname]
    exact find?_of_nodup hnames htask

/-- Two listings of the same tasks have the same capabilities, the same ids in ascending order
and the same reports. A report renders the rows of a snapshot, a line each behind an empty line and
the header, and without a limit a listed id has one of them exactly when the `stat` file of the task
that is named by its plain decimal text can be read. -/
theorem listing_order_does_not_show {entries entries' : List TaskEntry}
    (hsame : SameTasks entries entries') (rate : UInt64) :
    let source := ThreadSource.ofTasks entries rate
    let source' := ThreadSource.ofTasks entries' rate
    (∀ kind, source'.supports kind = source.supports kind) ∧
    source'.ids = source.ids ∧ source.ids.Pairwise (· ≤ ·) ∧
    source.ids.Perm (entries.filterMap fun e => taskId? e.name) ∧
    (∀ flags query layout, source'.report flags query layout = source.report flags query layout) ∧
    ∀ flags query layout,
      let rows := reportRows query layout (source.snapshot flags)
      (∃ width, source.report flags query layout = renderRows rows width ∧
        renderRows rows width =
          "\n" ++ headerLine width ++ "\n" ++ String.join (rows.map (·.line width ++ "\n"))) ∧
      (¬ 0 < query.limit.getD layout.defaultLimit.toInt64 → ∀ id ∈ source.ids,
        (∃ row ∈ rows, row.id = id) ↔
          ∃ entry ∈ entries, entry.name = id.toNat.repr ∧
            ∃ text, entry.stat = some text ∧ (readStat? text).isSome = true) := by
  intro source source'
  have hsource : source' = source := hsame.ofTasks_eq rate
  refine ⟨fun _ => by rw [hsource], by rw [hsource], ThreadSource.ofTasks_ids_sorted,
    ThreadSource.ofTasks_ids_perm, fun _ _ _ => by rw [hsource], ?_⟩
  intro flags query layout rows
  refine ⟨⟨_, rfl, rfl⟩, fun hlimit id hid => ?_⟩
  rw [exists_row_iff hlimit flags hid, ofTasks_info_isSome hsame.names]

/-- The id of a name with a sign is listed, but no task has its plain name. -/
theorem two_listings_of_three_tasks :
    let stat := "20 (a) S 1 1 1 0 -1 0 0 0 0 0 250 50"
    let worker : TaskEntry := { name := "20", stat := some stat, schedule := some "1 2 3" }
    let ended : TaskEntry := { name := "7", schedule := some "" }
    let signed : TaskEntry := { name := "+5", stat := some stat, schedule := some "4" }
    let other : TaskEntry := { name := "self", stat := some stat }
    let entries := [worker, other, ended, signed]
    let entries' := [signed, worker, ended, other]
    let source := ThreadSource.ofTasks entries 100
    let source' := ThreadSource.ofTasks entries' 100
    SameTasks entries entries' ∧ source.ids = [5, 7, 20] ∧
    source'.report {} {} {} = source.report {} {} {} ∧
    ∃ rows width, source.report {} {} {} = renderRows rows width ∧
      (∃ row ∈ rows, row.id = 20) ∧ ¬ ∃ row ∈ rows, row.id = 5 := by
  intro stat worker ended signed other entries entries' source source'
  have hsame : SameTasks entries entries' := ⟨by decide, by decide, .inl (by decide)⟩
  obtain ⟨-, -, hsorted, hperm, hreport, hrows⟩ := listing_order_does_not_show hsame 100
  have hids : source.ids = [5, 7, 20] :=
    List.Perm.eq_of_pairwise (fun _ _ _ _ hle hge => UInt64.le_antisymm hle hge) hsorted (by decide)
      (hperm.trans (by decide))
  obtain ⟨⟨width, hrendered, -⟩, hrow⟩ := hrows {} {} {}
  refine ⟨hsame, hids, hreport {} {} {}, _, width, hrendered, ?_, ?_⟩
  · refine (hrow (by decide) 20 (by rw [hids]; decide)).mpr ?_
    exact ⟨worker, List.mem_cons_self, by decide, stat, rfl, by decide⟩
  · refine mt (hrow (by decide) 5 (by rw [hids]; decide)).mp ?_
    have hplain : ∀ entry ∈ entries, entry.name ≠ (5 : UInt64).toNat.repr := by decide
    rintro ⟨entry, hentry, hname, -⟩
    exact hplain entry hentry hname

end NodeProbe
