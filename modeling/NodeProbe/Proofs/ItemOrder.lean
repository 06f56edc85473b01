import NodeProbe.Proofs.AttributeCommands
import NodeProbe.Proofs.ComponentCommands
import NodeProbe.Proofs.Padding

/-!
# The order of items in an attribute command

The writes of a list are carried out one after the other, and only then is anything read. The order
of the writes counts; where the reads stand between them, how often a read is repeated and where
blank items stand does not.
-/
namespace NodeProbe

variable {σ : Type}

/-! ## Items -/

namespace AttributeItem

/-- An item writes when it has an equals sign. -/
def IsWrite (item : String) : Prop := '=' ∈ item.toList

def IsBlank (item : String) : Prop := ∀ c ∈ item.toList, Text.isBlank c = true

def IsRead (item : String) : Prop := ¬ IsWrite item ∧ ¬ IsBlank item

instance : DecidablePred IsWrite := fun item => inferInstanceAs (Decidable ('=' ∈ item.toList))

instance : DecidablePred IsBlank := fun item =>
  decidable_of_iff (item.toList.all Text.isBlank = true) List.all_eq_true

instance : DecidablePred IsRead := fun item =>
  inferInstanceAs (Decidable (¬ IsWrite item ∧ ¬ IsBlank item))

def writeOfItem? (item : String) : Option (String × String) := (ofItem? item).bind writeOf?

def readOfItem? (item : String) : Option String := (ofItem? item).bind readName?

theorem ofItem?_blank {item : String} (h : IsBlank item) : ofItem? item = none := by
  unfold ofItem?
  rw [Text.trim_eq_nil.mpr h]
  rfl

theorem ofItem?_read {item : String} (h : IsRead item) : ofItem? item = some (read item.trimBlanks) := by
  have hkept : Text.trim item.toList ≠ [] := fun hnil => h.2 (Text.trim_eq_nil.mp hnil)
  have hequals : '=' ∉ Text.trim item.toList := fun hmem => h.1 (Text.mem_of_mem_trim hmem)
  unfold ofItem?
  rw [if_neg (by simpa using hkept), ofText_plain hequals]
  rfl

theorem ofItem?_write {item : String} (h : IsWrite item) :
    ∃ name raw, ofItem? item = some (write name raw) := by
  have hequals : '=' ∈ Text.trim item.toList := Text.mem_trim h (by decide)
  have hcut : Text.cut '=' (Text.trim item.toList) ≠ none := mt Text.cut_eq_none.mp (by simpa using hequals)
  obtain ⟨⟨name, raw⟩, hname⟩ := Option.ne_none_iff_exists'.mp hcut
  unfold ofItem? ofText
  rw [if_neg (by simpa using List.ne_nil_of_mem hequals), hname]
  exact ⟨_, _, rfl⟩

theorem writeOfItem?_eq_none {item : String} (h : ¬ IsWrite item) : writeOfItem? item = none := by
  unfold writeOfItem?
  by_cases hblank : IsBlank item
  · rw [ofItem?_blank hblank]
    rfl
  · rw [ofItem?_read ⟨h, hblank⟩]
    rfl

theorem readOfItem?_eq_some {item path : String} :
    readOfItem? item = some path ↔ IsRead item ∧ item.trimBlanks = path := by
  unfold readOfItem?
  by_cases hwrite : IsWrite item
  · obtain ⟨name, raw, hitem⟩ := ofItem?_write hwrite
    simp [hitem, readName?, IsRead, hwrite]
  · by_cases hblank : IsBlank item
    · simp [ofItem?_blank hblank, IsRead, hblank]
    · have hread : IsRead item := ⟨hwrite, hblank⟩
      simp [ofItem?_read hread, readName?, hread]

/-- Only the items that write say what is written. -/
theorem filterMap_writeOfItem? (items : List String) :
    (items.filter (IsWrite ·)).filterMap writeOfItem? = items.filterMap writeOfItem? := by
  rw [List.filterMap_filter]
  refine List.filterMap_congr fun item _ => ?_
  by_cases h : IsWrite item
  · simp [h]
  · simp [h, writeOfItem?_eq_none h]

/-- Two lists with the same writes in the same order and the same reads, these wherever they
stand and however often. -/
structure SameRequest (items others : List String) : Prop where
  writes : items.filter (IsWrite ·) = others.filter (IsWrite ·)
  reads : ∀ item, IsRead item → (item ∈ items ↔ item ∈ others)

/-- Moving items, repeating reads and adding blanks keeps the request, if the writes stay in
order. -/
theorem SameRequest.of_perm {items extra others : List String}
    (hextra : ∀ item ∈ extra, IsBlank item ∨ IsRead item ∧ item ∈ items)
    (hperm : others.Perm (items ++ extra))
    (hwrites : others.filter (IsWrite ·) = items.filter (IsWrite ·)) : SameRequest others items := by
  refine ⟨hwrites, fun item hitem => ?_⟩
  rw [hperm.mem_iff, List.mem_append]
  constructor
  · rintro (hmem | hmem)
    · exact hmem
    · rcases hextra item hmem with hblank | ⟨-, hmem⟩
      · exact absurd hblank hitem.2
      · exact hmem
  · exact .inl

variable {items others : List String} (h : SameRequest items others)
include h

theorem SameRequest.writes_eq : items.filterMap writeOfItem? = others.filterMap writeOfItem? := by
  rw [← filterMap_writeOfItem?, h.writes, filterMap_writeOfItem?]

theorem SameRequest.mem_reads (path : String) :
    path ∈ items.filterMap readOfItem? ↔ path ∈ others.filterMap readOfItem? := by
  simp only [List.mem_filterMap, readOfItem?_eq_some]
  constructor
  · rintro ⟨item, hmem, hread, hpath⟩
    exact ⟨item, (h.reads item hread).mp hmem, hread, hpath⟩
  · rintro ⟨item, hmem, hread, hpath⟩
    exact ⟨item, (h.reads item hread).mpr hmem, hread, hpath⟩

end AttributeItem

/-! ## Reads -/

namespace Component

theorem read_one_value {c : Component σ} {paths : List String} {s : σ} {e e' : String × String}
    (he : e ∈ c.read paths s) (he' : e' ∈ c.read paths s) (hkey : e.1 = e'.1) : e.2 = e'.2 := by
  obtain ⟨path, a, v, ha, hv, rfl⟩ := mem_read he
  obtain ⟨path', a', v', ha', hv', rfl⟩ := mem_read he'
  cases (String.append_right_inj _).mp hkey
  cases ha.symm.trans ha'
  cases hv.symm.trans hv'
  rfl

/-- Reads of the same paths add the same entries. -/
theorem insertAll_read_congr (c : Component σ) {paths paths' : List String}
    (h : ∀ path, path ∈ paths ↔ path ∈ paths') (s : σ) (es : Entries) :
    es.insertAll (c.read paths s) = es.insertAll (c.read paths' s) := by
  refine Entries.insertAll_congr (fun e => ?_) (fun e he e' he' => read_one_value he he') es
  rw [read_eq, read_eq, List.mem_filterMap, List.mem_filterMap]
  simp only [h]

/-- A path that is read shows its present value; without one it adds nothing. -/
theorem get?_insertAll_read (c : Component σ) {paths : List String} {path : String}
    (hpath : path ∈ paths) (s : σ) (es : Entries) :
    (es.insertAll (c.read paths s)).get? (c.name ++ "." ++ path) =
      (((c.findAttribute? path).bind (·.get s)).map (·.render)).or
        (es.get? (c.name ++ "." ++ path)) := by
  cases hvalue : (c.findAttribute? path).bind (·.get s) with
  | some v =>
    have hentry : (c.name ++ "." ++ path, v.render) ∈ c.read paths s := by
      obtain ⟨a, ha, hv⟩ := Option.bind_eq_some_iff.mp hvalue
      rw [read_eq, List.mem_filterMap]
      exact ⟨path, hpath, by simp [ha, Attribute.entry?, hv]⟩
    exact Entries.get?_insertAll_of_mem hentry fun e he hkey => read_one_value he hentry hkey
  | none =>
    refine Entries.get?_insertAll_of_notMem fun hkey => ?_
    obtain ⟨e, he, hkey⟩ := List.mem_map.mp hkey
    obtain ⟨path', a, v, ha, hv, rfl⟩ := mem_read he
    cases (String.append_right_inj _).mp hkey
    simp [ha, hv] at hvalue

end Component

/-! ## The command -/

namespace Node

open AttributeItem

def attributeCommand (name : String) (items : List String) : String :=
  "jmx=" ++ (name ++ "." ++ ",".intercalate items)

/-- A list of items is carried out by its writes alone, and shown by its reads alone in the memory
behind these. -/
theorem dispatch_items {node : Node σ} {c : Component (Memory σ)}
    (hc : findByName node.components c.name = some c) (hdot : '.' ∉ c.name.toList)
    {items : List String} (hitems : ∀ item ∈ items, ',' ∉ item.toList) (s : NodeState σ) :
    let (failures, memory) := c.writeAll (items.filterMap writeOfItem?) s.memory
    node.dispatch (attributeCommand c.name items) s =
      { state := { s with memory }
        entries := c.read (items.filterMap readOfItem?) memory
        log := failures.map fun e => ⟨.error, c.name ++ ": failed writing: " ++ e.message⟩ } := by
  unfold attributeCommand
  rw [dispatch_jmx, accessAttributes_eq, attributeTarget_list hdot, hc]
  unfold accessComponent
  dsimp only
  rw [ofList_items hitems, List.filterMap_filterMap, List.filterMap_filterMap]
  rfl

/-- Requests that are the same go alike in every batch. -/
theorem step_items_congr {node : Node σ} {c : Component (Memory σ)}
    (hc : findByName node.components c.name = some c) (hdot : '.' ∉ c.name.toList)
    {items others : List String} (hitems : ∀ item ∈ items, ',' ∉ item.toList)
    (hothers : ∀ item ∈ others, ',' ∉ item.toList) (h : SameRequest items others)
    (batch : Batch σ) :
    node.step batch (attributeCommand c.name items) =
      node.step batch (attributeCommand c.name others) := by
  unfold step
  rw [dispatch_items hc hdot hitems, dispatch_items hc hdot hothers, h.writes_eq]
  dsimp only
  rw [c.insertAll_read_congr h.mem_reads]

end Node

open AttributeItem Node in
/-- A list of reads and writes on one component: the writes are carried out in their order, and
every read shows the value that is there behind the last of them. Any list with the same items in
another order, with reads repeated and with blank items added, does exactly the same, if only the
writes keep their order. -/
theorem reads_stand_anywhere (node : Node σ) {c : Component (Memory σ)}
    (hc : findByName node.components c.name = some c) (hdot : '.' ∉ c.name.toList)
    (items : List String) (hitems : ∀ item ∈ items, ',' ∉ item.toList) (batch : Batch σ) :
    let done := node.step batch (attributeCommand c.name items)
    done.state = { batch.state with
      memory := (c.writeAll (items.filterMap writeOfItem?) batch.state.memory).2 } ∧
    (∀ item ∈ items, IsRead item →
      done.entries.get? (c.name ++ "." ++ item.trimBlanks) =
        (((c.findAttribute? item.trimBlanks).bind (·.get done.state.memory)).map (·.render)).or
          (batch.entries.get? (c.name ++ "." ++ item.trimBlanks))) ∧
    ∀ extra : List String, (∀ item ∈ extra, IsBlank item ∨ IsRead item ∧ item ∈ items) →
      ∀ others : List String, others.Perm (items ++ extra) →
        others.filter (IsWrite ·) = items.filter (IsWrite ·) →
          node.step batch (attributeCommand c.name others) = done := by
  intro done
  have hdispatch := dispatch_items hc hdot hitems batch.state
  refine ⟨?_, fun item hitem hread => ?_, fun extra hextra others hperm hwrites => ?_⟩
  · simp only [done, step_state, hdispatch]
  · have hpath : item.trimBlanks ∈ items.filterMap readOfItem? :=
      List.mem_filterMap.mpr ⟨item, hitem, readOfItem?_eq_some.mpr ⟨hread, rfl⟩⟩
    simp only [done, step_entries, step_state, hdispatch]
    exact c.get?_insertAll_read hpath _ _
  · have hothers : ∀ item ∈ others, ',' ∉ item.toList := by
      intro item hitem
      rcases List.mem_append.mp (hperm.subset hitem) with hmem | hmem
      · exact hitems item hmem
      · rcases hextra item hmem with hblank | ⟨-, hmem⟩
        · intro hcomma
          exact absurd (hblank ',' hcomma) (by decide)
        · exact hitems item hmem
    exact step_items_congr hc hdot hothers hitems (.of_perm hextra hperm hwrites) batch

open AttributeItem Node in
/-- The count is read before and behind its write, and the second write fails. -/
theorem count_read_around_its_write :
    let node := CommandLine.node {} (.numbered true true [])
    let c : Component (Memory Counter.State) := counter.focus Memory.storePlace
    let batch : Batch Counter.State := { state := CommandLine.initialState {} }
    let items := ["count=5", "step", "step=x", "count"]
    let extra := [" ", "count"]
    let others := ["count", "count=5", "count", " ", "step=x", "step"]
    findByName node.components c.name = some c ∧ '.' ∉ c.name.toList ∧
    (∀ item ∈ items, ',' ∉ item.toList) ∧
    (∀ item ∈ extra, IsBlank item ∨ IsRead item ∧ item ∈ items) ∧
    others.Perm (items ++ extra) ∧
    others.filter (IsWrite ·) = items.filter (IsWrite ·) ∧
    node.step batch (attributeCommand "COUNTER" others) =
      node.step batch (attributeCommand "COUNTER" items) ∧
    "count" ∈ items ∧ IsRead "count" ∧
    (node.step batch (attributeCommand "COUNTER" items)).entries.get? "COUNTER.count" = some "5" := by
  intro node c batch items extra others
  have hfound : findByName node.components c.name = some c := rfl
  have hdot : '.' ∉ c.name.toList := by decide
  have hitems : ∀ item ∈ items, ',' ∉ item.toList := by decide
  have hextra : ∀ item ∈ extra, IsBlank item ∨ IsRead item ∧ item ∈ items := by decide
  have hperm : others.Perm (items ++ extra) := by decide
  have hwrites : others.filter (IsWrite ·) = items.filter (IsWrite ·) := by decide
  obtain ⟨hstate, hreads, hothers⟩ := reads_stand_anywhere node hfound hdot items hitems batch
  have hread := hreads "count" (by decide) (by decide)
  have hvalue : (c.findAttribute? "count").bind
      (·.get (c.writeAll (items.filterMap writeOfItem?) batch.state.memory).2) =
        some (.signed 5) := rfl
  have hfive : (Value.signed 5).render = "5" := by
    rw [Value.render]
    rfl
  have hpath : "count".trimBlanks = "count" := by decide
  rw [hstate, hpath, hvalue, Option.map_some, hfive, Option.some_or] at hread
  exact ⟨hfound, hdot, hitems, hextra, hperm, hwrites, hothers extra hextra others hperm hwrites,
    by decide, by decide, hread⟩

end NodeProbe
