import NodeProbe.Proofs.AttributeCommands
import NodeProbe.Proofs.Composition
import NodeProbe.Proofs.Dump
import NodeProbe.Proofs.FailingCommands

/-!
# Writing an attribute and reading it back

The text of a write passes the cuts at the dot, the comma and the first equals sign, and
loses the blanks at its end; whatever else it holds reaches the conversion. A field with
storage of its own takes the converted value, and no other way to write is tried.
-/
namespace NodeProbe

variable {σ μ : Type}

/-! ## The text of a write -/

theorem Text.trim_write {name : List Char} (hne : name ≠ []) (hblank : ∀ c ∈ name, isBlank c = false)
    (raw : List Char) : trim (name ++ '=' :: raw) = name ++ '=' :: trimEnd raw := by
  have hstart : trimStart (name ++ '=' :: raw) = name ++ '=' :: raw := by
    obtain ⟨first, rest, rfl⟩ := List.exists_cons_of_ne_nil hne
    refine List.dropWhile_cons_of_neg ?_
    rw [hblank first List.mem_cons_self]
    decide
  have hequals : ('=' :: name.reverse).dropWhile isBlank = '=' :: name.reverse :=
    List.dropWhile_cons_of_neg (by decide)
  unfold trim trimEnd
  rw [hstart, List.reverse_append, List.reverse_cons, List.append_assoc, List.dropWhile_append]
  -- when nothing of the raw text is left, the equals sign ends the text
  cases hraw : raw.reverse.dropWhile isBlank with
  | nil => simp [hequals]
  | cons last before => simp

namespace AttributeItem

theorem ofText_write {name : List Char} (hequals : '=' ∉ name) (raw : List Char) :
    ofText (name ++ '=' :: raw) = write (.ofList (Text.trim name)) (.ofList raw) := by
  unfold ofText
  rw [Text.cut_append hequals]

/-- A write without a comma is one item. -/
theorem ofList_write {name : String} (hname : Plain name) {raw : String} (hraw : ',' ∉ raw.toList) :
    ofList (name ++ "=" ++ raw) = [write name (.ofList (Text.trimEnd raw.toList))] := by
  have hchars : (name ++ "=" ++ raw).toList = name.toList ++ '=' :: raw.toList := by
    rw [String.toList_append, String.toList_append, List.append_assoc]
    rfl
  have hcomma : ∀ item ∈ [name ++ "=" ++ raw], ',' ∉ item.toList := by
    intro item hitem
    rw [List.mem_singleton.mp hitem, hchars, List.mem_append, List.mem_cons, not_or, not_or]
    exact ⟨hname.no_comma, by decide, hraw⟩
  have hsingle : ",".intercalate [name ++ "=" ++ raw] = name ++ "=" ++ raw :=
    String.intercalate_singleton
  have hne : name.toList ≠ [] := fun hnil => hname.ne_empty (String.toList_eq_nil_iff.mp hnil)
  have hkept : (name.toList ++ '=' :: Text.trimEnd raw.toList).isEmpty = false := by
    rw [List.isEmpty_eq_false_iff]
    exact List.append_ne_nil_of_left_ne_nil hne _
  have hitem : ofItem? (name ++ "=" ++ raw) =
      some (write name (.ofList (Text.trimEnd raw.toList))) := by
    unfold ofItem?
    rw [hchars, Text.trim_write hne hname.no_blank, hkept, ofText_write hname.no_equals,
      Text.trim_of_no_blank hname.no_blank, String.ofList_toList]
    rfl
  rw [← hsingle, ofList_items hcomma, List.filterMap_cons_some hitem, List.filterMap_nil]

end AttributeItem

/-! ## The way of a write -/

/-- A name without a dot belongs to no part. -/
theorem Surface.splitName?_eq_none {surface : Surface μ} {name : String} (h : '.' ∉ name.toList) :
    surface.splitName? name = none := by
  refine List.findSome?_eq_none_iff.mpr fun p _ => ?_
  rw [Option.map_eq_none_iff, Option.eq_none_iff_forall_ne_some]
  intro rest hrest
  have hdot : '.' ∈ name.toList := by
    rw [String.dropLeading?_eq_some.mp hrest, String.toList_append, String.toList_append]
    simp
  exact h hdot

namespace Table

variable {t : Table μ} {a : Attribute μ}

theorem attribute?_of_field? (h : t.field? a.name = some a) :
    t.attribute? a.name = some a ∧ a.backing = .field := by
  unfold field? at h
  rw [Option.filter_eq_some_iff] at h
  exact ⟨h.1, beq_iff_eq.mp h.2⟩

/-- A field has no setter but an operation that is named like one. -/
theorem setter?_eq_none (h : t.field? a.name = some a)
    (hoperations : ∀ name ∈ setterNames a.name, t.operation? name 1 = none) :
    t.setter? a.name = none := by
  obtain ⟨hfound, hbacking⟩ := attribute?_of_field? h
  have hnone : (setterNames a.name).findSome? t.operationSetter? = none := by
    refine List.findSome?_eq_none_iff.mpr fun name hname => ?_
    unfold operationSetter?
    rw [hoperations name hname]
    rfl
  rw [setter?_eq, hfound, hnone]
  simp [Option.filter, hbacking]

end Table

theorem tryTargets_singleton (raw : String) (target : WriteTarget μ) (name : String) (m : μ) :
    (tryTargets raw [(target, name)] [] m).2 = (target.write name raw m).2 := by
  unfold tryTargets
  rcases target.write name raw m with ⟨text | _, m'⟩ <;> rfl

namespace Component

variable {c : Component μ} {a : Attribute μ}

/-- The memory after a write to a field: with the converted value, or as it was. -/
def written (a : Attribute μ) (raw : String) (m : μ) : μ :=
  match a.type.convert raw with
  | .error _ => m
  | .ok v => (a.store v m).2

theorem writeAll_field (hfield : c.surface.own.field? a.name = some a) (hdot : '.' ∉ a.name.toList)
    (hoperations : ∀ name ∈ Table.setterNames a.name, c.surface.own.operation? name 1 = none)
    (raw : String) (m : μ) : (c.writeAll [(a.name, raw)] m).2 = written a raw m := by
  have htargets : c.writeTargets a.name = [(.field a, a.name)] := by
    unfold writeTargets Table.writeTargets
    rw [hfield, Table.setter?_eq_none hfield hoperations, Surface.splitName?_eq_none hdot]
    rfl
  rw [writeAll_snd_cons, write_snd, htargets, tryTargets_singleton, WriteTarget.write_field_snd]
  rfl

theorem findAttribute?_field (hfield : c.surface.own.field? a.name = some a) :
    c.findAttribute? a.name = some a := by
  unfold findAttribute?
  rw [(Table.attribute?_of_field? hfield).1]
  rfl

theorem addressed_focus {τ : Type} (place : Lens μ τ) (c : Component τ) :
    (c.focus place).addressed = c.addressed.map fun (path, a) => (path, a.focus place) := by
  unfold addressed focus Surface.focus Table.focus
  simp only [List.map_append, List.map_map, List.map_flatMap, List.flatMap_map]
  rfl

/-- The attribute holds what is stored into it, and no other attribute of the components
reads what it holds. -/
structure OwnCell (components : List (Component μ)) (c : Component μ) (a : Attribute μ) : Prop where
  get : ∀ v m, WellTyped a.type v → a.get (a.store v m).2 = some v
  others : ∀ v m, WellTyped a.type v → ∀ d ∈ components, ∀ path b, (path, b) ∈ d.addressed →
    ¬ (d.name = c.name ∧ path = a.name) → b.get (a.store v m).2 = b.get m

theorem OwnCell.get_written {components : List (Component μ)} (h : OwnCell components c a)
    (raw : String) (m : μ) : a.get (written a raw m) = match a.type.convert raw with
      | .error _ => a.get m
      | .ok v => some v := by
  unfold written
  cases hv : a.type.convert raw with
  | error e => rfl
  | ok v => exact h.get v m (Conversion.convert_wellTyped hv)

theorem OwnCell.others_written {components : List (Component μ)} (h : OwnCell components c a)
    (raw : String) (m : μ) {d : Component μ} (hd : d ∈ components) {path : String}
    {b : Attribute μ} (hb : (path, b) ∈ d.addressed) (hother : ¬ (d.name = c.name ∧ path = a.name)) :
    b.get (written a raw m) = b.get m := by
  unfold written
  cases hv : a.type.convert raw with
  | error e => rfl
  | ok v => exact h.others v m (Conversion.convert_wellTyped hv) d hd path b hb hother

end Component

/-! ## Write and read as commands -/

theorem Entries.toList_insertAll_option (e? : Option (String × String)) :
    (Entries.empty.insertAll e?.toList).toList = e?.toList := by
  cases e? <;> rfl

namespace Node

def Batch.recorded (batch : Batch σ) (micros : UInt64) : Batch σ :=
  { batch with state := { batch.state with memory := { batch.state.memory with
    statistics := batch.state.memory.statistics.record micros batch.handled batch.failed } } }

theorem handle_eq (node : Node σ) (micros : UInt64) (commands : List String) (s : NodeState σ) :
    node.handle micros commands s = (node.runBatch commands s).recorded micros := rfl

variable {node : Node σ} (hunique : (node.components.map (·.name)).Nodup)
  {c : Component (Memory σ)} (hc : c ∈ node.components) (hdot : '.' ∉ c.name.toList)
  {a : Attribute (Memory σ)} (hfield : c.surface.own.field? a.name = some a) (hname : Plain a.name)
include hunique hc hdot hfield hname

theorem dispatch_field_read (s : NodeState σ) :
    node.dispatch ("jmx=" ++ (c.name ++ "." ++ a.name)) s =
      .ofEntries s (a.entry? (c.name ++ "." ++ a.name) s.memory).toList := by
  have hlistable : ∀ path ∈ [a.name], AttributeItem.Listable path := by
    intro path hpath
    rw [List.mem_singleton.mp hpath]
    exact .of_plain hname
  have hread := dispatch_component_read hunique hc hdot hlistable s
  rw [Component.read_singleton (Component.findAttribute?_field hfield)] at hread
  simpa using hread

/-- A write to a field stores the converted text, or is logged and changes nothing. -/
theorem dispatch_field_write
    (hoperations : ∀ name ∈ Table.setterNames a.name, c.surface.own.operation? name 1 = none)
    {raw : String} (hraw : ',' ∉ raw.toList) (s : NodeState σ) :
    ∃ log, node.dispatch ("jmx=" ++ (c.name ++ "." ++ (a.name ++ "=" ++ raw))) s =
      { state := { s with
          memory := Component.written a (.ofList (Text.trimEnd raw.toList)) s.memory }
        log } := by
  rw [dispatch_jmx, accessAttributes_eq, attributeTarget_list hdot, findByName_of_mem hunique hc]
  unfold accessComponent
  dsimp only
  rw [AttributeItem.ofList_write hname hraw]
  simp only [List.filterMap_cons, AttributeItem.writeOf?, AttributeItem.readName?,
    List.filterMap_nil, Component.writeAll_field hfield hname.no_dot hoperations]
  exact ⟨_, rfl⟩

theorem runBatch_write_read
    (hoperations : ∀ name ∈ Table.setterNames a.name, c.surface.own.operation? name 1 = none)
    {raw : String} (hraw : ',' ∉ raw.toList) (s : NodeState σ) :
    let key := c.name ++ "." ++ a.name
    let batch := node.runBatch ["jmx=" ++ key ++ "=" ++ raw, "jmx=" ++ key] s
    let memory := Component.written a (.ofList (Text.trimEnd raw.toList)) s.memory
    batch.state.memory = memory ∧ batch.entries.toList = (a.entry? key memory).toList ∧
      batch.handled = 2 ∧ batch.failed = 0 := by
  intro key batch memory
  have htoken : "jmx=" ++ key ++ "=" ++ raw = "jmx=" ++ (c.name ++ "." ++ (a.name ++ "=" ++ raw)) := by
    simp only [key, String.append_assoc]
  obtain ⟨log, hwrite⟩ := dispatch_field_write hunique hc hdot hfield hname hoperations hraw s
  rw [← htoken] at hwrite
  have hread := dispatch_field_read hunique hc hdot hfield hname
  have hbatch : batch = node.step (node.step { state := s } ("jmx=" ++ key ++ "=" ++ raw))
      ("jmx=" ++ key) := rfl
  refine ⟨?_, ?_, ?_, ?_⟩
  · rw [hbatch, step_state, step_state, hread, hwrite]
    rfl
  · rw [hbatch, step_entries, step_entries, step_state, hread, hwrite]
    exact Entries.toList_insertAll_option _
  · rw [hbatch, step_handled, step_handled, step_state, hread, hwrite]
    rfl
  · rw [hbatch, step_failed, step_failed, step_state, hread, hwrite]
    rfl

end Node

/-- A field with storage of its own that is written in one command and read in the next: the
answer is the text of the written value, or that of the old value if the text does not convert.
Both commands are handled, and they change no other attribute; then the request is recorded,
which only attributes that read the statistics can show. -/
theorem written_field_reads_back (node : Node σ) (hunique : (node.components.map (·.name)).Nodup)
    {c : Component (Memory σ)} (hc : c ∈ node.components) (hdot : '.' ∉ c.name.toList)
    {a : Attribute (Memory σ)} (hfield : c.surface.own.field? a.name = some a) (hname : Plain a.name)
    (hoperations : ∀ name ∈ Table.setterNames a.name, c.surface.own.operation? name 1 = none)
    (hcell : Component.OwnCell node.components c a) (raw : String) (hraw : ',' ∉ raw.toList)
    (s : NodeState σ) (micros : UInt64) :
    let key := c.name ++ "." ++ a.name
    let commands := ["jmx=" ++ key ++ "=" ++ raw, "jmx=" ++ key]
    let batch := node.runBatch commands s
    let done := node.handle micros commands s
    let converted := a.type.convert (.ofList (Text.trimEnd raw.toList))
    (∀ v, converted = .ok v → done.entries.toList = [(key, v.render)]) ∧
    (∀ e, converted = .error e →
      done.entries.toList = ((a.get s.memory).map fun old => (key, old.render)).toList) ∧
    done.handled = 2 ∧ done.failed = 0 ∧
    done.state.memory = { batch.state.memory with
      statistics := batch.state.memory.statistics.record micros 2 0 } ∧
    ∀ d ∈ node.components, ∀ path b, (path, b) ∈ d.addressed →
      ¬ (d.name = c.name ∧ path = a.name) →
      b.get batch.state.memory = b.get s.memory ∧
      ((∀ m m', SameStore m m' → b.get m' = b.get m) →
        b.get done.state.memory = b.get s.memory) := by
  intro key commands batch done converted
  have hdone : done = batch.recorded micros := node.handle_eq micros commands s
  obtain ⟨hmemory, hentries, hhandled, hfailed⟩ : batch.state.memory = _ ∧
      batch.entries.toList = _ ∧ batch.handled = 2 ∧ batch.failed = 0 :=
    Node.runBatch_write_read hunique hc hdot hfield hname hoperations hraw s
  have hget : a.get batch.state.memory = match converted with
      | .error _ => a.get s.memory
      | .ok v => some v := by
    rw [hmemory]
    exact hcell.get_written _ s.memory
  rw [← hmemory, Attribute.entry?, hget] at hentries
  clear_value batch done
  subst hdone
  refine ⟨fun v hv => ?_, fun e he => ?_, hhandled, hfailed, ?_, fun d hd path b hb hother => ?_⟩
  · rw [hv] at hentries
    exact hentries
  · rw [he] at hentries
    exact hentries
  · rw [← hhandled, ← hfailed]
    rfl
  · have hkept : b.get batch.state.memory = b.get s.memory := by
      rw [hmemory]
      exact hcell.others_written _ _ hd hb hother
    refine ⟨hkept, fun hignores => ?_⟩
    rw [← hkept]
    exact hignores _ _ rfl

namespace CommandLine

def counterComponent : Component (Memory Counter.State) := counter.focus Memory.storePlace

def countAttribute : Attribute (Memory Counter.State) :=
  counterComponent.surface.own.attributes.head (List.cons_ne_nil _ _)

theorem count_field : counterComponent.surface.own.field? countAttribute.name = some countAttribute :=
  rfl

theorem count_operations : ∀ name ∈ Table.setterNames countAttribute.name,
    counterComponent.surface.own.operation? name 1 = none := by
  have hall : (Table.setterNames countAttribute.name).all
      (fun name => (counterComponent.surface.own.operation? name 1).isNone) = true := by decide
  intro name hmem
  exact Option.isNone_iff_eq_none.mp (List.all_eq_true.mp hall name hmem)

theorem count_shown_once : ∀ e ∈ counter.addressed, e.1 = "count" ∨
    ∀ (s : Counter.State) n, e.2.get { s with count := n } = e.2.get s := by
  have hlist : ∃ count step mode label capacity recent : String × Attribute Counter.State,
      counter.addressed = [count, step, mode, label, capacity, recent] ∧ count.1 = "count" ∧
      ∀ e ∈ [step, mode, label, capacity, recent], ∀ (s : Counter.State) n,
        e.2.get { s with count := n } = e.2.get s := by
    -- each of the others shows another field of the state
    refine ⟨_, _, _, _, _, _, rfl, rfl, ?_⟩
    rw [List.forall_mem_cons, List.forall_mem_cons, List.forall_mem_cons, List.forall_mem_cons,
      List.forall_mem_singleton]
    exact ⟨fun _ _ => rfl, fun _ _ => rfl, fun _ _ => rfl, fun _ _ => rfl, fun _ _ => rfl⟩
  obtain ⟨count, step, mode, label, capacity, recent, haddressed, hcount, hothers⟩ := hlist
  intro e he
  rw [haddressed] at he
  rcases List.mem_cons.mp he with rfl | hrest
  · exact .inl hcount
  · exact .inr (hothers e hrest)

/-- The count is shown by its own attribute alone. -/
theorem count_ownCell (config : Config) (threads : ThreadSource) :
    Component.OwnCell (node config threads).components counterComponent countAttribute where
  get v m hv := by
    obtain ⟨n, rfl, -⟩ := WellTyped.signed (t := .i64) rfl rfl hv
    rfl
  others v m hv d hd path b hb hother := by
    obtain ⟨n, rfl, -⟩ := WellTyped.signed (t := .i64) rfl rfl hv
    simp only [node, List.mem_cons, List.not_mem_nil, or_false] at hd
    rcases hd with rfl | rfl
    · rw [Component.addressed_focus] at hb
      obtain ⟨⟨_, b'⟩, -, heq⟩ := List.mem_map.mp hb
      cases heq
      rfl
    · rw [Component.addressed_focus] at hb
      obtain ⟨⟨path', b'⟩, hb', heq⟩ := List.mem_map.mp hb
      cases heq
      rcases count_shown_once _ hb' with hcount | hothers
      · exact absurd ⟨rfl, hcount⟩ hother
      · exact hothers m.store n

end CommandLine

theorem written_count_reads_back :
    let node := CommandLine.node {} (.numbered true true [])
    let s := CommandLine.initialState {}
    let c := CommandLine.counterComponent
    let a := CommandLine.countAttribute
    let good := node.handle 7 ["jmx=COUNTER.count= 0x1F \t", "jmx=COUNTER.count"] s
    let bad := node.handle 7 ["jmx=COUNTER.count=a.b=[1]", "jmx=COUNTER.count"] s
    (node.components.map (·.name)).Nodup ∧ c ∈ node.components ∧ '.' ∉ c.name.toList ∧
    c.surface.own.field? a.name = some a ∧ Plain a.name ∧
    (∀ name ∈ Table.setterNames a.name, c.surface.own.operation? name 1 = none) ∧
    Component.OwnCell node.components c a ∧
    ',' ∉ " 0x1F \t".toList ∧ good.entries.toList = [("COUNTER.count", "31")] ∧ good.handled = 2 ∧
    ',' ∉ "a.b=[1]".toList ∧ bad.entries.toList = [("COUNTER.count", "0")] ∧ bad.handled = 2 := by
  intro node s c a good bad
  have hunique : (node.components.map (·.name)).Nodup := by decide
  have hc : c ∈ node.components := List.mem_cons_of_mem _ List.mem_cons_self
  have hdot : '.' ∉ c.name.toList := by decide
  have hname : Plain a.name := by decide
  have hoperations := CommandLine.count_operations
  have hcell := CommandLine.count_ownCell {} (.numbered true true [])
  have hgood : ',' ∉ " 0x1F \t".toList := by decide
  have hbad : ',' ∉ "a.b=[1]".toList := by decide
  have h := written_field_reads_back node hunique hc hdot CommandLine.count_field hname hoperations
    hcell " 0x1F \t" hgood s 7
  have h' := written_field_reads_back node hunique hc hdot CommandLine.count_field hname hoperations
    hcell "a.b=[1]" hbad s 7
  have hkey : c.name ++ "." ++ CommandLine.countAttribute.name = "COUNTER.count" := by decide
  have hthirtyone : (Value.signed 31).render = "31" := by
    rw [Value.render]
    rfl
  have hzero : (Value.signed 0).render = "0" := by
    rw [Value.render]
    rfl
  have hread : "jmx=" ++ "COUNTER.count" = "jmx=COUNTER.count" := by decide
  have hwrite : "jmx=COUNTER.count" ++ "=" ++ " 0x1F \t" = "jmx=COUNTER.count= 0x1F \t" := by decide
  have hwrite' : "jmx=COUNTER.count" ++ "=" ++ "a.b=[1]" = "jmx=COUNTER.count=a.b=[1]" := by decide
  dsimp only at h h'
  rw [hkey, hread, hwrite] at h
  rw [hkey, hread, hwrite'] at h'
  have hfield := CommandLine.count_field
  refine ⟨hunique, hc, hdot, hfield, hname, hoperations, hcell, hgood, ?_, ?_, hbad, ?_, ?_⟩
  · have hentries := h.1 (.signed 31) rfl
    rw [hthirtyone] at hentries
    exact hentries
  · exact h.2.2.1
  · have hentries := h'.2.1 _ rfl
    have hold : CommandLine.countAttribute.get s.memory = some (.signed 0) := rfl
    rw [hold, Option.map_some, hzero] at hentries
    exact hentries
  · exact h'.2.2.1

/-- The diagnostics of the program's node show a request more after the two commands. -/
theorem write_and_read_show_in_diagnostics :
    let node := CommandLine.node {} (.numbered true true [])
    let s := CommandLine.initialState {}
    let c := CommandLine.counterComponent
    let a := CommandLine.countAttribute
    let done := node.handle 7 ["jmx=COUNTER.count=5", "jmx=COUNTER.count"] s
    (node.components.map (·.name)).Nodup ∧ c ∈ node.components ∧ '.' ∉ c.name.toList ∧
    c.surface.own.field? a.name = some a ∧ Plain a.name ∧
    (∀ name ∈ Table.setterNames a.name, c.surface.own.operation? name 1 = none) ∧
    Component.OwnCell node.components c a ∧ ',' ∉ "5".toList ∧
    ∃ d ∈ node.components, ∃ path b, (path, b) ∈ d.addressed ∧ ¬ (d.name = c.name ∧ path = a.name) ∧
      b.get s.memory = some (.unsigned 0) ∧ b.get done.state.memory = some (.unsigned 1) := by
  intro node s c a done
  refine ⟨by decide, List.mem_cons_of_mem _ List.mem_cons_self, by decide, CommandLine.count_field,
    by decide, CommandLine.count_operations, CommandLine.count_ownCell {} _, by decide, _,
    List.mem_cons_self, _, _, List.mem_cons_self, ?_, rfl, rfl⟩
  intro hsame
  exact absurd hsame.1 (by decide)

end NodeProbe
