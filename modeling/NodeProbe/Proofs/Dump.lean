import NodeProbe.CommandLine
import NodeProbe.Proofs.AttributeCommands
import NodeProbe.Proofs.Paths

/-!
# Dumps and reads agree

With plain names, no two attributes of a stack have a key in common, so a dump loses
nothing. A read looks its paths up by cutting them at dots, and finds the attributes that
the dump goes through.
-/
namespace NodeProbe

variable {σ : Type}

/-- Texts without a dot in front of the first dot are the same when the whole is. -/
theorem eq_of_dotted_eq {a b x y : String} (ha : '.' ∉ a.toList) (hb : '.' ∉ b.toList)
    (h : a ++ "." ++ x = b ++ "." ++ y) : a = b ∧ x = y := by
  have hcut : (a ++ "." ++ x).cut? '.' = some (a, x) := String.cut?_append ha x
  rw [h, show "." = String.singleton '.' from rfl, String.cut?_append hb] at hcut
  cases hcut
  exact ⟨rfl, rfl⟩

namespace Component

/-- A component that commands can address in full: its name and the names of its parts and
attributes are plain, and registration has made them distinct. -/
structure Addressable (c : Component σ) : Prop where
  name : Plain c.name
  parts : ∀ p ∈ c.surface.parts, Plain p.name
  attributes : ∀ a ∈ c.attributes, Plain a.name
  distinct : c.surface.Distinct

/-- The paths are the names of the own attributes, and those of the parts behind the name of their
part. -/
theorem mem_addressed {c : Component σ} {path : String} {a : Attribute σ} :
    (path, a) ∈ c.addressed ↔ (a ∈ c.surface.own.attributes ∧ path = a.name) ∨
      ∃ p ∈ c.surface.parts, a ∈ p.table.attributes ∧ path = p.name ++ "." ++ a.name := by
  unfold addressed
  rw [List.mem_append, List.mem_map, List.mem_flatMap]
  refine or_congr ⟨?_, ?_⟩ (exists_congr fun p => and_congr_right fun _ => ?_)
  · rintro ⟨b, hb, heq⟩
    cases heq
    exact ⟨hb, rfl⟩
  · rintro ⟨ha, rfl⟩
    exact ⟨a, ha, rfl⟩
  · rw [List.mem_map]
    constructor
    · rintro ⟨b, hb, heq⟩
      cases heq
      exact ⟨hb, rfl⟩
    · rintro ⟨ha, rfl⟩
      exact ⟨a, ha, rfl⟩

namespace Addressable

variable {c : Component σ} (h : c.Addressable)
include h

theorem own_plain {a : Attribute σ} (ha : a ∈ c.surface.own.attributes) : Plain a.name :=
  h.attributes a (table_attributes_mem List.mem_cons_self ha)

theorem part_plain {p : Part σ} (hp : p ∈ c.surface.parts) {a : Attribute σ}
    (ha : a ∈ p.table.attributes) : Plain a.name :=
  h.attributes a (table_attributes_mem (part_tables_mem hp) ha)

theorem listable {path : String} (hpath : path ∈ c.paths) : AttributeItem.Listable path := by
  obtain ⟨⟨_, a⟩, hmem, rfl⟩ := List.mem_map.mp hpath
  rcases mem_addressed.mp hmem with ⟨ha, rfl⟩ | ⟨p, hp, ha, rfl⟩
  · exact .of_plain (h.own_plain ha)
  · exact .of_plain_dot (h.parts p hp) (h.part_plain hp ha)

/-- Paths of different parts differ before the first dot, and a component's own have none. -/
theorem paths_nodup : c.paths.Nodup := by
  rw [paths_eq, List.nodup_append, List.nodup_flatMap]
  refine ⟨h.distinct.own, ⟨fun p hp => ?_, ?_⟩, ?_⟩
  · have hinjective : Function.Injective fun name => p.name ++ "." ++ name :=
      fun _ _ heq => (String.append_right_inj _).mp heq
    have hnames := (h.distinct.tables p hp).map hinjective
    rw [List.map_map] at hnames
    exact hnames
  · have hparts := List.pairwise_map.mp h.distinct.parts
    refine hparts.imp_of_mem fun {p q} hp hq hne path hpath hpath' => ?_
    obtain ⟨a, -, rfl⟩ := List.mem_map.mp hpath
    obtain ⟨b, -, heq⟩ := List.mem_map.mp hpath'
    exact hne (eq_of_dotted_eq (h.parts q hq).no_dot (h.parts p hp).no_dot heq).1.symm
  · intro path hown path' hpart heq
    obtain ⟨a, ha, rfl⟩ := List.mem_map.mp hown
    obtain ⟨p, hp, hpaths⟩ := List.mem_flatMap.mp hpart
    obtain ⟨b, hb, rfl⟩ := List.mem_map.mp hpaths
    -- the path of a part has a dot, the name of an attribute has none
    have hdot : '.' ∈ a.name.toList := by
      rw [heq, String.toList_append, String.toList_append]
      simp
    exact (h.own_plain ha).no_dot hdot

/-- In an addressable component no attribute hides another one from its path. -/
theorem findAttribute?_eq {path : String} {a : Attribute σ} (hmem : (path, a) ∈ c.addressed) :
    c.findAttribute? path = some a := by
  rcases mem_addressed.mp hmem with ⟨ha, rfl⟩ | ⟨p, hp, ha, rfl⟩
  · unfold findAttribute?
    rw [h.distinct.own.attribute?_eq ha]
    rfl
  · obtain ⟨before, after, hparts⟩ := List.append_of_mem hp
    refine findAttribute?_part h.paths_nodup hparts ha fun q hq => ?_
    -- a part that leads the path has the name before its first dot, and only `p` has it
    rintro ⟨rest, hrest⟩
    have hq' : q ∈ c.surface.parts := by
      rw [hparts]
      exact List.mem_append_left _ hq
    have hsame := (eq_of_dotted_eq (h.parts p hp).no_dot (h.parts q hq').no_dot hrest).1
    have hnames := h.distinct.parts
    rw [hparts, List.map_append, List.nodup_append] at hnames
    exact hnames.2.2 q.name (List.mem_map_of_mem hq) p.name
      (List.mem_map_of_mem List.mem_cons_self) hsame.symm

/-- Reading all paths in their order gives the dump. -/
theorem read_paths (s : σ) : c.read c.paths s = c.dump s := by
  rw [read_eq, dump_eq, paths, List.filterMap_map]
  refine List.filterMap_congr fun e he => ?_
  rw [Function.comp_apply, h.findAttribute?_eq he]
  rfl

theorem read_perm {paths : List String} (hperm : paths.Perm c.paths) (s : σ) :
    (c.read paths s).Perm (c.dump s) := by
  rw [← h.read_paths, read_eq, read_eq]
  exact hperm.filterMap _

end Addressable

end Component

/-- The attributes of a list of components under the keys of their entries. -/
def keyedAttributes (components : List (Component σ)) : List (String × Attribute σ) :=
  components.flatMap fun c => c.addressed.map fun (path, a) => (c.name ++ "." ++ path, a)

def presentEntries (keyed : List (String × Attribute σ)) (s : σ) : List (String × String) :=
  keyed.filterMap fun (key, a) => a.entry? key s

theorem dumpAll_eq (components : List (Component σ)) (s : σ) :
    dumpAll components s = presentEntries (keyedAttributes components) s := by
  unfold dumpAll presentEntries keyedAttributes
  rw [List.filterMap_flatMap]
  refine congrArg (List.flatMap · components) (funext fun c => ?_)
  rw [c.dump_eq, List.filterMap_map]
  rfl

theorem presentEntries_keys (keyed : List (String × Attribute σ)) (s : σ) :
    ((presentEntries keyed s).map (·.1)).Sublist (keyed.map (·.1)) := by
  unfold presentEntries
  induction keyed with
  | nil => exact .slnil
  | cons e keyed ih =>
    obtain ⟨key, a⟩ := e
    rw [List.filterMap_cons]
    cases hget : a.get s with
    | none =>
      have hentry : a.entry? key s = none := by rw [Attribute.entry?, hget]; rfl
      simp only [hentry]
      exact .cons _ ih
    | some v =>
      have hentry : a.entry? key s = some (key, v.render) := by rw [Attribute.entry?, hget]; rfl
      simp only [hentry]
      exact .cons_cons _ ih

/-- Keys of different components differ before the first dot. -/
theorem keyedAttributes_nodup {components : List (Component σ)}
    (hunique : (components.map (·.name)).Nodup)
    (haddressable : ∀ c ∈ components, c.Addressable) :
    ((keyedAttributes components).map (·.1)).Nodup := by
  have hkeys : (keyedAttributes components).map (·.1) =
      components.flatMap fun c => c.paths.map (c.name ++ "." ++ ·) := by
    unfold keyedAttributes Component.paths
    rw [List.map_flatMap]
    simp only [List.map_map]
    rfl
  rw [hkeys, List.nodup_flatMap]
  refine ⟨fun c hc => ?_, ?_⟩
  · have hinjective : Function.Injective (c.name ++ "." ++ ·) :=
      fun _ _ heq => (String.append_right_inj _).mp heq
    exact (haddressable c hc).paths_nodup.map hinjective
  · refine (List.pairwise_map.mp hunique).imp_of_mem fun {c d} hc hd hne key hkey hkey' => ?_
    obtain ⟨path, -, rfl⟩ := List.mem_map.mp hkey
    obtain ⟨path', -, heq⟩ := List.mem_map.mp hkey'
    exact hne (eq_of_dotted_eq (haddressable d hd).name.no_dot (haddressable c hc).name.no_dot
      heq).1.symm

theorem dumpAll_perm {components : List (Component σ)} (hunique : (components.map (·.name)).Nodup)
    (haddressable : ∀ c ∈ components, c.Addressable) (s : σ) :
    (Entries.empty.insertAll (dumpAll components s)).toList.Perm (dumpAll components s) := by
  apply Entries.toList_insertAll_perm
  rw [dumpAll_eq]
  exact (keyedAttributes_nodup hunique haddressable).sublist (presentEntries_keys _ s)

theorem Component.Addressable.dump_keys {c : Component σ} (h : c.Addressable) (s : σ) :
    ((c.dump s).map (·.1)).Nodup := by
  have hone : c.dump s = dumpAll [c] s := (List.append_nil _).symm
  have hunique : ([c].map (·.name)).Nodup := List.nodup_singleton _
  rw [hone, dumpAll_eq]
  refine (keyedAttributes_nodup hunique fun d hd => ?_).sublist (presentEntries_keys _ s)
  rw [List.mem_singleton.mp hd]
  exact h

/-- On a stack with plain names the dump of everything has exactly one entry for each
attribute that has a value, and no two attributes have a key in common; it is the union of
the dumps of the components; and the dump of a component is what a read of all its paths
gives, in any order. -/
theorem dump_agrees_with_reads (stack : Stack (Memory σ))
    (haddressable : ∀ c ∈ stack.components, c.Addressable) (threads : ThreadSource)
    (layout : ReportLayout) (s : NodeState σ) (micros : UInt64) :
    let node : Node σ := { components := stack.components, threads, layout }
    let answer (token : String) : Entries := (node.handle micros [token] s).entries
    (answer "jmx").toList.Perm (presentEntries (keyedAttributes stack.components) s.memory) ∧
    ((keyedAttributes stack.components).map (·.1)).Nodup ∧
    (∀ e, e ∈ (answer "jmx").toList ↔
      ∃ c ∈ stack.components, e ∈ (answer ("jmx=" ++ c.name)).toList) ∧
    ∀ c ∈ stack.components, ∀ paths : List String, paths.Perm c.paths →
      answer ("jmx=" ++ c.name) = answer ("jmx=" ++ (c.name ++ "." ++ ",".intercalate paths)) := by
  intro node answer
  have hanswer : ∀ token, answer token = Entries.empty.insertAll (node.dispatch token s).entries :=
    fun token => node.handle_singleton_entries micros token s
  have hall : (answer "jmx").toList.Perm (dumpAll stack.components s.memory) := by
    rw [hanswer, Node.dispatch_dump]
    exact dumpAll_perm stack.unique haddressable s.memory
  have hdump : ∀ c ∈ stack.components,
      answer ("jmx=" ++ c.name) = Entries.empty.insertAll (c.dump s.memory) := by
    intro c hc
    rw [hanswer, Node.dispatch_component_dump stack.unique hc (haddressable c hc).name.no_dot]
    rfl
  refine ⟨?_, keyedAttributes_nodup stack.unique haddressable, fun e => ?_, ?_⟩
  · rw [← dumpAll_eq]
    exact hall
  · rw [hall.mem_iff]
    refine List.mem_flatMap.trans (exists_congr fun c => and_congr_right fun hc => ?_)
    rw [hdump c hc, (Entries.toList_insertAll_perm ((haddressable c hc).dump_keys _)).mem_iff]
  · intro c hc paths hpaths
    have hc' := haddressable c hc
    have hlistable : ∀ path ∈ paths, AttributeItem.Listable path :=
      fun path hpath => hc'.listable (hpaths.subset hpath)
    rw [hdump c hc, hanswer,
      Node.dispatch_component_read stack.unique hc hc'.name.no_dot hlistable]
    exact Entries.insertAll_eq_of_perm (hc'.read_perm hpaths s.memory).symm (hc'.dump_keys _)

/-- The program's own components can be addressed in full. -/
theorem CommandLine.node_addressable (config : Config) (threads : ThreadSource) :
    ∀ c ∈ (node config threads).components, c.Addressable := by
  intro c hc
  simp only [node, List.mem_cons, List.not_mem_nil, or_false] at hc
  rcases hc with rfl | rfl
  · exact ⟨by decide, by decide, by decide, diagnostics_distinct.focus _⟩
  · exact ⟨by decide, by decide, by decide, counter_distinct.focus _⟩

theorem dump_of_counter_agrees_with_read :
    let node := CommandLine.node {} (.numbered true true [])
    let s := CommandLine.initialState {}
    let answer (token : String) : Entries := (node.handle 7 [token] s).entries
    (node.components.map (·.name)).Nodup ∧ (∀ c ∈ node.components, c.Addressable) ∧
    (answer "jmx").toList.length = 12 ∧
    answer "jmx=COUNTER" =
      answer "jmx=COUNTER.history.recent,mode,label,count,history.capacity,step" := by
  intro node s answer
  have hunique : (node.components.map (·.name)).Nodup := by decide
  have haddressable := CommandLine.node_addressable {} (.numbered true true [])
  have h := dump_agrees_with_reads ⟨node.components, hunique⟩ haddressable node.threads node.layout s 7
  refine ⟨hunique, haddressable, ?_, ?_⟩
  · exact h.1.length_eq
  · exact h.2.2.2 (node.components[1]) (List.getElem_mem _)
      ["history.recent", "mode", "label", "count", "history.capacity", "step"] (by decide)

end NodeProbe
