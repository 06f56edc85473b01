import NodeProbe.Proofs.EntryLookup
import NodeProbe.Proofs.Registration
import NodeProbe.Proofs.Runs

/-!
# The text of an attribute command

An attribute command names a component, and behind a dot a list of items between commas.
Names without signs that commands are cut at, and without blanks, come out of the text as
they were put in.
-/
namespace NodeProbe

variable {σ : Type}

/-- A name that stands for itself in a command: it is not empty, and it has no sign that
commands are cut at and no blank. -/
structure Plain (name : String) : Prop where
  ne_empty : name ≠ ""
  no_dot : '.' ∉ name.toList
  no_comma : ',' ∉ name.toList
  no_equals : '=' ∉ name.toList
  no_blank : ∀ c ∈ name.toList, Text.isBlank c = false

def isPlainSign (c : Char) : Bool := c != '.' && c != ',' && c != '=' && !Text.isBlank c

/-- Plainness as a test of every sign. -/
theorem plain_iff {name : String} :
    Plain name ↔ name ≠ "" ∧ name.toList.all isPlainSign = true := by
  have hsign : ∀ c : Char, isPlainSign c = true ↔
      c ≠ '.' ∧ c ≠ ',' ∧ c ≠ '=' ∧ Text.isBlank c = false := by
    intro c
    simp only [isPlainSign, Bool.and_eq_true, bne_iff_ne, ne_eq, Bool.not_eq_true', and_assoc]
  rw [List.all_eq_true]
  simp only [hsign]
  constructor
  · rintro ⟨ne, dot, comma, equals, blank⟩
    exact ⟨ne, fun c hc => ⟨fun h => dot (h ▸ hc), fun h => comma (h ▸ hc),
      fun h => equals (h ▸ hc), blank c hc⟩⟩
  · rintro ⟨ne, signs⟩
    exact ⟨ne, fun hc => (signs _ hc).1 rfl, fun hc => (signs _ hc).2.1 rfl,
      fun hc => (signs _ hc).2.2.1 rfl, fun c hc => (signs c hc).2.2.2⟩

instance (name : String) : Decidable (Plain name) := decidable_of_iff _ plain_iff.symm

theorem Verb.ofToken?_jmx (argument : String) :
    Verb.ofToken? ("jmx=" ++ argument) = some (.attributes (some argument)) := by
  have hargument : argument? ("jmx=" ++ argument) "jmx" = some (some argument) := by
    have hchars : ("jmx=" ++ argument).toList = 'j' :: 'm' :: 'x' :: '=' :: argument.toList := by
      rw [String.toList_append]
      rfl
    unfold argument?
    rw [hchars]
    change some (some (String.ofList argument.toList)) = _
    rw [String.ofList_toList]
  unfold ofToken?
  rw [hargument]
  rfl

namespace AttributeItem

theorem ofText_plain {cs : List Char} (h : '=' ∉ cs) : ofText cs = read (.ofList cs) := by
  unfold ofText
  rw [Text.cut_eq_none.mpr h]

/-- A path that a list of items can hold as it is. -/
structure Listable (path : String) : Prop where
  ne_empty : path ≠ ""
  no_comma : ',' ∉ path.toList
  no_equals : '=' ∉ path.toList
  no_blank : ∀ c ∈ path.toList, Text.isBlank c = false

theorem Listable.of_plain {name : String} (h : Plain name) : Listable name :=
  ⟨h.ne_empty, h.no_comma, h.no_equals, h.no_blank⟩

/-- The path of an attribute of a part stands in a list as it is, too. -/
theorem Listable.of_plain_dot {part name : String} (hpart : Plain part) (hname : Plain name) :
    Listable (part ++ "." ++ name) := by
  have hmem : ∀ c ∈ (part ++ "." ++ name).toList, c ∈ part.toList ∨ c = '.' ∨ c ∈ name.toList := by
    intro c hc
    rw [String.toList_append, String.toList_append, List.append_assoc, List.mem_append] at hc
    exact hc.imp_right fun hc => List.mem_cons.mp hc
  refine ⟨fun hempty => ?_, fun hc => ?_, fun hc => ?_, fun c hc => ?_⟩
  · exact hpart.ne_empty (String.append_eq_empty_iff.mp (String.append_eq_empty_iff.mp hempty).1).1
  · rcases hmem _ hc with hc | hc | hc
    · exact hpart.no_comma hc
    · cases hc
    · exact hname.no_comma hc
  · rcases hmem _ hc with hc | hc | hc
    · exact hpart.no_equals hc
    · cases hc
    · exact hname.no_equals hc
  · rcases hmem _ hc with hc | rfl | hc
    · exact hpart.no_blank c hc
    · decide
    · exact hname.no_blank c hc

/-- What a text between commas stands for, unless it is blank. -/
def ofItem? (item : String) : Option AttributeItem :=
  if (Text.trim item.toList).isEmpty then none else some (ofText (Text.trim item.toList))

/-- A list is read item by item. -/
theorem ofList_items {items : List String} (h : ∀ item ∈ items, ',' ∉ item.toList) :
    ofList (",".intercalate items) = items.filterMap ofItem? := by
  -- cutting the text of no items gives one empty item, which is then dropped
  by_cases hnil : items = []
  · subst hnil
    rfl
  have hsplit : (",".intercalate items).toList.splitOn ',' = items.map String.toList := by
    rw [String.toList_intercalate]
    refine List.splitOn_intercalate ',' (fun cs hcs => ?_) (by simpa using hnil)
    obtain ⟨item, hitem, rfl⟩ := List.mem_map.mp hcs
    exact h item hitem
  unfold ofList
  rw [hsplit]
  clear hsplit hnil h
  induction items with
  | nil => rfl
  | cons item items ih =>
    by_cases hblank : (Text.trim item.toList).isEmpty = true
    · simpa [ofItem?, hblank] using ih
    · simpa [ofItem?, hblank] using ih

/-- A list of paths is read as one item for each. -/
theorem ofList_intercalate {paths : List String} (h : ∀ path ∈ paths, Listable path) :
    ofList (",".intercalate paths) = paths.map read := by
  rw [ofList_items fun path hpath => (h path hpath).no_comma, ← List.filterMap_eq_map]
  refine List.filterMap_congr fun path hpath => ?_
  have hne : path.toList ≠ [] := fun hnil =>
    (h path hpath).ne_empty (String.toList_eq_nil_iff.mp hnil)
  unfold ofItem?
  rw [Text.trim_of_no_blank (h path hpath).no_blank, if_neg (by simpa using hne),
    ofText_plain (h path hpath).no_equals, String.ofList_toList]
  rfl

theorem filterMap_readName? (paths : List String) :
    (paths.map read).filterMap readName? = paths := by
  rw [List.filterMap_map]
  exact List.filterMap_some

theorem filterMap_writeOf? (paths : List String) : (paths.map read).filterMap writeOf? = [] := by
  rw [List.filterMap_map]
  exact List.filterMap_eq_nil_iff.mpr fun _ _ => rfl

end AttributeItem

namespace Node

theorem handle_singleton_entries (node : Node σ) (micros : UInt64) (token : String)
    (s : NodeState σ) :
    (node.handle micros [token] s).entries = Entries.empty.insertAll (node.dispatch token s).entries :=
  node.step_entries { state := s } token

theorem dispatch_jmx (node : Node σ) (argument : String) (s : NodeState σ) :
    node.dispatch ("jmx=" ++ argument) s = node.accessAttributes argument s := by
  unfold dispatch
  rw [Verb.ofToken?_jmx]
  rfl

theorem dispatch_dump (node : Node σ) (s : NodeState σ) :
    node.dispatch "jmx" s = .ofEntries s (dumpAll node.components s.memory) := rfl

theorem attributeTarget_name {name : String} (h : '.' ∉ name.toList) :
    attributeTarget name = (name, none) := by
  unfold attributeTarget
  rw [String.cut?_eq_none.mpr h]

theorem attributeTarget_list {name : String} (h : '.' ∉ name.toList) (list : String) :
    attributeTarget (name ++ "." ++ list) = (name, some list) := by
  unfold attributeTarget
  rw [show "." = String.singleton '.' from rfl, String.cut?_append h]

theorem findByName_of_mem {components : List (Component σ)}
    (hunique : (components.map (·.name)).Nodup) {c : Component σ} (hc : c ∈ components) :
    findByName components c.name = some c := find?_of_nodup hunique hc

variable {node : Node σ} (hunique : (node.components.map (·.name)).Nodup)
  {c : Component (Memory σ)} (hc : c ∈ node.components) (hdot : '.' ∉ c.name.toList)
include hunique hc hdot

/-- The command of a component's name alone dumps the component. -/
theorem dispatch_component_dump (s : NodeState σ) :
    node.dispatch ("jmx=" ++ c.name) s = .ofEntries s (c.dump s.memory) := by
  rw [dispatch_jmx, accessAttributes_eq, attributeTarget_name hdot, findByName_of_mem hunique hc]
  rfl

/-- A list of paths behind the name reads them, in this order. -/
theorem dispatch_component_read {paths : List String}
    (h : ∀ path ∈ paths, AttributeItem.Listable path) (s : NodeState σ) :
    node.dispatch ("jmx=" ++ (c.name ++ "." ++ ",".intercalate paths)) s =
      .ofEntries s (c.read paths s.memory) := by
  rw [dispatch_jmx, accessAttributes_eq, attributeTarget_list hdot, findByName_of_mem hunique hc]
  unfold accessComponent
  simp only [AttributeItem.ofList_intercalate h, AttributeItem.filterMap_readName?,
    AttributeItem.filterMap_writeOf?, Component.writeAll]
  rfl

end Node

end NodeProbe
