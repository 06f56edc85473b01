import NodeProbe.Component.Scripted
import NodeProbe.Proofs.Deed
import NodeProbe.Proofs.Registration

/-!
# Attributes under their paths

A dump goes through the attributes of a component; a read looks a path up, first among the
component's own names, then in the first part whose name and a dot begin the path. When
all paths are different the two agree on an attribute of a part, unless an earlier part
takes its path away.
-/
namespace NodeProbe

variable {σ : Type}

/-- The entry of an attribute under a key, if the attribute has a value. -/
def Attribute.entry? (a : Attribute σ) (key : String) (s : σ) : Option (String × String) :=
  (a.get s).map fun v => (key, v.render)

namespace Part

def paths (p : Part σ) : List String := p.table.attributes.map fun a => p.name ++ "." ++ a.name

def Leads (p : Part σ) (path : String) : Prop := ∃ rest, path = p.name ++ "." ++ rest

/-- The part and the rest of a path that it leads. -/
def split? (p : Part σ) (path : String) : Option (Part σ × String) :=
  (path.dropLeading? (p.name ++ ".")).map (p, ·)

theorem split?_eq_some {p q : Part σ} {path rest : String} :
    p.split? path = some (q, rest) ↔ q = p ∧ path = p.name ++ "." ++ rest := by
  unfold split?
  rw [Option.map_eq_some_iff]
  constructor
  · rintro ⟨rest', hrest, heq⟩
    cases heq
    exact ⟨rfl, String.dropLeading?_eq_some.mp hrest⟩
  · rintro ⟨rfl, hpath⟩
    exact ⟨rest, String.dropLeading?_eq_some.mpr hpath, rfl⟩

theorem split?_eq_none {p : Part σ} {path : String} : p.split? path = none ↔ ¬ p.Leads path := by
  rw [Option.eq_none_iff_forall_ne_some]
  constructor
  · rintro h ⟨rest, hpath⟩
    exact h (p, rest) (split?_eq_some.mpr ⟨rfl, hpath⟩)
  · rintro h ⟨q, rest⟩ hsplit
    exact h ⟨rest, (split?_eq_some.mp hsplit).2⟩

end Part

namespace Component

/-- The attributes of a component under the paths by which commands address them. -/
def addressed (c : Component σ) : List (String × Attribute σ) :=
  c.surface.own.attributes.map (fun a => (a.name, a)) ++
    c.surface.parts.flatMap fun p => p.table.attributes.map fun a => (p.name ++ "." ++ a.name, a)

def paths (c : Component σ) : List String := c.addressed.map (·.1)

theorem paths_eq (c : Component σ) :
    c.paths = c.surface.own.attributes.map (·.name) ++ c.surface.parts.flatMap Part.paths := by
  unfold paths addressed
  rw [List.map_append, List.map_map, List.map_flatMap]
  simp only [List.map_map]
  rfl

/-- A dump has the entry of every attribute under the path of the attribute. -/
theorem dump_eq (c : Component σ) (s : σ) :
    c.dump s = c.addressed.filterMap fun (path, a) => a.entry? (c.name ++ "." ++ path) s := by
  unfold dump Table.dump addressed
  rw [List.filterMap_append, List.filterMap_map, List.filterMap_flatMap]
  simp only [List.filterMap_map, Function.comp_def, String.append_assoc]
  rfl

theorem read_eq (c : Component σ) (names : List String) (s : σ) :
    c.read names s = names.filterMap fun name =>
      (c.findAttribute? name).bind fun a => a.entry? (c.name ++ "." ++ name) s := by
  unfold read
  simp only [Option.map_bind]
  rfl

theorem read_singleton {c : Component σ} {path : String} {a : Attribute σ}
    (h : c.findAttribute? path = some a) (s : σ) :
    c.read [path] s = (a.entry? (c.name ++ "." ++ path) s).toList := by
  rw [read_eq]
  cases hentry : a.entry? (c.name ++ "." ++ path) s <;> simp [h, hentry]

section

variable {c : Component σ} {before after : List (Part σ)} {p : Part σ}

/-- A path goes to the own table first, and then only to the first part that leads it. -/
theorem findAttribute?_eq (hparts : c.surface.parts = before ++ p :: after) (path : String) :
    c.findAttribute? path = (c.surface.own.attribute? path).or
      (((before.findSome? (·.split? path)).or
        ((p.split? path).or (after.findSome? (·.split? path)))).bind fun (q, rest) =>
          q.table.attribute? rest) := by
  have hsplit : c.surface.splitName? path = (before.findSome? (·.split? path)).or
      ((p.split? path).or (after.findSome? (·.split? path))) := by
    change c.surface.parts.findSome? (·.split? path) = _
    rw [hparts, List.findSome?_append, List.findSome?_cons]
    cases p.split? path <;> rfl
  unfold findAttribute?
  rw [hsplit]

variable (hdistinct : c.paths.Nodup) (hparts : c.surface.parts = before ++ p :: after)
include hdistinct hparts

/-- The component itself has no attribute under the path of one of its parts. -/
theorem own_attribute?_eq_none {a : Attribute σ} (ha : a ∈ p.table.attributes) :
    c.surface.own.attribute? (p.name ++ "." ++ a.name) = none := by
  rw [paths_eq, List.nodup_append] at hdistinct
  have hpath : p.name ++ "." ++ a.name ∈ c.surface.parts.flatMap Part.paths := by
    rw [hparts]
    exact List.mem_flatMap.mpr ⟨p, by simp, List.mem_map_of_mem ha⟩
  refine List.find?_eq_none.mpr fun b hb hname => ?_
  rw [beq_iff_eq] at hname
  exact hdistinct.2.2 b.name (List.mem_map_of_mem hb) _ hpath hname

theorem part_distinct : p.table.Distinct := by
  rw [paths_eq, List.nodup_append, List.nodup_flatMap] at hdistinct
  have hpaths : p.paths.Nodup := hdistinct.2.1.1 p (by rw [hparts]; simp)
  exact List.Nodup.of_map (fun name => p.name ++ "." ++ name) (by rw [List.map_map]; exact hpaths)

/-- An attribute of a part is found when no earlier part takes its path. -/
theorem findAttribute?_part {a : Attribute σ} (ha : a ∈ p.table.attributes)
    (hfirst : ∀ q ∈ before, ¬ q.Leads (p.name ++ "." ++ a.name)) :
    c.findAttribute? (p.name ++ "." ++ a.name) = some a := by
  have hbefore : before.findSome? (·.split? (p.name ++ "." ++ a.name)) = none :=
    List.findSome?_eq_none_iff.mpr fun q hq => Part.split?_eq_none.mpr (hfirst q hq)
  have hsplit : p.split? (p.name ++ "." ++ a.name) = some (p, a.name) :=
    Part.split?_eq_some.mpr ⟨rfl, rfl⟩
  rw [findAttribute?_eq hparts, own_attribute?_eq_none hdistinct hparts ha, hbefore, hsplit]
  exact (part_distinct hdistinct hparts).attribute?_eq ha

/-- Nothing is found under a path that an earlier part takes. -/
theorem findAttribute?_taken {a : Attribute σ} (ha : a ∈ p.table.attributes)
    (htaken : ∃ q ∈ before, q.Leads (p.name ++ "." ++ a.name)) :
    c.findAttribute? (p.name ++ "." ++ a.name) = none := by
  obtain ⟨q, hq, hleads⟩ := htaken
  have hsome : (before.findSome? (·.split? (p.name ++ "." ++ a.name))).isSome :=
    List.findSome?_isSome_iff.mpr ⟨q, hq, Option.isSome_iff_ne_none.mpr fun hnone =>
      Part.split?_eq_none.mp hnone hleads⟩
  obtain ⟨⟨first, rest⟩, hfound⟩ := Option.isSome_iff_exists.mp hsome
  rw [findAttribute?_eq hparts, own_attribute?_eq_none hdistinct hparts ha, hfound]
  obtain ⟨taker, htaker, hsplit⟩ := List.exists_of_findSome?_eq_some hfound
  obtain ⟨rfl, hpath⟩ := Part.split?_eq_some.mp hsplit
  -- an attribute of the earlier part under the rest would have the same path
  refine List.find?_eq_none.mpr fun b hb hname => ?_
  rw [beq_iff_eq] at hname
  have hbefore : p.name ++ "." ++ a.name ∈ before.flatMap Part.paths :=
    List.mem_flatMap.mpr ⟨first, htaker, List.mem_map.mpr ⟨b, hb, by rw [hname, hpath]⟩⟩
  have hbehind : p.name ++ "." ++ a.name ∈ (p :: after).flatMap Part.paths :=
    List.mem_flatMap.mpr ⟨p, List.mem_cons_self, List.mem_map_of_mem ha⟩
  rw [paths_eq, hparts, List.flatMap_append, List.nodup_append, List.nodup_append] at hdistinct
  exact hdistinct.2.1.2.2 _ hbefore _ hbehind rfl

end

end Component

/-- An attribute of a part that a dump shows can be read back under its dumped name exactly
when the name of no earlier part begins its path; otherwise the read gives nothing at all. -/
theorem dumped_part_attribute_read_iff (c : Component σ) (hdistinct : c.paths.Nodup)
    (before after : List (Part σ)) (p : Part σ) (hparts : c.surface.parts = before ++ p :: after)
    (a : Attribute σ) (ha : a ∈ p.table.attributes) (s : σ) (v : Value) (hv : a.get s = some v) :
    let path := p.name ++ "." ++ a.name
    let entry := (c.name ++ "." ++ path, v.render)
    entry ∈ c.dump s ∧
    (c.read [path] s = [entry] ↔ ∀ q ∈ before, ¬ q.Leads path) ∧
    ((∃ q ∈ before, q.Leads path) → c.read [path] s = []) := by
  intro path entry
  have hentry : a.entry? (c.name ++ "." ++ path) s = some entry := by
    unfold Attribute.entry?
    rw [hv]
    rfl
  have hdumped : entry ∈ c.dump s := by
    rw [c.dump_eq]
    refine List.mem_filterMap.mpr ⟨(path, a), List.mem_append_right _ ?_, hentry⟩
    exact List.mem_flatMap.mpr ⟨p, by rw [hparts]; simp, List.mem_map_of_mem ha⟩
  have htaken : (∃ q ∈ before, q.Leads path) → c.read [path] s = [] := by
    intro htaken
    rw [c.read_eq, List.filterMap_cons, Component.findAttribute?_taken hdistinct hparts ha htaken]
    rfl
  refine ⟨hdumped, ⟨fun hread => ?_, fun hfirst => ?_⟩, htaken⟩
  · intro q hq hleads
    rw [htaken ⟨q, hq, hleads⟩] at hread
    cases hread
  · rw [Component.read_singleton (Component.findAttribute?_part hdistinct hparts ha hfirst), hentry]
    rfl

theorem render_text (text : String) : (Value.text text).render = text := by rw [Value.render]

theorem dumped_part_attribute_read_behind_another :
    let c := Scripted.ComponentScript.component {
      name := "X", className := "X"
      parts := [⟨"a.b", { attributes := [{ name := "c", type := .i64, cell := "a.b.c" }] }⟩,
        ⟨"a", { attributes := [{ name := "x.c", type := .string, cell := "a.x.c" }] }⟩] }
    let s : Cells := ⟨[("a.b.c", .signed 1), ("a.x.c", .text "on")]⟩
    c.paths.Nodup ∧ ("X.a.x.c", "on") ∈ c.dump s ∧ c.read ["a.x.c"] s = [("X.a.x.c", "on")] := by
  intro c s
  have hdistinct : c.paths.Nodup := by decide
  have hpath : c.surface.parts[1].name ++ "." ++ c.surface.parts[1].table.attributes[0].name =
      "a.x.c" := by decide
  have hkey : c.name ++ "." ++ "a.x.c" = "X.a.x.c" := by decide
  have h := dumped_part_attribute_read_iff c hdistinct [c.surface.parts[0]] [] c.surface.parts[1] rfl
    c.surface.parts[1].table.attributes[0] (List.getElem_mem _) s (.text "on") rfl
  dsimp only at h
  rw [hpath, hkey, render_text] at h
  refine ⟨hdistinct, h.1, h.2.1.mpr fun q hq hleads => ?_⟩
  rw [List.mem_singleton.mp hq] at hleads
  obtain ⟨rest, hrest⟩ := hleads
  have hfirst : c.surface.parts[0].name ++ "." = "a.b." := by decide
  rw [hfirst] at hrest
  have hnone : "a.x.c".dropLeading? "a.b." = none := by decide
  rw [String.dropLeading?_eq_some.mpr hrest] at hnone
  cases hnone

/-- The parts `a` and `a.b`: what the second shows as `X.a.b.c` cannot be read as `a.b.c`,
because the first takes the path and has no attribute `b.c`. -/
theorem dumped_part_attribute_not_read :
    let c := Scripted.ComponentScript.component {
      name := "X", className := "X"
      parts := [⟨"a", {}⟩,
        ⟨"a.b", { attributes := [{ name := "c", type := .string, cell := "a.b.c" }] }⟩] }
    let s : Cells := ⟨[("a.b.c", .text "on")]⟩
    c.paths.Nodup ∧ ("X.a.b.c", "on") ∈ c.dump s ∧ c.read ["a.b.c"] s = [] := by
  intro c s
  have hdump : c.dump s = [("X.a.b.c", (Value.text "on").render)] := rfl
  rw [render_text] at hdump
  refine ⟨by decide, ?_, rfl⟩
  rw [hdump]
  exact List.mem_singleton_self _

end NodeProbe
