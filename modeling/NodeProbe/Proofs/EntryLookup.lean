import Mathlib.Data.List.Perm.Lattice
import NodeProbe.Request.Entries

/-!
# Looking entries up

An entry that is added overrides the one of its key and leaves all others. Entries under
different keys are therefore all kept, in whatever order they are added.
-/
namespace NodeProbe.Entries

theorem lookup_cons_eq (key : String) (e : String × String) (es : List (String × String)) :
    (e :: es).lookup key = if key = e.1 then some e.2 else es.lookup key := by
  rw [List.lookup_cons]
  by_cases h : key = e.1
  · rw [if_pos h, beq_iff_eq.mpr h]
  · rw [if_neg h, beq_eq_false_iff_ne.mpr h]

/-- Placing an entry changes what its own key shows and nothing else. -/
theorem lookup_place (key value : String) (es : List (String × String)) (key' : String) :
    (place key value es).lookup key' = if key' = key then some value else es.lookup key' := by
  induction es with
  | nil => exact lookup_cons_eq key' (key, value) []
  | cons e es ih =>
    unfold place
    split
    · rw [lookup_cons_eq]
    · split
      · next same =>
        rw [lookup_cons_eq, lookup_cons_eq, same]
        split <;> rfl
      · next differ =>
        rw [lookup_cons_eq, lookup_cons_eq, ih]
        by_cases h : key' = key
        · rw [if_pos h, if_pos h, if_neg (h ▸ differ)]
        · rw [if_neg h, if_neg h]

theorem get?_insert (es : Entries) (key value key' : String) :
    (es.insert key value).get? key' = if key' = key then some value else es.get? key' :=
  lookup_place key value es.toList key'

theorem insertAll_cons (es : Entries) (e : String × String) (new : List (String × String)) :
    es.insertAll (e :: new) = (es.insert e.1 e.2).insertAll new := rfl

/-- Added entries override those that stand before, key by key. -/
theorem get?_insertAll (es : Entries) (new : List (String × String)) (key : String) :
    (es.insertAll new).get? key = ((empty.insertAll new).get? key).or (es.get? key) := by
  induction new generalizing es with
  | nil => rfl
  | cons e new ih =>
    -- on the right too the first entry is added before the rest, to no entries at all
    rw [insertAll_cons, insertAll_cons, ih (es.insert e.1 e.2), ih (empty.insert e.1 e.2),
      get?_insert, get?_insert]
    by_cases h : key = e.1
    · rw [if_pos h, if_pos h, Option.or_assoc, Option.some_or]
    · have hempty : empty.get? key = none := rfl
      rw [if_neg h, if_neg h, hempty, Option.or_none]

theorem get?_insertAll_of_notMem {es : Entries} {new : List (String × String)} {key : String}
    (h : key ∉ new.map (·.1)) : (es.insertAll new).get? key = es.get? key := by
  induction new generalizing es with
  | nil => rfl
  | cons e new ih =>
    rw [List.map_cons, List.mem_cons, not_or] at h
    rw [insertAll_cons, ih h.2, get?_insert, if_neg h.1]

/-- What is added under a key can be looked up, if nothing else is added under it. -/
theorem get?_insertAll_of_mem {es : Entries} {new : List (String × String)} {key value : String}
    (hmem : (key, value) ∈ new) (hsame : ∀ e ∈ new, e.1 = key → e.2 = value) :
    (es.insertAll new).get? key = some value := by
  induction new generalizing es with
  | nil => cases hmem
  | cons e new ih =>
    obtain ⟨he, hnew⟩ := List.forall_mem_cons.mp hsame
    rw [insertAll_cons]
    by_cases hlater : (key, value) ∈ new
    · exact ih hlater hnew
    · have hnone : key ∉ new.map (·.1) := by
        intro hkey
        obtain ⟨e', he', rfl⟩ := List.mem_map.mp hkey
        exact hlater (hnew e' he' rfl ▸ he')
      have hfirst : (key, value) = e := (List.mem_cons.mp hmem).resolve_right hlater
      rw [get?_insertAll_of_notMem hnone, get?_insert, ← hfirst, if_pos rfl]

/-- An entry under a new key joins those that are there. -/
theorem place_perm {key value : String} {es : List (String × String)} (h : key ∉ es.map (·.1)) :
    (place key value es).Perm ((key, value) :: es) := by
  induction es with
  | nil => exact .refl _
  | cons e es ih =>
    rw [List.map_cons, List.mem_cons, not_or] at h
    unfold place
    split
    · exact .refl _
    · rw [if_neg h.1]
      exact ((ih h.2).cons e).trans (.swap _ _ _)

/-- Entries under new and distinct keys are all kept. -/
theorem insertAll_perm {es : Entries} {new : List (String × String)}
    (hkeys : (es.toList.map (·.1) ++ new.map (·.1)).Nodup) :
    (es.insertAll new).toList.Perm (es.toList ++ new) := by
  induction new generalizing es with
  | nil => rw [List.append_nil]; exact .refl _
  | cons e new ih =>
    have hmoved : (es.toList.map (·.1) ++ (e :: new).map (·.1)).Perm
        (((e.1, e.2) :: es.toList).map (·.1) ++ new.map (·.1)) := List.perm_middle
    have hfresh : e.1 ∉ es.toList.map (·.1) := by
      have hnodup := hmoved.nodup hkeys
      rw [List.map_cons, List.cons_append, List.nodup_cons, List.mem_append, not_or] at hnodup
      exact hnodup.1.1
    have hplaced : (es.insert e.1 e.2).toList.Perm ((e.1, e.2) :: es.toList) := place_perm hfresh
    have hkeys' : ((es.insert e.1 e.2).toList.map (·.1) ++ new.map (·.1)).Nodup :=
      ((hplaced.map _).append_right _).symm.nodup (hmoved.nodup hkeys)
    rw [insertAll_cons]
    exact (ih hkeys').trans ((hplaced.append_right new).trans List.perm_middle.symm)

/-- Entries under different keys are all kept. -/
theorem toList_insertAll_perm {new : List (String × String)} (hkeys : (new.map (·.1)).Nodup) :
    (empty.insertAll new).toList.Perm new := insertAll_perm hkeys

theorem eq_of_perm {es es' : Entries} (h : es.toList.Perm es'.toList) : es = es' := by
  have hlist : es.toList = es'.toList :=
    List.Perm.eq_of_pairwise (fun _ _ _ _ lt gt => absurd gt (String.lt_asymm lt))
      es.ordered es'.ordered h
  obtain ⟨list, ordered⟩ := es
  obtain ⟨list', ordered'⟩ := es'
  cases hlist
  rfl

theorem mem_iff_get? {es : Entries} {e : String × String} :
    e ∈ es.toList ↔ es.get? e.1 = some e.2 := by
  unfold get?
  rw [List.lookup_eq_some_iff]
  constructor
  · intro h
    obtain ⟨before, after, hparts⟩ := List.append_of_mem h
    have hordered := es.ordered
    rw [hparts, List.pairwise_append] at hordered
    refine ⟨before, after, hparts, fun p hp => ?_⟩
    have hlt := hordered.2.2 p hp e List.mem_cons_self
    rw [bne_iff_ne]
    exact (String.ne_of_lt hlt).symm
  · rintro ⟨before, after, hparts, -⟩
    rw [hparts]
    exact List.mem_append_right _ List.mem_cons_self

/-- Entries are what can be looked up. -/
theorem ext_get? {es es' : Entries} (h : ∀ key, es.get? key = es'.get? key) : es = es' := by
  have hnodup (es : Entries) : es.toList.Nodup := by
    refine es.ordered.imp fun {a b} hlt => ?_
    rintro rfl
    exact String.lt_irrefl _ hlt
  refine eq_of_perm ((List.perm_ext_iff_of_nodup (hnodup es) (hnodup es')).mpr fun e => ?_)
  rw [mem_iff_get?, mem_iff_get?, h]

/-- Lists of entries without a key in common can be added in either order, even if a list
has a key twice. -/
theorem insertAll_comm {new new' : List (String × String)}
    (hkeys : ∀ e ∈ new, ∀ e' ∈ new', e.1 ≠ e'.1) (es : Entries) :
    (es.insertAll new).insertAll new' = (es.insertAll new').insertAll new := by
  refine ext_get? fun key => ?_
  by_cases hkey : key ∈ new.map (·.1)
  · have hkey' : key ∉ new'.map (·.1) := by
      intro hmem
      obtain ⟨e, he, rfl⟩ := List.mem_map.mp hkey
      obtain ⟨e', he', heq⟩ := List.mem_map.mp hmem
      exact hkeys e he e' he' heq.symm
    rw [get?_insertAll_of_notMem hkey', get?_insertAll, get?_insertAll (es.insertAll new'),
      get?_insertAll_of_notMem hkey']
  · rw [get?_insertAll_of_notMem hkey, get?_insertAll, get?_insertAll es new',
      get?_insertAll_of_notMem hkey]

/-- Of entries that have one value for each key it matters only which are added, not in which
order or how often. -/
theorem insertAll_congr {new new' : List (String × String)} (hmem : ∀ e, e ∈ new ↔ e ∈ new')
    (hsame : ∀ e ∈ new, ∀ e' ∈ new, e.1 = e'.1 → e.2 = e'.2) (es : Entries) :
    es.insertAll new = es.insertAll new' := by
  refine ext_get? fun key => ?_
  by_cases hkey : key ∈ new.map (·.1)
  · obtain ⟨e, he, rfl⟩ := List.mem_map.mp hkey
    have hvalue : ∀ e' ∈ new, e'.1 = e.1 → e'.2 = e.2 := fun e' he' heq => hsame e' he' e he heq
    have hvalue' : ∀ e' ∈ new', e'.1 = e.1 → e'.2 = e.2 :=
      fun e' he' => hvalue e' ((hmem e').mpr he')
    rw [get?_insertAll_of_mem he hvalue, get?_insertAll_of_mem ((hmem e).mp he) hvalue']
  · have hkey' : key ∉ new'.map (·.1) := by
      intro hin
      obtain ⟨e, he, rfl⟩ := List.mem_map.mp hin
      exact hkey (List.mem_map_of_mem ((hmem e).mpr he))
    rw [get?_insertAll_of_notMem hkey, get?_insertAll_of_notMem hkey']

/-- The order in which entries under different keys are added does not matter. -/
theorem insertAll_eq_of_perm {new new' : List (String × String)} (h : new.Perm new')
    (hkeys : (new.map (·.1)).Nodup) : empty.insertAll new = empty.insertAll new' := by
  have hkeys' : (new'.map (·.1)).Nodup := (h.map _).nodup hkeys
  exact eq_of_perm ((toList_insertAll_perm hkeys).trans (h.trans (toList_insertAll_perm hkeys').symm))

end NodeProbe.Entries
