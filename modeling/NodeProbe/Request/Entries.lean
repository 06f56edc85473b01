/-!
# Result entries

The result of a request maps keys to texts. Entries stand in the order of their keys,
each key once; a later entry replaces an earlier one of its key.
-/
namespace NodeProbe

/-- Entries in ascending order of their keys. -/
structure Entries where
  toList : List (String × String) := []
  ordered : toList.Pairwise (fun a b => a.1 < b.1) := by exact List.Pairwise.nil

namespace Entries

/-- Puts an entry in its place in an ascending list. -/
def place (key value : String) : List (String × String) → List (String × String)
  | [] => [(key, value)]
  | e :: es =>
    if key < e.1 then (key, value) :: e :: es
    else if key = e.1 then (key, value) :: es
    else e :: place key value es

theorem mem_place {key value : String} {es : List (String × String)} {x : String × String}
    (h : x ∈ place key value es) : x = (key, value) ∨ x ∈ es := by
  induction es with
  | nil => simpa [place] using h
  | cons e es ih =>
    unfold place at h
    split at h
    · simpa using h
    · split at h
      · rcases List.mem_cons.mp h with h | h <;> simp [h]
      · rcases List.mem_cons.mp h with h | h
        · simp [h]
        · rcases ih h with h | h <;> simp [h]

/-- Placing an entry keeps the keys ascending and distinct. -/
theorem ordered_place {key value : String} {es : List (String × String)}
    (h : es.Pairwise fun a b => a.1 < b.1) : (place key value es).Pairwise fun a b => a.1 < b.1 := by
  induction es with
  | nil => simp [place]
  | cons e es ih =>
    have ⟨above, rest⟩ := List.pairwise_cons.mp h
    unfold place
    split
    · next lt =>
      refine List.pairwise_cons.mpr ⟨fun x hx => ?_, h⟩
      rcases List.mem_cons.mp hx with rfl | hx
      · exact lt
      · exact String.lt_trans lt (above x hx)
    · next notLt =>
      split
      · next same => exact List.pairwise_cons.mpr ⟨fun x hx => by simpa [same] using above x hx, rest⟩
      · next differ =>
        refine List.pairwise_cons.mpr ⟨fun x hx => ?_, ih rest⟩
        rcases mem_place hx with rfl | hx
        · exact String.not_le.mp fun le => differ (String.le_antisymm le (String.not_lt.mp notLt))
        · exact above x hx

def empty : Entries := {}

instance : Inhabited Entries := ⟨empty⟩

/-- Adds an entry, in place of an earlier one of its key. -/
def insert (entries : Entries) (key value : String) : Entries :=
  ⟨place key value entries.toList, ordered_place entries.ordered⟩

def insertAll (entries : Entries) (new : List (String × String)) : Entries :=
  new.foldl (fun es (key, value) => es.insert key value) entries

def get? (entries : Entries) (key : String) : Option String := entries.toList.lookup key

end Entries

end NodeProbe
