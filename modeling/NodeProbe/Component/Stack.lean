import NodeProbe.Component.Basic

/-!
# Stacks of components

A node runs an ordered list of components. A stack is such a list with unique instance
names; it is built at once or component by component, and both ways refuse the first
component whose name is taken.
-/
namespace NodeProbe

variable {σ : Type}

def findByName (components : List (Component σ)) (name : String) : Option (Component σ) :=
  components.find? (·.name == name)

def findByClass (components : List (Component σ)) (className : String) : Option (Component σ) :=
  components.find? (·.className == className)

/-- Components and how they are looked up. A registry without lookups of its own goes through its
components in order. -/
structure Registry (σ : Type) where
  components : List (Component σ)
  findByName : String → Option (Component σ) :=
    fun name => components.find? (·.name == name)
  findByClass : String → Option (Component σ) :=
    fun className => components.find? (·.className == className)

/-- An ordered list of components with unique instance names. -/
structure Stack (σ : Type) where
  components : List (Component σ)
  unique : (components.map (·.name)).Nodup

namespace Stack

def empty : Stack σ := ⟨[], List.nodup_nil⟩

instance : Inhabited (Stack σ) := ⟨empty⟩

/-- The first name that stands in the list before, or in `seen`. -/
def firstTaken? (seen : List String) : List String → Option String
  | [] => none
  | name :: names => if name ∈ seen then some name else firstTaken? (name :: seen) names

theorem firstTaken?_eq_none {seen names : List String} :
    firstTaken? seen names = none ↔ names.Nodup ∧ ∀ name ∈ names, name ∉ seen := by
  induction names generalizing seen with
  | nil => simp [firstTaken?]
  | cons name names ih =>
    by_cases h : name ∈ seen
    · simp [firstTaken?, h]
    · simp only [firstTaken?, h, if_false, ih, List.nodup_cons, List.mem_cons, forall_eq_or_imp,
        not_false_eq_true, true_and, not_or]
      constructor
      · rintro ⟨nodup, fresh⟩
        exact ⟨⟨fun hm => (fresh name hm).1 rfl, nodup⟩, fun n hn => (fresh n hn).2⟩
      · rintro ⟨⟨absent, nodup⟩, fresh⟩
        exact ⟨nodup, fun n hn => ⟨fun e => absent (e ▸ hn), fresh n hn⟩⟩

def ofList (components : List (Component σ)) : Except Failure (Stack σ) :=
  match h : firstTaken? [] (components.map (·.name)) with
  | some name => .error (.duplicateComponent name)
  | none => .ok ⟨components, (firstTaken?_eq_none.mp h).1⟩

def push (stack : Stack σ) (c : Component σ) : Except Failure (Stack σ) :=
  if h : c.name ∈ stack.components.map (·.name) then .error (.duplicateComponent c.name)
  else .ok ⟨stack.components ++ [c], by
    rw [List.map_append, List.map_singleton, List.nodup_append]
    exact ⟨stack.unique, by simp, fun a ha b hb e => h (List.mem_singleton.mp hb ▸ e ▸ ha)⟩⟩

def pushAll (stack : Stack σ) (components : List (Component σ)) : Except Failure (Stack σ) :=
  components.foldlM push stack

def registry (stack : Stack σ) : Registry σ where
  components := stack.components
  findByName := NodeProbe.findByName stack.components
  findByClass := NodeProbe.findByClass stack.components

def size (stack : Stack σ) : Nat := stack.components.length

def isEmpty (stack : Stack σ) : Bool := stack.components.isEmpty

def inspect (stack : Stack σ) : String := Text.quotedList (stack.components.map (·.name))

end Stack

end NodeProbe
