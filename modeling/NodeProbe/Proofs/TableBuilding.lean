import Mathlib.Data.List.Induction
import Mathlib.Data.List.TakeWhile
import NodeProbe.Proofs.Registration

/-!
# Building tables

A table is built step by step. What it holds in the end is said by the steps alone: every attribute
comes from the last registration of its name and has the last description that was given to that
registration, and the attributes stand in the order of these registrations. The parts of a surface
are kept in the same way.
-/
namespace NodeProbe

variable {σ α κ : Type}

/-! ## The last item of each key -/

/-- The item is the last one of its key, and `later` stands behind it. -/
def LastOf (key : α → κ) (xs : List α) (x : α) (later : List α) : Prop :=
  (∃ before, xs = before ++ x :: later) ∧ key x ∉ later.map key

/-- The last item of one key stands before the last item of another. -/
def LastBefore (key : α → κ) (xs : List α) (k k' : κ) : Prop :=
  ∃ x later y later', LastOf key xs x later ∧ LastOf key later y later' ∧ key x = k ∧ key y = k'

section

variable {key : α → κ} {xs : List α} {x y : α}

theorem LastOf.cons {later : List α} (h : LastOf key xs x later) (y : α) :
    LastOf key (y :: xs) x later := by
  obtain ⟨⟨before, rfl⟩, hlast⟩ := h
  exact ⟨⟨y :: before, rfl⟩, hlast⟩

theorem LastBefore.cons {k k' : κ} (h : LastBefore key xs k k') (y : α) :
    LastBefore key (y :: xs) k k' := by
  obtain ⟨x, later, y', later', hx, hy, hk, hk'⟩ := h
  exact ⟨x, later, y', later', hx.cons y, hy, hk, hk'⟩

variable [DecidableEq κ]

/-- The items behind which no other item of their key stands. -/
def lastOfEach (key : α → κ) : List α → List α
  | [] => []
  | x :: xs => if key x ∈ xs.map key then lastOfEach key xs else x :: lastOfEach key xs

theorem mem_lastOfEach : x ∈ lastOfEach key xs ↔ ∃ later, LastOf key xs x later := by
  induction xs with
  | nil =>
    constructor
    · intro h
      cases h
    · rintro ⟨later, ⟨before, hparts⟩, -⟩
      simp at hparts
  | cons y xs ih =>
    have hcases : (∃ later, LastOf key (y :: xs) x later) ↔
        (x = y ∧ key y ∉ xs.map key) ∨ ∃ later, LastOf key xs x later := by
      constructor
      · rintro ⟨later, ⟨before, hparts⟩, hlast⟩
        cases before with
        | nil =>
          cases hparts
          exact .inl ⟨rfl, hlast⟩
        | cons first before =>
          cases hparts
          exact .inr ⟨later, ⟨before, rfl⟩, hlast⟩
      · rintro (⟨rfl, hlast⟩ | ⟨later, h⟩)
        · exact ⟨xs, ⟨[], rfl⟩, hlast⟩
        · exact ⟨later, h.cons y⟩
    rw [hcases, ← ih, lastOfEach]
    split
    · next hlater => simp [hlater]
    · next hlast => simp [hlast]

/-- An item that is added takes the place of the one of its key. -/
theorem lastOfEach_concat (xs : List α) (x : α) :
    lastOfEach key (xs ++ [x]) = (lastOfEach key xs).filter (key · ≠ key x) ++ [x] := by
  induction xs with
  | nil => rfl
  | cons y xs ih =>
    rw [List.cons_append, lastOfEach, lastOfEach, ih, List.map_append, List.map_singleton]
    by_cases hlater : key y ∈ xs.map key
    · rw [if_pos hlater, if_pos (List.mem_append_left _ hlater)]
    · rw [if_neg hlater]
      by_cases hsame : key y = key x
      · have hadded : key y ∈ xs.map key ++ [key x] := by simp [hsame]
        rw [if_pos hadded, List.filter_cons_of_neg (by simpa using hsame)]
      · have hother : key y ∉ xs.map key ++ [key x] := by simpa [hsame] using hlater
        rw [if_neg hother, List.filter_cons_of_pos (by simpa using hsame), List.cons_append]

/-- The items that are kept stand in the order of their last occurrences. -/
theorem lastOfEach_pairwise (xs : List α) :
    (lastOfEach key xs).Pairwise fun x y => LastBefore key xs (key x) (key y) := by
  induction xs with
  | nil => exact .nil
  | cons x xs ih =>
    have hrest := ih.imp fun h => h.cons x
    unfold lastOfEach
    split
    · exact hrest
    · next hlast =>
      refine .cons (fun y hy => ?_) hrest
      obtain ⟨later, hlater⟩ := mem_lastOfEach.mp hy
      exact ⟨x, xs, y, later, ⟨⟨[], rfl⟩, hlast⟩, hlater, rfl, rfl⟩

theorem mem_keys_lastOfEach {k : κ} : k ∈ (lastOfEach key xs).map key ↔ k ∈ xs.map key := by
  induction xs with
  | nil => exact Iff.rfl
  | cons x xs ih =>
    unfold lastOfEach
    split
    · next hlater =>
      rw [ih, List.map_cons, List.mem_cons]
      constructor
      · exact .inr
      · rintro (rfl | hmem)
        · exact hlater
        · exact hmem
    · rw [List.map_cons, List.map_cons, List.mem_cons, List.mem_cons, ih]

end

theorem lastOfEach_nodup (key : α → String) (xs : List α) :
    ((lastOfEach key xs).map key).Nodup := by
  induction xs using List.reverseRecOn with
  | nil => exact List.nodup_nil
  | append_singleton xs x ih =>
    rw [lastOfEach_concat]
    exact nodup_replaced key ih x

/-! ## Steps -/

inductive TableStep (σ : Type) where
  | field (name : String) (type : ValueType) (get : σ → Option Value) (set : Value → Action σ Unit)
  | readOnly (name : String) (type : ValueType) (get : σ → Option Value)
  | accessor (name : String) (type : ValueType) (get : σ → Option Value)
    (set : Value → Action σ Unit)
  | describe (text : String)
  | operation (o : Operation σ)

namespace TableStep

def perform (t : Table σ) : TableStep σ → Table σ
  | field name type get set => t.field name type get set
  | readOnly name type get => t.readOnly name type get
  | accessor name type get set => t.accessor name type get set
  | describe text => t.describe text
  | operation o => t.operation o

def attribute? : TableStep σ → Option (Attribute σ)
  | field name type get set => some { name, type, backing := .field, get, set? := some set }
  | readOnly name type get => some { name, type, backing := .field, get, set? := none }
  | accessor name type get set => some { name, type, backing := .accessor, get, set? := some set }
  | describe _ | operation _ => none

def name? (step : TableStep σ) : Option String := step.attribute?.map (·.name)

def text? : TableStep σ → Option String
  | describe text => some text
  | _ => none

def operation? : TableStep σ → Option (Operation σ)
  | operation o => some o
  | _ => none

/-- The last description among the steps before the next registration. -/
def description? (later : List (TableStep σ)) : Option String :=
  ((later.takeWhile (·.attribute?.isNone)).filterMap text?).getLast?

/-- Every registration with the description that it was given. -/
def registrations : List (TableStep σ) → List (Attribute σ)
  | [] => []
  | step :: later => match step.attribute? with
    | some a => { a with description := description? later } :: registrations later
    | none => registrations later

variable {steps later : List (TableStep σ)} {step : TableStep σ} {a : Attribute σ}

theorem registrations_of_some (h : step.attribute? = some a) :
    registrations (step :: later) =
      { a with description := description? later } :: registrations later := by
  rw [registrations, h]

theorem registrations_of_none (h : step.attribute? = none) :
    registrations (step :: later) = registrations later := by
  rw [registrations, h]

theorem registrations_names (steps : List (TableStep σ)) :
    (registrations steps).map (·.name) = steps.filterMap name? := by
  induction steps with
  | nil => rfl
  | cons step later ih =>
    cases h : step.attribute? with
    | none =>
      have hname : step.name? = none := by rw [name?, h, Option.map_none]
      rw [registrations_of_none h, List.filterMap_cons_none hname, ih]
    | some a =>
      have hname : step.name? = some a.name := by rw [name?, h, Option.map_some]
      rw [registrations_of_some h, List.filterMap_cons_some hname, List.map_cons, ih]

theorem registrations_eq_nil :
    registrations steps = [] ↔ ∀ step ∈ steps, step.attribute?.isNone = true := by
  rw [← List.map_eq_nil_iff (f := (·.name)), registrations_names, List.filterMap_eq_nil_iff]
  simp [name?]

/-- A step that describes nothing leaves the descriptions before it as they are. -/
theorem description?_concat (h : step.text? = none) :
    description? (later ++ [step]) = description? later := by
  unfold description?
  rw [List.takeWhile_append]
  split
  · next hall =>
    have htext : ([step].takeWhile (·.attribute?.isNone)).filterMap text? = [] := by
      rw [List.filterMap_eq_nil_iff]
      intro step' hstep'
      rw [List.mem_singleton.mp (List.takeWhile_subset _ hstep')]
      exact h
    have hwhole := (List.takeWhile_prefix _).eq_of_length hall
    rw [hwhole, List.filterMap_append, htext, List.append_nil]
  · rfl

/-- No step behind a later registration changes the description of an earlier one. -/
theorem description?_append (h : registrations later ≠ []) (behind : List (TableStep σ)) :
    description? (later ++ behind) = description? later := by
  unfold description?
  rw [List.takeWhile_append, if_neg]
  intro hall
  have hwhole := (List.takeWhile_prefix _).eq_of_length hall
  exact h (registrations_eq_nil.mpr (List.takeWhile_eq_self_iff.mp hwhole))

theorem description?_describe (h : registrations later = []) (text : String) :
    description? (later ++ [.describe text]) = some text := by
  have hwhole : (later ++ [describe text]).takeWhile (·.attribute?.isNone) =
      later ++ [describe text] := by
    rw [List.takeWhile_append_of_pos (registrations_eq_nil.mp h)]
    rfl
  unfold description?
  rw [hwhole, List.filterMap_append]
  exact List.getLast?_concat

theorem registrations_concat (h : step.text? = none) :
    registrations (steps ++ [step]) = registrations steps ++ registrations [step] := by
  induction steps with
  | nil => rfl
  | cons first later ih =>
    rw [List.cons_append]
    cases hfirst : first.attribute? with
    | none => rw [registrations_of_none hfirst, registrations_of_none hfirst, ih]
    | some a =>
      rw [registrations_of_some hfirst, registrations_of_some hfirst, description?_concat h, ih]
      rfl

theorem registrations_describe_nil (h : registrations steps = []) (text : String) :
    registrations (steps ++ [.describe text]) = [] := by
  rw [registrations_eq_nil] at h ⊢
  intro step hstep
  rcases List.mem_append.mp hstep with hold | hnew
  · exact h step hold
  · rw [List.mem_singleton.mp hnew]
    rfl

/-- A description goes to the last registration. -/
theorem registrations_describe {front : List (Attribute σ)} {last : Attribute σ}
    (h : registrations steps = front ++ [last]) (text : String) :
    registrations (steps ++ [.describe text]) =
      front ++ [{ last with description := some text }] := by
  induction steps generalizing front with
  | nil => simp [registrations] at h
  | cons first later ih =>
    rw [List.cons_append]
    cases hfirst : first.attribute? with
    | none =>
      rw [registrations_of_none hfirst] at h ⊢
      exact ih h
    | some a =>
      rw [registrations_of_some hfirst] at h ⊢
      cases front with
      | nil =>
        obtain ⟨rfl, hlater⟩ := List.cons.inj h
        rw [description?_describe hlater, registrations_describe_nil hlater]
        rfl
      | cons head front =>
        obtain ⟨rfl, hlater⟩ := List.cons.inj h
        have hsome : registrations later ≠ [] := by simp [hlater]
        rw [description?_append hsome, ih hlater]
        rfl

theorem registrations_singleton (h : step.attribute? = some a) : registrations [step] = [a] := by
  cases step with
  | describe text => cases h
  | operation o => cases h
  | _ =>
    cases h
    rfl

/-! ## What a step does -/

theorem perform_of_some (h : step.attribute? = some a) (t : Table σ) :
    step.perform t = t.register a := by
  cases step with
  | describe text => cases h
  | operation o => cases h
  | _ =>
    cases h
    rfl

theorem perform_operations (t : Table σ) (step : TableStep σ) :
    (step.perform t).operations = t.operations ++ step.operation?.toList := by
  cases step with
  | describe text =>
    have hsame : (t.describe text).operations = t.operations := by
      unfold Table.describe
      split <;> rfl
    exact hsame.trans (List.append_nil _).symm
  | operation o => rfl
  | _ => exact (List.append_nil _).symm

end TableStep

/-! ## Tables -/

namespace Table

open TableStep

theorem describe_nil {t : Table σ} (h : t.attributes = []) (text : String) :
    (t.describe text).attributes = [] := by
  simp [describe, h]

theorem describe_concat {t : Table σ} {front : List (Attribute σ)} {last : Attribute σ}
    (h : t.attributes = front ++ [last]) (text : String) :
    (t.describe text).attributes = front ++ [{ last with description := some text }] := by
  simp [describe, h]

def build (steps : List (TableStep σ)) : Table σ := steps.foldl TableStep.perform {}

theorem build_concat (steps : List (TableStep σ)) (step : TableStep σ) :
    build (steps ++ [step]) = step.perform (build steps) := by
  unfold build
  rw [List.foldl_append]
  rfl

theorem build_operations (steps : List (TableStep σ)) :
    (build steps).operations = steps.filterMap TableStep.operation? := by
  induction steps using List.reverseRecOn with
  | nil => rfl
  | append_singleton steps step ih =>
    rw [build_concat, perform_operations, ih, List.filterMap_append]
    cases hstep : step.operation? <;> simp [hstep]

/-- The table holds the last registration of each name, in order, with its description. -/
theorem build_attributes (steps : List (TableStep σ)) :
    (build steps).attributes = lastOfEach (·.name) (registrations steps) := by
  induction steps using List.reverseRecOn with
  | nil => rfl
  | append_singleton steps step ih =>
    rw [build_concat]
    cases hstep : step.attribute? with
    | some a =>
      have htext : step.text? = none := by
        cases step with
        | describe text => cases hstep
        | _ => rfl
      rw [perform_of_some hstep, registrations_concat htext, registrations_singleton hstep,
        lastOfEach_concat, ← ih]
      rfl
    | none =>
      cases step with
      | operation o =>
        rw [registrations_concat rfl, registrations_of_none hstep]
        exact ih.trans (by rw [registrations, List.append_nil])
      | describe text =>
        rcases List.eq_nil_or_concat' (registrations steps) with hnil | ⟨front, last, hlast⟩
        · rw [hnil] at ih
          rw [registrations_describe_nil hnil]
          exact describe_nil ih text
        · rw [hlast, lastOfEach_concat] at ih
          rw [registrations_describe hlast, lastOfEach_concat]
          exact describe_concat ih text
      | _ => cases hstep

end Table

/-! ## From registrations to steps -/

namespace TableStep

variable {steps : List (TableStep σ)}

/-- A registration takes the last description before the next one. -/
theorem registrations_split {before later : List (TableStep σ)} {step : TableStep σ}
    {a : Attribute σ} (h : step.attribute? = some a) :
    ∃ front, registrations (before ++ step :: later) =
      front ++ { a with description := description? later } :: registrations later := by
  induction before with
  | nil => exact ⟨[], registrations_of_some h⟩
  | cons first before ih =>
    obtain ⟨front, hfront⟩ := ih
    rw [List.cons_append]
    cases hfirst : first.attribute? with
    | none => exact ⟨front, by rw [registrations_of_none hfirst, hfront]⟩
    | some b => exact ⟨_ :: front, by rw [registrations_of_some hfirst, hfront, List.cons_append]⟩

theorem exists_step_of_registrations {front rest : List (Attribute σ)} {r : Attribute σ}
    (h : registrations steps = front ++ r :: rest) :
    ∃ before step later a, steps = before ++ step :: later ∧ step.attribute? = some a ∧
      r = { a with description := description? later } ∧ rest = registrations later := by
  induction steps generalizing front with
  | nil => simp [registrations] at h
  | cons first steps ih =>
    cases hfirst : first.attribute? with
    | none =>
      rw [registrations_of_none hfirst] at h
      obtain ⟨before, step, later, a, rfl, hstep⟩ := ih h
      exact ⟨first :: before, step, later, a, rfl, hstep⟩
    | some a =>
      rw [registrations_of_some hfirst] at h
      cases front with
      | nil =>
        obtain ⟨rfl, rfl⟩ := List.cons.inj h
        exact ⟨[], first, steps, a, rfl, hfirst, rfl, rfl⟩
      | cons head front =>
        obtain ⟨-, hsteps⟩ := List.cons.inj h
        obtain ⟨before, step, later, a', rfl, hstep⟩ := ih hsteps
        exact ⟨first :: before, step, later, a', rfl, hstep⟩

theorem some_mem_names {name : String} :
    some name ∈ steps.map name? ↔ name ∈ (registrations steps).map (·.name) := by
  rw [registrations_names, List.mem_map, List.mem_filterMap]

/-- The last registration of a name is its last step. -/
theorem lastOf_registrations {r : Attribute σ} {rest : List (Attribute σ)} :
    LastOf (·.name) (registrations steps) r rest ↔ ∃ step later a, LastOf name? steps step later ∧
      step.attribute? = some a ∧ r = { a with description := description? later } ∧
      rest = registrations later := by
  constructor
  · rintro ⟨⟨front, hfront⟩, hlast⟩
    obtain ⟨before, step, later, a, rfl, hstep, rfl, rfl⟩ := exists_step_of_registrations hfront
    refine ⟨step, later, a, ⟨⟨before, rfl⟩, ?_⟩, hstep, rfl, rfl⟩
    rw [name?, hstep, Option.map_some, some_mem_names]
    exact hlast
  · rintro ⟨step, later, a, ⟨⟨before, rfl⟩, hlast⟩, hstep, rfl, rfl⟩
    refine ⟨registrations_split hstep, ?_⟩
    rw [name?, hstep, Option.map_some, some_mem_names] at hlast
    exact hlast

theorem lastBefore_registrations {name name' : String}
    (h : LastBefore (·.name) (registrations steps) name name') :
    LastBefore name? steps (some name) (some name') := by
  obtain ⟨r, rest, r', rest', hr, hr', rfl, rfl⟩ := h
  obtain ⟨step, later, a, hlast, hstep, rfl, rfl⟩ := lastOf_registrations.mp hr
  obtain ⟨step', later', a', hlast', hstep', rfl, rfl⟩ := lastOf_registrations.mp hr'
  refine ⟨step, later, step', later', hlast, hlast', ?_, ?_⟩
  · rw [name?, hstep, Option.map_some]
  · rw [name?, hstep', Option.map_some]

end TableStep

/-! ## What is found -/

namespace Table

open TableStep

variable {steps : List (TableStep σ)}

theorem build_distinct (steps : List (TableStep σ)) : (build steps).Distinct := by
  unfold Distinct
  rw [build_attributes]
  exact lastOfEach_nodup _ _

theorem mem_build_names {name : String} :
    name ∈ (build steps).attributes.map (·.name) ↔ ∃ step ∈ steps, step.name? = some name := by
  rw [build_attributes, mem_keys_lastOfEach, ← some_mem_names, List.mem_map]

/-- An attribute of the table comes from the last registration of its name. -/
theorem build_attribute? {name : String} {a : Attribute σ} :
    (build steps).attribute? name = some a ↔ ∃ step later new, LastOf name? steps step later ∧
      step.attribute? = some new ∧ new.name = name ∧
      a = { new with description := description? later } := by
  unfold Table.attribute?
  rw [find?_eq_some_of_nodup (build_distinct steps), build_attributes, mem_lastOfEach]
  simp only [lastOf_registrations]
  constructor
  · rintro ⟨⟨_, step, later, new, hlast, hstep, rfl, -⟩, hname⟩
    exact ⟨step, later, new, hlast, hstep, hname, rfl⟩
  · rintro ⟨step, later, new, hlast, hstep, hname, rfl⟩
    exact ⟨⟨_, step, later, new, hlast, hstep, rfl, rfl⟩, hname⟩

theorem build_order (steps : List (TableStep σ)) :
    (build steps).attributes.Pairwise fun a b =>
      LastBefore name? steps (some a.name) (some b.name) := by
  rw [build_attributes]
  exact (lastOfEach_pairwise _).imp lastBefore_registrations

end Table

namespace Surface

/-- The surface of a table and of the parts that are added to it one by one. -/
def withParts (own : Table σ) (parts : List (Part σ)) : Surface σ :=
  parts.foldl (fun surface p => surface.withPart p.name p.table) { own }

theorem withParts_eq (own : Table σ) (parts : List (Part σ)) :
    withParts own parts = { own, parts := lastOfEach (·.name) parts } := by
  induction parts using List.reverseRecOn with
  | nil => rfl
  | append_singleton parts p ih =>
    have hstep : withParts own (parts ++ [p]) = (withParts own parts).withPart p.name p.table := by
      unfold withParts
      rw [List.foldl_append]
      rfl
    rw [hstep, ih, lastOfEach_concat]
    rfl

theorem withParts_part? {own : Table σ} {parts : List (Part σ)} {name : String} {p : Part σ} :
    (withParts own parts).part? name = some p ↔
      ∃ later, LastOf (·.name) parts p later ∧ p.name = name := by
  unfold part?
  rw [withParts_eq, find?_eq_some_of_nodup (lastOfEach_nodup _ _), mem_lastOfEach,
    exists_and_right]

end Surface

/-- A table that is built step by step knows every name once that was ever registered. A name leads
to the attribute of its last registration, with the last description given before the next
registration of any name, and the attributes stand in the order of these registrations. All
operations are kept, in order. A surface knows every name of its parts once, leads to the part that
was added last under it, and has its parts in the order in which these were added. -/
theorem last_registrations_are_kept :
    (∀ steps : List (TableStep σ),
      let table := Table.build steps
      (table.attributes.map (·.name)).Nodup ∧
      (∀ name, name ∈ table.attributes.map (·.name) ↔ ∃ step ∈ steps, step.name? = some name) ∧
      (∀ name a, table.attribute? name = some a ↔ ∃ step later new,
        LastOf TableStep.name? steps step later ∧ step.attribute? = some new ∧ new.name = name ∧
        a = { new with description := TableStep.description? later }) ∧
      (table.attributes.Pairwise fun a b =>
        LastBefore TableStep.name? steps (some a.name) (some b.name)) ∧
      table.operations = steps.filterMap (·.operation?)) ∧
    ∀ (own : Table σ) (parts : List (Part σ)),
      let surface := Surface.withParts own parts
      surface.own = own ∧
      (surface.parts.map (·.name)).Nodup ∧
      (∀ name, name ∈ surface.parts.map (·.name) ↔ name ∈ parts.map (·.name)) ∧
      (∀ name p, surface.part? name = some p ↔
        ∃ later, LastOf (·.name) parts p later ∧ p.name = name) ∧
      surface.parts.Pairwise fun p q => LastBefore (·.name) parts p.name q.name := by
  refine ⟨fun steps => ?_, fun own parts => ?_⟩
  · exact ⟨Table.build_distinct steps, fun _ => Table.mem_build_names,
      fun _ _ => Table.build_attribute?, Table.build_order steps, Table.build_operations steps⟩
  · intro surface
    have hsurface : surface = { own, parts := lastOfEach (·.name) parts } :=
      Surface.withParts_eq own parts
    refine ⟨?_, ?_, ?_, fun _ _ => Surface.withParts_part?, ?_⟩
    · rw [hsurface]
    · rw [hsurface]
      exact lastOfEach_nodup _ _
    · intro name
      rw [hsurface]
      exact mem_keys_lastOfEach
    · rw [hsurface]
      exact lastOfEach_pairwise _

/-- The second registration of `a` goes to the end without a description; the description behind it
is its own, and the one before it was that of `b`. -/
example :
    let steps : List (TableStep Unit) := [.describe "none", .readOnly "a" .u8 fun _ => none,
      .describe "first", .readOnly "b" .u8 fun _ => none, .describe "b",
      .readOnly "a" .i8 fun _ => none, .describe "old", .describe "new"]
    (Table.build steps).attributes.map (fun a => (a.name, a.type, a.description)) =
      [("b", .u8, some "b"), ("a", .i8, some "new")] := by decide

end NodeProbe
