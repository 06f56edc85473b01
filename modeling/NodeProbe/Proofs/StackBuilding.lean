import NodeProbe.Component.Stack
import NodeProbe.Proofs.Registration

/-!
# Building stacks

A stack is built at once, with a record of the names seen, or component by component, with a look
at the stack so far. Either way the outcome is the one that the names call for: the stack of just
these components, or the refusal of the first one whose name is taken.
-/
namespace NodeProbe.Stack

variable {σ : Type}

/-- What adding components to others has to give: the stack of all of them, or the failure that
names the first one whose name stands before it. -/
inductive Outcome (present added : List (Component σ)) : Except Failure (Stack σ) → Prop
  | built {stack : Stack σ} (h : stack.components = present ++ added) :
    Outcome present added (.ok stack)
  | refused {before behind : List (Component σ)} {c : Component σ}
    (h : added = before ++ c :: behind)
    (hfresh : ((present ++ before).map (·.name)).Nodup)
    (htaken : c.name ∈ (present ++ before).map (·.name)) :
    Outcome present added (.error (.duplicateComponent c.name))

theorem eq_of_components {stack stack' : Stack σ} (h : stack.components = stack'.components) :
    stack = stack' := by
  cases stack
  cases stack'
  cases h
  rfl

/-- A component that is refused keeps the components from being a stack. -/
theorem not_nodup_of_taken {present before behind : List (Component σ)} {c : Component σ}
    (htaken : c.name ∈ (present ++ before).map (·.name)) :
    ¬ ((present ++ (before ++ c :: behind)).map (·.name)).Nodup := by
  intro hnodup
  rw [← List.append_assoc, List.map_append, List.nodup_append] at hnodup
  exact hnodup.2.2 c.name htaken c.name (List.mem_map_of_mem List.mem_cons_self) rfl

/-- The names leave no choice. -/
theorem Outcome.unique {present added : List (Component σ)} {x y : Except Failure (Stack σ)}
    (hx : Outcome present added x) (hy : Outcome present added y) : x = y := by
  cases hx with
  | @built stack hstack =>
    cases hy with
    | built hstack' => rw [eq_of_components (hstack.trans hstack'.symm)]
    | refused hadded _ htaken =>
      have hunique := stack.unique
      rw [hstack, hadded] at hunique
      exact absurd hunique (not_nodup_of_taken htaken)
  | @refused before behind c hadded hfresh htaken =>
    cases hy with
    | @built stack hstack =>
      have hunique := stack.unique
      rw [hstack, hadded] at hunique
      exact absurd hunique (not_nodup_of_taken htaken)
    | @refused before' behind' c' hadded' hfresh' htaken' =>
      -- neither of the two can stand before the other, where all names are fresh
      rw [hadded, List.append_eq_append_iff] at hadded'
      rcases hadded' with ⟨gap, rfl, hgap⟩ | ⟨gap, rfl, hgap⟩
      · cases gap with
        | nil =>
          cases hgap
          rfl
        | cons first gap =>
          cases hgap
          exact absurd hfresh' (not_nodup_of_taken htaken)
      · cases gap with
        | nil =>
          cases hgap
          rfl
        | cons first gap =>
          cases hgap
          exact absurd hfresh (not_nodup_of_taken htaken')

/-! ## The two ways -/

section

variable {present added : List (Component σ)} {c : Component σ}

theorem Outcome.head (hpresent : (present.map (·.name)).Nodup)
    (htaken : c.name ∈ present.map (·.name)) :
    Outcome present (c :: added) (.error (.duplicateComponent c.name)) := by
  refine .refused (List.nil_append _).symm ?_ ?_
  · rwa [List.append_nil]
  · rwa [List.append_nil]

/-- A component that is accepted joins those that are present. -/
theorem Outcome.cons {x : Except Failure (Stack σ)} (h : Outcome (present ++ [c]) added x) :
    Outcome present (c :: added) x := by
  cases h with
  | built hstack => exact .built (hstack.trans (List.append_cons _ _ _).symm)
  | @refused before behind c' hadded hfresh htaken =>
    rw [← List.append_cons] at hfresh htaken
    exact .refused (congrArg (c :: ·) hadded) hfresh htaken

theorem nodup_names_concat (hpresent : (present.map (·.name)).Nodup)
    (hnew : c.name ∉ present.map (·.name)) : ((present ++ [c]).map (·.name)).Nodup := by
  rw [List.map_append, List.map_singleton, ← List.concat_eq_append]
  exact hpresent.concat hnew

/-- The names seen are those of the components before, in any order. -/
theorem outcome_of_firstTaken? {seen : List String} {name : String}
    (hpresent : (present.map (·.name)).Nodup)
    (hseen : ∀ n, n ∈ seen ↔ n ∈ present.map (·.name))
    (h : firstTaken? seen (added.map (·.name)) = some name) :
    Outcome present added (.error (.duplicateComponent name)) := by
  induction added generalizing present seen with
  | nil => cases h
  | cons c added ih =>
    rw [List.map_cons, firstTaken?] at h
    split at h
    · next htaken =>
      cases h
      exact .head hpresent ((hseen _).mp htaken)
    · next hnew =>
      refine .cons (ih (nodup_names_concat hpresent fun hmem => hnew ((hseen _).mpr hmem)) ?_ h)
      intro n
      simp [hseen, or_comm]

end

theorem outcome_ofList (components : List (Component σ)) :
    Outcome [] components (ofList components) := by
  unfold ofList
  split
  · next name htaken =>
    refine outcome_of_firstTaken? List.nodup_nil ?_ htaken
    intro n
    exact Iff.rfl
  · exact .built rfl

/-- Adding one by one stops at the first name that stands in the stack by then. -/
theorem outcome_pushAll (stack : Stack σ) (components : List (Component σ)) :
    Outcome stack.components components (stack.pushAll components) := by
  induction components generalizing stack with
  | nil => exact .built (List.append_nil _).symm
  | cons c components ih =>
    unfold pushAll
    rw [List.foldlM_cons]
    by_cases htaken : c.name ∈ stack.components.map (·.name)
    · have hpush : stack.push c = .error (.duplicateComponent c.name) := dif_pos htaken
      rw [hpush]
      exact .head stack.unique htaken
    · have hpush : ∃ stack', stack.push c = .ok stack' ∧
          stack'.components = stack.components ++ [c] := ⟨_, dif_neg htaken, rfl⟩
      obtain ⟨stack', hpush, hcomponents⟩ := hpush
      rw [hpush]
      have hrest := ih stack'
      rw [hcomponents] at hrest
      exact .cons hrest

theorem ofList_eq_pushAll (components : List (Component σ)) :
    ofList components = empty.pushAll components :=
  (outcome_ofList components).unique (outcome_pushAll empty components)

theorem ofList_eq_ok {components : List (Component σ)} {stack : Stack σ} :
    ofList components = .ok stack ↔ stack.components = components := by
  constructor
  · intro h
    have houtcome := outcome_ofList components
    rw [h] at houtcome
    cases houtcome with
    | built hstack => exact hstack
  · intro h
    exact (outcome_ofList components).unique (.built h)

/-- The error names the first component whose name stood before it. -/
theorem ofList_eq_error {components : List (Component σ)} {e : Failure} :
    ofList components = .error e ↔ ∃ before c behind, components = before ++ c :: behind ∧
      (before.map (·.name)).Nodup ∧ c.name ∈ before.map (·.name) ∧
      e = .duplicateComponent c.name := by
  constructor
  · intro h
    have houtcome := outcome_ofList components
    rw [h] at houtcome
    cases houtcome with
    | refused hcomponents hfresh htaken => exact ⟨_, _, _, hcomponents, hfresh, htaken, rfl⟩
  · rintro ⟨before, c, behind, hcomponents, hfresh, htaken, rfl⟩
    exact (outcome_ofList components).unique (.refused hcomponents hfresh htaken)

/-! ## Lookups -/

theorem findByName_eq_some {stack : Stack σ} {name : String} {c : Component σ} :
    stack.registry.findByName name = some c ↔ c ∈ stack.components ∧ c.name = name :=
  find?_eq_some_of_nodup stack.unique

theorem findByClass_eq_some {stack : Stack σ} {className : String} {c : Component σ} :
    stack.registry.findByClass className = some c ↔ ∃ before behind,
      stack.components = before ++ c :: behind ∧ c.className = className ∧
      ∀ other ∈ before, other.className ≠ className := by
  change stack.components.find? (·.className == className) = some c ↔ _
  rw [List.find?_eq_some_iff_append]
  simp only [beq_iff_eq, Bool.not_eq_true', beq_eq_false_iff_ne]
  constructor
  · rintro ⟨hclass, before, behind, hparts, hother⟩
    exact ⟨before, behind, hparts, hclass, hother⟩
  · rintro ⟨before, behind, hparts, hclass, hother⟩
    exact ⟨hclass, before, behind, hparts, hother⟩

/-- Both ways to build a stack have the same outcome for every list of components. They give the
stack of just these components, in order, when the names are distinct, and there is no other case
in which they give a stack. Else they name the first component whose name stands before it. In a
stack every name leads to its one component and every class to its first, and the lookups of the
stack are those of a registry that has none of its own. -/
theorem built_alike_with_distinct_names (components : List (Component σ)) :
    ofList components = empty.pushAll components ∧
    (∀ stack, ofList components = .ok stack ↔ stack.components = components) ∧
    ((∃ stack, ofList components = .ok stack) ↔ (components.map (·.name)).Nodup) ∧
    (∀ e, ofList components = .error e ↔ ∃ before c behind,
      components = before ++ c :: behind ∧ (before.map (·.name)).Nodup ∧
      c.name ∈ before.map (·.name) ∧ e = .duplicateComponent c.name) ∧
    ∀ stack : Stack σ,
      (∀ name c, stack.registry.findByName name = some c ↔
        c ∈ stack.components ∧ c.name = name) ∧
      (∀ className c, stack.registry.findByClass className = some c ↔ ∃ before behind,
        stack.components = before ++ c :: behind ∧ c.className = className ∧
        ∀ other ∈ before, other.className ≠ className) ∧
      let plain : Registry σ := { components := stack.components }
      ∀ text, stack.registry.findByName text = plain.findByName text ∧
        stack.registry.findByClass text = plain.findByClass text := by
  refine ⟨ofList_eq_pushAll components, fun stack => ofList_eq_ok, ?_, fun e => ofList_eq_error, ?_⟩
  · constructor
    · rintro ⟨stack, hstack⟩
      rw [← ofList_eq_ok.mp hstack]
      exact stack.unique
    · intro hunique
      exact ⟨⟨components, hunique⟩, ofList_eq_ok.mpr rfl⟩
  · intro stack
    exact ⟨fun name c => findByName_eq_some, fun className c => findByClass_eq_some,
      fun text => ⟨rfl, rfl⟩⟩

/-- The counter among other components of its class, and again at the end under its own name. -/
theorem second_counter_refused :
    let named (name : String) : Component Counter.State := { counter with name }
    let components := [named "a", counter, named "b", counter, named "a"]
    ofList components = .error (.duplicateComponent "COUNTER") ∧
    empty.pushAll components = .error (.duplicateComponent "COUNTER") := by
  intro named components
  obtain ⟨hsame, -, -, herror, -⟩ := built_alike_with_distinct_names components
  have hrefused : ofList components = .error (.duplicateComponent "COUNTER") := by
    refine (herror _).mpr ⟨[named "a", counter, named "b"], counter, [named "a"], rfl, ?_, ?_, rfl⟩
    · decide
    · decide
  exact ⟨hrefused, hsame.symm.trans hrefused⟩

end NodeProbe.Stack
