import NodeProbe.CommandLine
import NodeProbe.Proofs.Composition

/-!
# Components that share no state

Each component works at a place of its own in the memory. Places are apart when what is put
into one is not seen at the other, and both can be filled in either order. All that a
component does is to fill its place, so components at places that are apart cannot tell
whether the other has been at work.
-/
namespace NodeProbe

variable {μ σ τ : Type}

/-! ## Places -/

namespace Lens

/-- What is put into either place is not seen at the other, and the order does not matter. -/
structure Apart (place : Lens μ σ) (other : Lens μ τ) : Prop where
  get_put : ∀ t m, place.get (other.put t m) = place.get m
  get_put' : ∀ s m, other.get (place.put s m) = other.get m
  put_put : ∀ s t m, place.put s (other.put t m) = other.put t (place.put s m)

def putAll (place : Lens μ σ) (values : List σ) (m : μ) : μ :=
  values.foldl (fun m s => place.put s m) m

namespace Apart

variable {place : Lens μ σ} {other : Lens μ τ} (h : place.Apart other)
include h

theorem symm : other.Apart place := ⟨h.get_put', h.get_put, fun t s m => (h.put_put s t m).symm⟩

theorem get_putAll (values : List τ) (m : μ) : place.get (other.putAll values m) = place.get m := by
  unfold putAll
  induction values generalizing m with
  | nil => rfl
  | cons t values ih => rw [List.foldl_cons, ih, h.get_put]

theorem put_putAll (s : σ) (values : List τ) (m : μ) :
    place.put s (other.putAll values m) = other.putAll values (place.put s m) := by
  unfold putAll
  induction values generalizing m with
  | nil => rfl
  | cons t values ih => rw [List.foldl_cons, ih, List.foldl_cons, h.put_put]

theorem putAll_putAll (values : List σ) (values' : List τ) (m : μ) :
    place.putAll values (other.putAll values' m) = other.putAll values' (place.putAll values m) := by
  induction values generalizing m with
  | nil => rfl
  | cons s values ih =>
    change place.putAll values (place.put s (other.putAll values' m)) = _
    rw [h.put_putAll, ih]
    rfl

end Apart

end Lens

namespace Memory

theorem statisticsPlace_apart : (statisticsPlace : Lens (Memory σ) Statistics).Apart storePlace :=
  ⟨fun _ _ => rfl, fun _ _ => rfl, fun _ _ _ => rfl⟩

end Memory

/-! ## Components at places -/

/-- A deed on a component at a place leaves the memory or fills the place. -/
theorem Deed.perform_focus_snd (place : Lens μ σ) (c : Component σ) (d : Deed σ) (m : μ) :
    ((d.carry place.carrier).perform (c.focus place) m).2 = m ∨
      ∃ s, ((d.carry place.carrier).perform (c.focus place) m).2 = place.put s m := by
  cases d with
  | store a v =>
    change ((a.focus place).store v m).2 = m ∨ ∃ s, ((a.focus place).store v m).2 = place.put s m
    unfold Attribute.store Attribute.focus
    -- without a setter not even the old content is put back
    cases a.set? with
    | none => exact .inl rfl
    | some set => exact .inr ⟨_, rfl⟩
  | run o args => exact .inr ⟨_, rfl⟩
  | reset => exact .inr ⟨_, rfl⟩

/-- All that a component at a place does is to fill the place. -/
theorem Moves.focus {place : Lens μ σ} {c : Component σ} {m m' : μ}
    (h : Moves [c.focus place] m m') : ∃ values, m' = place.putAll values m := by
  refine h.preserves (P := fun m' => ∃ values, m' = place.putAll values m) ?_ ⟨[], rfl⟩
  rintro d hd m₁ m₂ ⟨deed, hon, -, rfl⟩ ⟨values, rfl⟩
  rw [List.mem_singleton.mp hd] at hon ⊢
  obtain ⟨deed, -, rfl⟩ := Deed.on_focus hon
  rcases Deed.perform_focus_snd place c deed (place.putAll values m) with hsame | ⟨s, hput⟩
  · exact ⟨values, hsame⟩
  · refine ⟨values ++ [s], hput.trans ?_⟩
    unfold Lens.putAll
    rw [List.foldl_append]
    rfl

/-- A component does the same whatever has been put into a place apart from its own. -/
theorem Component.focus_simulates {place : Lens μ σ} {other : Lens μ τ} (h : place.Apart other)
    (c : Component σ) (values : List τ) :
    (c.focus place).Simulates (fun m m' => m' = other.putAll values m) (c.focus place) := by
  -- an action sees what it saw before, and fills its place beneath what was put elsewhere
  have hact {α : Type} (act : Action σ α) (m : μ) :
      Agree (fun m m' => m' = other.putAll values m) (act.focus place m)
        (act.focus place (other.putAll values m)) := by
    unfold Action.focus
    rw [h.get_putAll]
    exact ⟨rfl, h.put_putAll _ _ _⟩
  refine Component.simulates_itself ⟨?_, ?_, ?_⟩ ?_
  · rintro a' ha' m _ rfl
    obtain ⟨a, -, rfl⟩ := of_mem_attributes_focus ha'
    exact congrArg a.get (h.get_putAll values m)
  · rintro a' ha' v m _ rfl
    obtain ⟨a, -, rfl⟩ := of_mem_attributes_focus ha'
    change Agree _ ((a.focus place).store v m) ((a.focus place).store v _)
    unfold Attribute.store Attribute.focus
    cases a.set? with
    | none => exact ⟨rfl, rfl⟩
    | some set => exact (hact (set v) m).map _
  · rintro o' ho' args m _ rfl
    obtain ⟨o, -, rfl⟩ := of_mem_operations_focus ho'
    exact hact (o.run args) m
  · rintro m _ rfl
    change place.put (c.reset (place.get (other.putAll values m))) (other.putAll values m) = _
    rw [h.get_putAll, h.put_putAll]
    rfl

/-- Two components that share no state: they work at places that are apart. -/
def Component.Apart (c d : Component μ) : Prop :=
  ∃ (σ τ : Type) (place : Lens μ σ) (other : Lens μ τ) (c' : Component σ) (d' : Component τ),
    place.Apart other ∧ c = c'.focus place ∧ d = d'.focus other

theorem Component.Apart.symm {c d : Component μ} (h : c.Apart d) : d.Apart c := by
  obtain ⟨σ, τ, place, other, c', d', hplaces, hc, hd⟩ := h
  exact ⟨τ, σ, other, place, d', c', hplaces.symm, hd, hc⟩

instance : Std.Symm (@Component.Apart μ) := ⟨fun _ _ => Component.Apart.symm⟩

/-! ## The program's node -/

/-- The diagnostics and the counter of the program share no state. -/
theorem CommandLine.node_apart (config : Config) (threads : ThreadSource) :
    (node config threads).components.Pairwise Component.Apart := by
  refine List.pairwise_pair.mpr ?_
  exact ⟨_, _, _, _, _, _, Memory.statisticsPlace_apart, rfl, rfl⟩

end NodeProbe
