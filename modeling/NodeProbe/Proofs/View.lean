import NodeProbe.Proofs.Simulation
import NodeProbe.Request.Dispatch

/-!
# Carried components act on a view

When every carried body acts on a view of the new state as the body did on the old
state, the carried component agrees with the component on the view. A lawful place shows
what it holds.
-/
namespace NodeProbe

variable {σ τ α : Type}

/-- Carried bodies act on the view as the bodies do, and getters read it. -/
structure Carrier.Shows (k : Carrier σ τ) (view : τ → σ) : Prop where
  get : ∀ a m, (k.ofAttribute a).get m = a.get (view m)
  store : ∀ a v m, Prod.map id view ((k.ofAttribute a).store v m) = a.store v (view m)
  run : ∀ o args m, Prod.map id view ((k.ofOperation o).run args m) = o.run args (view m)

/-- What is put into a place can be read there, and putting back what is there changes nothing. -/
structure Lens.Lawful (place : Lens τ σ) : Prop where
  get_put : ∀ s m, place.get (place.put s m) = s
  put_get : ∀ m, place.put (place.get m) m = m

namespace Memory

theorem statisticsPlace_lawful : (statisticsPlace : Lens (Memory σ) Statistics).Lawful :=
  ⟨fun _ _ => rfl, fun _ => rfl⟩

theorem storePlace_lawful : (storePlace : Lens (Memory σ) σ).Lawful :=
  ⟨fun _ _ => rfl, fun _ => rfl⟩

end Memory

theorem Attribute.store_focus {place : Lens τ σ} (hplace : place.Lawful) (a : Attribute σ)
    (v : Value) : (a.focus place).store v = Action.focus place (a.store v) := by
  unfold store focus
  cases a.set? with
  | some set => rfl
  | none =>
    funext m
    exact congrArg _ (hplace.put_get m).symm

theorem Lens.Lawful.shows {place : Lens τ σ} (hplace : place.Lawful) :
    place.carrier.Shows place.get where
  get _ _ := rfl
  store a v m := by
    change Prod.map id place.get ((a.focus place).store v m) = _
    rw [Attribute.store_focus hplace]
    exact congrArg (Prod.mk _) (hplace.get_put _ m)
  run o args m := congrArg (Prod.mk _) (hplace.get_put _ m)

theorem Deed.perform_focus {place : Lens τ σ} (hplace : place.Lawful) (c : Component σ)
    (d : Deed σ) :
    (d.carry place.carrier).perform (c.focus place) = (d.perform c).focus place := by
  cases d with
  | store a v => exact congrArg (Action.map fun _ => none) (Attribute.store_focus hplace a v)
  | run o args => rfl
  | reset => rfl

/-- The result of a deed does not depend on the place being lawful. -/
theorem Deed.perform_focus_fst (place : Lens τ σ) (c : Component σ) (d : Deed σ) (m : τ) :
    ((d.carry place.carrier).perform (c.focus place) m).1 = (d.perform c (place.get m)).1 := by
  cases d with
  | store a v =>
    change (((a.focus place).store v m).1.map fun _ => none) =
      ((a.store v (place.get m)).1.map fun _ => none)
    unfold Attribute.store Attribute.focus
    cases a.set? with
    | none => rfl
    | some set => rfl
  | run o args => rfl
  | reset => rfl

/-- A component that changes nothing when it fails does so on every lawful place. -/
theorem Component.Atomic.focus {place : Lens τ σ} (hplace : place.Lawful) {c : Component σ}
    (hc : c.Atomic) : (c.focus place).Atomic := by
  intro d' hon m e he
  obtain ⟨d, hd, rfl⟩ := Deed.on_focus hon
  rw [Deed.perform_focus hplace] at he ⊢
  have hsame : (d.perform c (place.get m)).2 = place.get m := hc d hd (place.get m) e he
  change place.put (d.perform c (place.get m)).2 m = m
  rw [hsame, hplace.put_get]

/-- Where carried bodies act on a view, every state is related to its view. -/
theorem Carrier.Shows.simulates {k : Carrier σ τ} {view : τ → σ} (hk : k.Shows view)
    (c : Component σ) : k.Simulates (fun s m => view m = s) c where
  get a _ s m h := by rw [hk.get, h]
  store a _ v s m h := by
    rw [← h, ← hk.store]
    exact ⟨rfl, rfl⟩
  run o _ args s m h := by
    rw [← h, ← hk.run]
    exact ⟨rfl, rfl⟩

end NodeProbe
