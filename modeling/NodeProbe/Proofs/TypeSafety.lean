import NodeProbe.CommandLine
import NodeProbe.Proofs.CounterBodies
import NodeProbe.Proofs.Recording

/-!
# Bodies are given what they declare

A command converts text before it runs a body, on every way from the text to the body.
The counter reads its arguments in the form of their declared types, so its reads find
what they look for.
-/
namespace NodeProbe

namespace Counter

theorem stored_error {α : Type} {read : Except Failure α} {next : State → α → Except Failure State}
    {s : State} {e : Failure} (h : (stored read next s).1 = .error e) :
    read = .error e ∨ ∃ a, read = .ok a ∧ next s a = .error e := by
  rcases stored_cases read next s with ⟨e', hstored, hfails⟩ | ⟨a, s', hstored, -, -⟩
  · rw [hstored] at h
    cases h
    exact hfails
  · rw [hstored] at h
    cases h

theorem asInt64_typed {v : Value} (h : WellTyped .i64 v) : ∃ n, v.asInt64 = .ok n := by
  obtain ⟨n, rfl, -⟩ := h.signed rfl rfl
  exact ⟨n, rfl⟩

theorem asText_typed {v : Value} (h : WellTyped .string v) : ∃ s, v.asText = .ok s := by
  obtain ⟨s, rfl⟩ := h
  exact ⟨s, rfl⟩

/-- A well typed mode names one of the modes. -/
theorem ofText_typed {v : Value} (h : WellTyped Mode.type v) :
    ∃ name mode, v.asText = .ok name ∧ Mode.ofText name = .ok mode := by
  obtain ⟨name, hname, rfl⟩ := h
  simp only [List.mem_cons, List.not_mem_nil, or_false] at hname
  rcases hname with rfl | rfl
  · exact ⟨_, .saturating, rfl, rfl⟩
  · exact ⟨_, .wrapping, rfl, rfl⟩

/-- A body that is given what it declares only refuses a step of zero. -/
theorem typed_fails {d : Deed State} (hon : d.On counter) (htyped : d.Typed) {s : State}
    {e : Failure} (h : (d.perform counter s).1 = .error e) :
    (∃ a, d = .store a (.unsigned 0) ∧ a.name = "step") ∧
      e = .operation "step must be positive" := by
  have hbody := body_of_on hon
  generalize d.perform counter = act at hbody h
  cases hbody with
  | count hname htype =>
    obtain ⟨n, hn⟩ := asInt64_typed (htyped.value htype)
    rcases stored_error h with hread | ⟨a, -, hnext⟩
    · rw [hn] at hread; cases hread
    · cases hnext
  | @step a v hname htype =>
    obtain ⟨n, rfl, -⟩ := (htyped.value htype).unsigned rfl rfl
    rcases stored_error h with hread | ⟨step, hread, hnext⟩
    · cases hread
    · cases hread
      unfold State.setStep at hnext
      split at hnext
      · next hzero =>
        cases hnext
        exact ⟨⟨a, by rw [hzero], hname⟩, rfl⟩
      · cases hnext
  | mode hname htype =>
    obtain ⟨name, mode, hn, hmode⟩ := ofText_typed (htyped.value htype)
    rcases stored_error h with hread | ⟨name', hread, hnext⟩
    · rw [hn] at hread; cases hread
    · rw [hn] at hread
      cases hread
      rw [hmode] at hnext
      cases hnext
  | label hname htype =>
    obtain ⟨text, ht⟩ := asText_typed (htyped.value htype)
    rcases stored_error h with hread | ⟨a, -, hnext⟩
    · rw [ht] at hread; cases hread
    · cases hnext
  | capacity hname htype =>
    obtain ⟨n, rfl, -⟩ := (htyped.value htype).unsigned rfl rfl
    rcases stored_error h with hread | ⟨a, -, hnext⟩
    · cases hread
    · cases hnext
  | recent => cases h
  | increment => cases h
  | @add o args hname hparams =>
    have hargs := htyped.arguments hparams
    obtain ⟨v, hv, rfl⟩ : ∃ v, WellTyped .i64 v ∧ args = [v] := by
      cases hargs with
      | cons hv hrest => cases hrest; exact ⟨_, hv, rfl⟩
    obtain ⟨n, rfl, -⟩ := hv.signed rfl rfl
    cases h
  | reset => cases h
  | clear => cases h
  | resetStatistics => cases h

end Counter

/-- The probe gives every body what the body declares. Conversion only gives values that
are well typed at the target type. The bodies that a command runs are those that the
recorded node notes, and the recorded node answers and moves as the node does; each of them
is a member of a component of the node and is given as many values as it declares, each
well typed at its declared type. A counter on such a node reads them all: its bodies only
refuse a step of zero. -/
theorem bodies_given_declared_values :
    (∀ (t : ValueType) (raw : List Char) (v : Value),
      Conversion.convert raw t = .ok v → WellTyped t v) ∧
    ∀ {σ : Type} (node : Node σ) (token : String) (s : NodeState σ),
      (node.recorded.dispatch token s.recorded).plain = node.dispatch token s ∧
      ∀ e ∈ node.bodiesOf token s,
        e.component ∈ node.components ∧ e.deed.On e.component ∧ e.deed.Typed ∧
        ∀ (place : Lens (Memory σ) Counter.State) (failure : Failure),
          e.component = counter.focus place →
          (e.deed.perform e.component e.before).1 = .error failure →
          (∃ a, e.deed = .store a (.unsigned 0) ∧ a.name = "step") ∧
            failure = .operation "step must be positive" := by
  refine ⟨fun t raw v h => Conversion.convert_wellTyped h, fun {σ} node token s => ⟨?_, ?_⟩⟩
  · exact node.dispatch_recorded token s.recorded
  · have hnoted : ∀ e ∈ node.bodiesOf token s,
        e.component ∈ node.components ∧ e.deed.On e.component ∧ e.deed.Typed := by
      refine Node.dispatch_recorded_preserves (s := s.recorded)
        (P := fun _ trace => ∀ e ∈ trace,
          e.component ∈ node.components ∧ e.deed.On e.component ∧ e.deed.Typed) ?_ token ?_
      · intro c hc d hon htyped m trace htrace e he
        rcases List.mem_append.mp he with hold | hnew
        · exact htrace e hold
        · cases List.mem_singleton.mp hnew
          exact ⟨hc, hon, htyped⟩
      · intro e he
        cases he
    intro e he
    obtain ⟨hc, hon, htyped⟩ := hnoted e he
    refine ⟨hc, hon, htyped, ?_⟩
    intro place failure hcounter hfails
    rw [hcounter] at hon
    obtain ⟨d, hd, heq⟩ := Deed.on_focus hon
    rw [heq, Deed.typed_carry] at htyped
    rw [hcounter, heq, Deed.perform_focus_fst] at hfails
    obtain ⟨⟨a, rfl, hname⟩, hfailure⟩ := Counter.typed_fails hd htyped hfails
    exact ⟨⟨a.focus place, heq, hname⟩, hfailure⟩

theorem declared_values_of_add :
    let node := CommandLine.node {} (.numbered true true [])
    let s := CommandLine.initialState {}
    let listed := Value.list [.signed 7, .signed 8]
    Conversion.convert "7 8".toList (.list .i64) = .ok listed ∧ WellTyped (.list .i64) listed ∧
    (node.bodiesOf "op=COUNTER.add[5]" s).length = 1 ∧
    (node.dispatch "op=COUNTER.add[5]" s).failure = none ∧
    ∀ e ∈ node.bodiesOf "op=COUNTER.add[5]" s, e.deed.Typed ∧
      ∀ failure, (e.deed.perform e.component e.before).1 ≠ .error failure := by
  intro node s listed
  have hconvert : Conversion.convert "7 8".toList (.list .i64) = .ok listed := rfl
  refine ⟨hconvert, bodies_given_declared_values.1 _ _ _ hconvert, rfl, rfl, ?_⟩
  intro e he
  obtain ⟨-, -, htyped, hreads⟩ :=
    (bodies_given_declared_values.2 node "op=COUNTER.add[5]" s).2 e he
  refine ⟨htyped, fun failure hfails => ?_⟩
  cases List.mem_singleton.mp he
  obtain ⟨⟨a, ha, -⟩, -⟩ := hreads Memory.storePlace failure rfl hfails
  cases ha

end NodeProbe
