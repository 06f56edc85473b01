import NodeProbe.Proofs.Carry

/-!
# Components that run side by side

Where the bodies of a component and the carried bodies give the same results in related
states and leave related states, so do all reads, writes and calls. Two components that
agree in this way cannot be told apart by commands.
-/
namespace NodeProbe

variable {σ τ α β : Type}

/-- The same result, and related states. -/
structure Agree (R : σ → τ → Prop) (x : α × σ) (y : α × τ) : Prop where
  result : y.1 = x.1
  state : R x.2 y.2

theorem Agree.exists_eq {R : σ → τ → Prop} {x : α × σ} {y : α × τ} (h : Agree R x y) :
    ∃ result s m, x = (result, s) ∧ y = (result, m) ∧ R s m :=
  ⟨x.1, x.2, y.2, rfl, Prod.ext h.result rfl, h.state⟩

theorem Agree.map {R : σ → τ → Prop} (f : α → β) {act : Action σ α} {act' : Action τ α} {s : σ}
    {m : τ} (h : Agree R (act s) (act' m)) : Agree R (act.map f s) (act'.map f m) :=
  ⟨congrArg (Except.map f) h.result, h.state⟩

/-- Carried members of the component agree with its members in related states. -/
structure Carrier.Simulates (k : Carrier σ τ) (R : σ → τ → Prop) (c : Component σ) : Prop where
  get : ∀ a ∈ c.attributes, ∀ s m, R s m → (k.ofAttribute a).get m = a.get s
  store : ∀ a ∈ c.attributes, ∀ v s m, R s m → Agree R (a.store v s) ((k.ofAttribute a).store v m)
  run : ∀ o ∈ c.operations, ∀ args s m, R s m →
    Agree R (o.run args s) ((k.ofOperation o).run args m)

/-- What a command can do with two components has the same results and keeps their states
related. -/
structure Component.Simulates (R : σ → τ → Prop) (c : Component σ) (c' : Component τ) : Prop where
  name : c'.name = c.name
  className : c'.className = c.className
  listing : c'.listing = c.listing
  dump : ∀ s m, R s m → c'.dump m = c.dump s
  read : ∀ names s m, R s m → c'.read names m = c.read names s
  writeAll : ∀ writes s m, R s m → Agree R (c.writeAll writes s) (c'.writeAll writes m)
  call : ∀ call s m, R s m → Agree R (c.call call s) (c'.call call m)
  reset : ∀ s m, R s m → R (c.reset s) (c'.reset m)

theorem Component.findAttribute?_mem {c : Component σ} {name : String} {a : Attribute σ}
    (h : c.findAttribute? name = some a) : a ∈ c.attributes := by
  rcases Option.or_eq_some_iff.mp h with hown | ⟨-, hpart⟩
  · exact table_attributes_mem List.mem_cons_self (Table.attribute?_mem hown)
  · obtain ⟨⟨p, rest⟩, hsplit, ha⟩ := Option.bind_eq_some_iff.mp hpart
    obtain ⟨q, hq, hfound⟩ := List.exists_of_findSome?_eq_some hsplit
    obtain ⟨_, -, heq⟩ := Option.map_eq_some_iff.mp hfound
    cases heq
    exact table_attributes_mem (part_tables_mem hq) (Table.attribute?_mem ha)

section

variable {k : Carrier σ τ} {R : σ → τ → Prop} {c : Component σ} (hk : k.Simulates R c)
include hk

theorem Table.dump_simulates {t : Table σ} (ht : t ∈ c.tables) (lead : String) {s : σ} {m : τ}
    (h : R s m) : (t.carry k).dump lead m = t.dump lead s := by
  unfold dump carry
  rw [List.filterMap_map]
  refine List.filterMap_congr fun a ha => ?_
  rw [Function.comp_apply, k.name_ofAttribute,
    hk.get a (Component.table_attributes_mem ht ha) s m h]

theorem Setter.apply_simulates {setter : Setter σ} (hon : (WriteTarget.setter setter).On c)
    (v : Value) {s : σ} {m : τ} (h : R s m) :
    Agree R (setter.apply v s) ((setter.carry k).apply v m) := by
  cases setter with
  | accessor a => exact (hk.store a hon v s m h).map _
  | operation o param => exact (hk.run o hon.1 [v] s m h).map _

/-- A target converts the text before its body sees it, so carried targets take the same texts. -/
theorem WriteTarget.write_simulates {target : WriteTarget σ} (hon : target.On c)
    (name raw : String) {s : σ} {m : τ} (h : R s m) :
    Agree R (target.write name raw s) ((target.carry k).write name raw m) := by
  cases target with
  | field a =>
    simp only [carry, write, k.type_ofAttribute]
    cases a.type.convert raw with
    | error e => exact ⟨rfl, h⟩
    | ok v =>
      obtain ⟨result, s', m', hs, hm, h'⟩ := (hk.store a hon v s m h).exists_eq
      simp only [hs, hm]
      rcases result with _ | _ | _ <;> exact ⟨rfl, h'⟩
  | setter target =>
    have htype : (target.carry k).type = target.type := by
      cases target with
      | accessor a => exact k.type_ofAttribute a
      | operation o param => rfl
    simp only [carry, write, htype]
    cases target.type.convert raw with
    | error e => exact ⟨rfl, h⟩
    | ok v =>
      obtain ⟨result, s', m', hs, hm, h'⟩ := (Setter.apply_simulates hk hon v h).exists_eq
      simp only [hs, hm]
      cases result <;> exact ⟨rfl, h'⟩

/-- The failures before a success are collected alike. -/
theorem tryTargets_simulates (raw : String) {targets : List (WriteTarget σ × String)}
    (hon : ∀ target ∈ targets, target.1.On c) (failures : List String) {s : σ} {m : τ} (h : R s m) :
    Agree R (tryTargets raw targets failures s)
      (tryTargets raw (targets.map fun t => (t.1.carry k, t.2)) failures m) := by
  induction targets generalizing failures s m with
  | nil => exact ⟨rfl, h⟩
  | cons head targets ih =>
    obtain ⟨target, name⟩ := head
    obtain ⟨result, s', m', hs, hm, h'⟩ :=
      (WriteTarget.write_simulates hk (hon _ List.mem_cons_self) name raw h).exists_eq
    simp only [List.map_cons, tryTargets, hs, hm]
    cases result with
    | error text => exact ih (fun t ht => hon t (List.mem_cons_of_mem _ ht)) _ h'
    | ok _ => exact ⟨rfl, h'⟩

variable (r : τ → τ)

theorem Component.dump_simulates {s : σ} {m : τ} (h : R s m) :
    (c.carry k r).dump m = c.dump s := by
  have hown : (c.surface.own.carry k).dump c.name m = c.surface.own.dump c.name s :=
    Table.dump_simulates hk List.mem_cons_self c.name h
  have hparts : (c.surface.parts.map (·.carry k)).flatMap
      (fun p => p.table.dump (c.name ++ "." ++ p.name) m) =
      c.surface.parts.flatMap fun p => p.table.dump (c.name ++ "." ++ p.name) s := by
    rw [List.flatMap_map]
    exact List.flatMap_congr fun p hp => Table.dump_simulates hk (part_tables_mem hp) _ h
  unfold dump
  exact congrArg₂ (· ++ ·) hown hparts

theorem Component.read_simulates (names : List String) {s : σ} {m : τ} (h : R s m) :
    (c.carry k r).read names m = c.read names s := by
  unfold read
  refine List.filterMap_congr fun name _ => ?_
  rw [findAttribute?_carry]
  cases hfound : c.findAttribute? name with
  | none => rfl
  | some a =>
    simp only [Option.map_some, Option.bind_some, hk.get a (findAttribute?_mem hfound) s m h]
    rfl

theorem Component.write_simulates (name raw : String) {s : σ} {m : τ} (h : R s m) :
    Agree R (c.write name raw s) ((c.carry k r).write name raw m) := by
  have hon : ∀ target ∈ c.writeTargets name, target.1.On c := fun _ ht => writeTargets_on ht
  obtain ⟨result, s', m', hs, hm, h'⟩ := (tryTargets_simulates hk raw hon [] h).exists_eq
  unfold write
  rw [writeTargets_carry, hs, hm]
  cases result <;> exact ⟨rfl, h'⟩

theorem Component.writeAll_simulates (writes : List (String × String)) {s : σ} {m : τ}
    (h : R s m) : Agree R (c.writeAll writes s) ((c.carry k r).writeAll writes m) := by
  induction writes generalizing s m with
  | nil => exact ⟨rfl, h⟩
  | cons w writes ih =>
    obtain ⟨name, raw⟩ := w
    obtain ⟨result, s', m', hs, hm, h'⟩ := (write_simulates hk r name raw h).exists_eq
    simp only [writeAll, hs, hm]
    cases result with
    | error e => exact ⟨congrArg (e :: ·) (ih h').result, (ih h').state⟩
    | ok _ => exact ih h'

/-- The same operation is found on both sides, and its carried body agrees with it. -/
theorem Component.call_simulates (call : OperationCall) {s : σ} {m : τ} (h : R s m) :
    Agree R (c.call call s) ((c.carry k r).call call m) := by
  have hfound : (c.carry k r).surface.operation? call.method call.args.length =
      (c.surface.operation? call.method call.args.length).map k.ofOperation :=
    Surface.operation?_carry c.surface call.method call.args.length
  unfold Component.call
  rw [hfound]
  cases ho : c.surface.operation? call.method call.args.length with
  | none => exact ⟨rfl, h⟩
  | some o =>
    simp only [Option.map_some, k.params_ofOperation]
    cases convertArguments o.params call.args with
    | error e => exact ⟨rfl, h⟩
    | ok args =>
      obtain ⟨result, s', m', hs, hm, h'⟩ :=
        (hk.run o (operation?_spec ho).1 args s m h).exists_eq
      simp only [hs, hm]
      cases result <;> exact ⟨rfl, h'⟩

omit hk in
theorem Component.listing_carry (c : Component σ) : (c.carry k r).listing = c.listing := by
  have hsignature : ∀ o : Operation σ, (k.ofOperation o).signature = o.signature := by
    intro o
    unfold Operation.signature
    rw [k.name_ofOperation, k.params_ofOperation]
  unfold listing Surface.listing carry Surface.carry Table.carry
  simp only [List.map_map, List.flatMap_map, Function.comp_def, hsignature, Part.carry, Table.carry]

/-- A component and its carried component agree when their bodies and resets do. -/
theorem Carrier.Simulates.component {r : τ → τ} (hreset : ∀ s m, R s m → R (c.reset s) (r m)) :
    c.Simulates R (c.carry k r) where
  name := rfl
  className := rfl
  listing := c.listing_carry r
  dump _ _ h := c.dump_simulates hk r h
  read names _ _ h := c.read_simulates hk r names h
  writeAll writes _ _ h := c.writeAll_simulates hk r writes h
  call call _ _ h := c.call_simulates hk r call h
  reset := hreset

end

end NodeProbe
