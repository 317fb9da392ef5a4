import NodeGraph.Pass.Readout
import NodeGraph.Proofs.Pass.Steps

/-!
# What a pass leaves

A pass changes its store by writes alone, and what it writes to a destination has the type of the
destination. So what each such write keeps holds of the store until the end of a pass, whether it
comes to its end or not (`Step.executeAll_keeps`). In particular a pass leaves a store of the size
that its plan states, also if the plan asks for slots that it does not have (`Plan.size_pass`). What
is then read of the sink depends on the store alone (`Readout.result_read`).

Nothing is asked of operations here, which can give any values, nor of plans.
-/

namespace NodeGraph

/-- The zero of a type is a value of the type. -/
theorem ValueType.type?_zero (ty : ValueType) : ty.zero.type? = some ty := by
  cases ty <;> rfl

/-- A value that can be coerced to a type becomes a value of the type. Nothing becomes its zero, and
a number becomes a scalar. -/
theorem Value.type?_of_convert? {v w : Value} {ty : ValueType} (h : v.convert? ty = some w) :
    w.type? = some ty := by
  unfold convert? at h
  split at h
  · cases h
    exact ty.type?_zero
  · split at h
    · cases h
      assumption
    · split at h
      · obtain ⟨x, -, rfl⟩ := Option.map_eq_some_iff.1 h
        subst ty
        rfl
      · cases h

/-- A value that is coerced to a type becomes a value of the type, with a fallback or without. -/
theorem Context.type?_convert (v : Value) (ty : ValueType) (c : Context) :
    (convert v ty c).result.type? = some ty := by
  unfold convert
  cases h : v.convert? ty with
  | none => exact ty.type?_zero
  | some w => exact Value.type?_of_convert? h

/-- What goes on keeps what holds of the frame, if the next part does. If a fault has stopped it,
nothing changes. -/
theorem Progress.andThen_keeps {P : Frame → Prop} {p : Progress} {next : Frame → Progress}
    (hp : P p.state) (hnext : ∀ f, P f → P (next f).state) : P (p.andThen next).state := by
  unfold andThen
  split
  · exact hp
  · exact hnext p.state hp

/-- To load operands leaves the store as it is, also if one of them has no value. -/
theorem Operand.store_loadAll (operands : List Operand) (f : Frame) :
    (loadAll operands f).state.store = f.store := by
  induction operands generalizing f with
  | nil => rfl
  | cons o operands ih =>
    rw [loadAll]
    cases o.value f.store with
    | error fault => rfl
    | ok v => exact ih (f.pushInput v)

namespace Destination

/-- What every store that differs in a value of the right type has in common, a write keeps. Where
there is no slot, the store stays as it is. -/
theorem write_keeps {P : SlotStore → Prop} (d : Destination) (v : Value) {f : Frame}
    (hset : ∀ w, w.type? = some d.type → P ⟨f.store.values.set d.slot.index w⟩) (hf : P f.store) :
    P (d.write v f).state.store := by
  unfold write SlotStore.set
  dsimp only
  split
  · rename_i store hstore
    split at hstore
    · cases hstore
      exact hset _ (Context.type?_convert v d.type f.context)
    · cases hstore
  · exact hf

/-- What each write keeps, all of them keep. Only the destinations matter, since the values can be
anything. -/
theorem writeAll_keeps {P : SlotStore → Prop} {ds : List Destination}
    (hset : ∀ d ∈ ds, ∀ store w, w.type? = some d.type → P store →
      P ⟨store.values.set d.slot.index w⟩)
    (vs : List Value) {f : Frame} (hf : P f.store) : P (writeAll ds vs f).state.store := by
  induction ds generalizing vs f with
  | nil => exact hf
  | cons d ds ih =>
    obtain ⟨hd, hds⟩ := List.forall_mem_cons.1 hset
    cases vs with
    | nil => exact hf
    | cons v vs =>
      exact Progress.andThen_keeps (P := fun f => P f.store)
        (write_keeps d v (fun w hw => hd f.store w hw hf) hf) fun f' hf' => ih hds vs hf'

/-- To write a value keeps the size of the store, whether or not it has the slot. -/
theorem size_write (d : Destination) (v : Value) (f : Frame) :
    (d.write v f).state.store.size = f.store.size :=
  write_keeps (P := fun store => store.size = f.store.size) d v (fun _ _ => List.length_set ..) rfl

/-- To write values keeps the size of the store. -/
theorem size_writeAll (ds : List Destination) (vs : List Value) (f : Frame) :
    (writeAll ds vs f).state.store.size = f.store.size :=
  writeAll_keeps (P := fun store => store.size = f.store.size)
    (fun _ _ _ _ _ hstore => (List.length_set ..).trans hstore) vs rfl

end Destination

namespace Step

/-- What every write of a step keeps, the step keeps, whatever its operation gives. -/
theorem execute_keeps {P : SlotStore → Prop} (t : OpTable) {s : Step}
    (hset : ∀ d ∈ s.results, ∀ store w, w.type? = some d.type → P store →
      P ⟨store.values.set d.slot.index w⟩)
    {f : Frame} (hf : P f.store) : P (s.execute t f).state.store := by
  unfold execute
  split
  · exact hf
  · have hload : P (Operand.loadAll s.operands f.clearInputs).state.store := by
      rwa [Operand.store_loadAll]
    refine Progress.andThen_keeps (P := fun f => P f.store) hload fun f₁ h₁ => ?_
    refine Progress.andThen_keeps (P := fun f => P f.store) h₁ fun f₂ h₂ => ?_
    exact Destination.writeAll_keeps hset _ h₂

/-- What every write of some steps keeps, these steps keep, up to a fault or to their end. -/
theorem executeAll_keeps {P : SlotStore → Prop} (t : OpTable) {steps : List Step}
    (hset : ∀ s ∈ steps, ∀ d ∈ s.results, ∀ store w, w.type? = some d.type → P store →
      P ⟨store.values.set d.slot.index w⟩)
    {f : Frame} (hf : P f.store) : P (executeAll t steps f).state.store := by
  induction steps generalizing f with
  | nil => exact hf
  | cons s steps ih =>
    obtain ⟨hs, hsteps⟩ := List.forall_mem_cons.1 hset
    exact Progress.andThen_keeps (P := fun f => P f.store) (execute_keeps t hs hf)
      fun f' hf' => ih hsteps hf'

/-- Steps keep the size of the store, whatever slots they name. -/
theorem size_executeAll (t : OpTable) (steps : List Step) (f : Frame) :
    (executeAll t steps f).state.store.size = f.store.size :=
  executeAll_keeps (P := fun store => store.size = f.store.size) t
    (fun _ _ _ _ _ _ _ hstore => (List.length_set ..).trans hstore) rfl

/-- A step keeps the size of the store, also if a fault stops it. -/
theorem size_execute (t : OpTable) (s : Step) (f : Frame) :
    (s.execute t f).state.store.size = f.store.size :=
  execute_keeps (P := fun store => store.size = f.store.size) t
    (fun _ _ _ _ _ hstore => (List.length_set ..).trans hstore) rfl

end Step

/-- A pass leaves a store of the size that the plan states, which is the size that it starts
with. -/
theorem Plan.size_pass (t : OpTable) (p : Plan) (f : Frame) :
    (p.pass t f).state.store.size = p.slotCount :=
  (Step.size_executeAll ..).trans (p.size_prepare f)

/-- What data a value is coerced to does not depend on the context. Only what is counted does. -/
theorem Context.result_coerce (ty : ValueType) (v : Value) (c : Context) :
    (coerce ty v c).result = (v.as? ty).getD ty.zeroPayload := by
  unfold coerce
  cases v.as? ty with
  | none => rfl
  | some payload => rfl

/-- What is read of the sink depends on the store alone. Random streams and counts do not come
in. -/
theorem Readout.result_read (p : Plan) (store : SlotStore) (c c' : Context) :
    (read p store c).result = (read p store c').result := by
  unfold read
  cases p.sink? with
  | none => rfl
  | some sink =>
    simp only [bind, Logged.bind, pure, Logged.pure, Context.result_coerce]

end NodeGraph
