import NodeGraph.Pass.Basic
import NodeGraph.Proofs.Plan.Checks

/-!
# What steps do to a frame

What a step does depends on the store and the context alone. It clears the scratch lists before it
uses them, so that it invokes its operation with the values of its operands and writes the values
that the operation gives, whatever the lists held before (`Step.execute_of_mapM`). Two frames that
differ in their scratch lists alone therefore still do so after a pass, which stops with the same
fault and causes the same events (`Plan.bare_pass`).

If the slots of a step are within the store (`Step.Fits`), its execution has a closed form: the
operands are looked up, the operation is invoked, and its values are coerced in turn
(`Context.convertAll`) and put in their slots (`SlotStore.setAll`). A pass then stops only at an
operation that the table does not have, and at the first of these (`Step.executeAll_result`).
-/

namespace NodeGraph

/-- Coerces values to types in order, as far as there are both. This is what a step does with the
values of its operation. -/
def Context.convertAll : List ValueType → List Value → Logged Context (List Value)
  | ty :: tys, v :: vs => do
    let w ← convert v ty
    let ws ← convertAll tys vs
    return w :: ws
  | _, _ => return []

/-- Puts values in slots in order, as far as there are both. A slot that is there twice has the last
value. -/
def SlotStore.setAll (s : SlotStore) : List Slot → List Value → SlotStore
  | slot :: slots, v :: vs => setAll ⟨s.values.set slot.index v⟩ slots vs
  | _, _ => s

/-- Putting values in slots keeps the size of the store, also where a slot is beyond it. -/
@[simp] theorem SlotStore.size_setAll (s : SlotStore) (slots : List Slot) (vs : List Value) :
    (s.setAll slots vs).size = s.size := by
  fun_induction setAll s slots vs with
  | case1 s slot slots v vs ih => rw [ih, size, size, List.length_set]
  | case2 => rfl

/-- To empty a store is to take a new one of its size. -/
theorem SlotStore.reset_eq_ofSize (s : SlotStore) : s.reset = ofSize s.size := by
  rw [reset, ofSize, size, List.map_const']

/-- A pass starts with an empty store of the size that the plan asks for, whatever store there was
before and whatever it held. -/
theorem Plan.store_prepare (p : Plan) (f : Frame) : (p.prepare f).store = .ofSize p.slotCount := by
  show (if f.store.size ≠ p.slotCount then _ else _) = _
  split
  · rfl
  · rename_i hsize
    rw [SlotStore.reset_eq_ofSize, Decidable.not_not.1 hsize]

/-- A pass starts with as many slots as the plan asks for, also if there were more before. -/
theorem Plan.size_prepare (p : Plan) (f : Frame) : (p.prepare f).store.size = p.slotCount := by
  rw [store_prepare]
  exact List.length_replicate ..

/-- The value of an operand, absent where the store ends before its slot. With slots within the
store it is what `Operand.value` gives. -/
def Operand.fetch (store : SlotStore) : Operand → Value
  | .slot s => (store.values[s.index]?).getD .absent
  | .literal v => v

/-- Whether all slots of a step are within a store of the given size, those that it reads and those
that it writes. -/
structure Step.Fits (s : Step) (size : Nat) : Prop where
  reads : ∀ slot ∈ s.reads, slot.index < size
  writes : ∀ slot ∈ s.writes, slot.index < size

namespace Progress

variable {p : Progress} {next : Frame → Progress}

/-- What was stopped does not go on. Its frame and its events stay as they are. -/
theorem andThen_of_some {fault : Fault} (h : p.result = some fault) : p.andThen next = p := by
  simp [andThen, h]

/-- What was not stopped goes on from where it is, and adds its events to those before. -/
theorem andThen_of_none (h : p.result = none) :
    p.andThen next = { next p.state with events := p.events ++ (next p.state).events } := by
  simp [andThen, h]

end Progress

/-- The frame without what is in the scratch lists. It has all that a pass can depend on. -/
def Frame.bare (f : Frame) : Frame :=
  { f with scratch := {} }

/-- Frames agree but for the scratch lists if they have the same store and the same context. -/
theorem Frame.bare_eq_iff {f f' : Frame} :
    f.bare = f'.bare ↔ f.store = f'.store ∧ f.context = f'.context := by
  simp [bare]

/-- What has come of a part of a pass, without what is in the scratch lists in the end. -/
def Progress.bare (p : Progress) : Progress :=
  { p with state := p.state.bare }

/-- Parts of passes agree but for the scratch lists if their frames do, and if they have the same
fault and the same events. -/
theorem Progress.bare_eq_iff {p p' : Progress} :
    p.bare = p'.bare ↔
      p.result = p'.result ∧ p.state.bare = p'.state.bare ∧ p.events = p'.events := by
  simp [bare]

/-- Two parts of passes that agree but for the scratch lists still do so when both go on, if the
next part depends on the rest of the frame alone. -/
theorem Progress.bare_andThen {p p' : Progress} {next : Frame → Progress} (h : p.bare = p'.bare)
    (hnext : ∀ f f' : Frame, f.bare = f'.bare → (next f).bare = (next f').bare) :
    (p.andThen next).bare = (p'.andThen next).bare := by
  obtain ⟨hresult, hstate, hevents⟩ := bare_eq_iff.1 h
  cases hp : p.result with
  | some fault => rw [andThen_of_some hp, andThen_of_some (hresult ▸ hp), h]
  | none =>
    obtain ⟨hresult', hstate', hevents'⟩ := bare_eq_iff.1 (hnext p.state p'.state hstate)
    rw [andThen_of_none hp, andThen_of_none (hresult ▸ hp), bare_eq_iff, hevents, hevents']
    exact ⟨hresult', hstate', rfl⟩

/-- Operands within the store have values. A literal always has its own. -/
theorem Operand.mapM_value {store : SlotStore} {operands : List Operand}
    (h : ∀ slot ∈ operands.filterMap Operand.slot?, slot.index < store.size) :
    operands.mapM (Operand.value store) = .ok (operands.map (Operand.fetch store)) := by
  induction operands with
  | nil => rfl
  | cons o operands ih =>
    have hvalue : o.value store = .ok (o.fetch store) := by
      cases o with
      | literal v => rfl
      | slot s =>
        have hs : s.index < store.values.length := h s (by simp [slot?])
        simp [value, fetch, SlotStore.get, List.getElem?_eq_getElem hs]
    have hrest : ∀ slot ∈ operands.filterMap Operand.slot?, slot.index < store.size :=
      fun slot hslot => h slot (by
        rw [List.filterMap_cons]
        split
        · exact hslot
        · exact List.mem_cons_of_mem _ hslot)
    rw [List.mapM_cons, hvalue, ih hrest]
    rfl

/-- If all operands have values, these are put behind the inputs. Nothing else changes, and there
are no events. -/
theorem Operand.loadAll_of_mapM {operands : List Operand} {vs : List Value} {f : Frame}
    (h : operands.mapM (Operand.value f.store) = .ok vs) :
    loadAll operands f =
      .start { f with scratch := ⟨f.scratch.inputs ++ vs, f.scratch.outputs⟩ } := by
  induction operands generalizing f vs with
  | nil =>
    rw [List.mapM_nil] at h
    obtain rfl := Except.ok.inj h
    rw [loadAll, List.append_nil]
  | cons o operands ih =>
    rw [List.mapM_cons] at h
    obtain ⟨v, hv, h⟩ := bind_eq_ok_iff.1 h
    obtain ⟨vs, hvs, h⟩ := bind_eq_ok_iff.1 h
    obtain rfl := Except.ok.inj h
    rw [loadAll, hv]
    refine (ih (f := f.pushInput v) hvs).trans ?_
    simp only [Frame.pushInput, List.append_assoc, List.singleton_append]

/-- If an operand has no value, loading the operands stops there. Only the inputs have changed. -/
theorem Operand.loadAll_of_mapM_error {operands : List Operand} {fault : Fault} {f : Frame}
    (h : operands.mapM (Operand.value f.store) = .error fault) :
    ∃ scratch, loadAll operands f = .stop { f with scratch } fault := by
  induction operands generalizing f with
  | nil => cases h
  | cons o operands ih =>
    rw [List.mapM_cons] at h
    rw [loadAll]
    rcases bind_eq_error_iff.1 h with h | ⟨v, hv, h⟩
    · rw [h]
      exact ⟨f.scratch, rfl⟩
    · rw [hv]
      rcases bind_eq_error_iff.1 h with h | ⟨_, _, h⟩
      · exact ih (f := f.pushInput v) h
      · cases h

/-- Destinations within the store take all values, which are coerced in turn and put in their slots
in turn. That coercions and writes alternate makes no difference, since they do not touch each
other's data. -/
theorem Destination.writeAll_eq {ds : List Destination} {f : Frame}
    (h : ∀ d ∈ ds, d.slot.index < f.store.size) (vs : List Value) :
    let converted := Context.convertAll (ds.map (·.type)) vs f.context
    writeAll ds vs f =
      { result := none
        state :=
          { f with
            store := f.store.setAll (ds.map (·.slot)) converted.result
            context := converted.state }
        events := converted.events } := by
  induction ds generalizing vs f with
  | nil => rfl
  | cons d ds ih =>
    obtain ⟨hd, hds⟩ := List.forall_mem_cons.1 h
    cases vs with
    | nil => rfl
    | cons v vs =>
      have hwrite : d.write v f =
          { result := none
            state :=
              { f with
                store := ⟨f.store.values.set d.slot.index
                  (Context.convert v d.type f.context).result⟩
                context := (Context.convert v d.type f.context).state }
            events := (Context.convert v d.type f.context).events } := by
        simp [write, SlotStore.set, hd]
      rw [writeAll, hwrite, Progress.andThen_of_none rfl, ih]
      · simp [Context.convertAll, SlotStore.setAll, bind, Logged.bind, pure, Logged.pure]
      · simpa [SlotStore.size] using hds

namespace Step

variable {t : OpTable} {s : Step} {f : Frame}

/-- A step with an unknown operation is not executed. The frame is as it was, with its scratch
lists. -/
theorem execute_of_not_contains (h : t.contains s.op = false) :
    s.execute t f = .stop f (.unknownOperation s.op) := by
  have hnone : t.find? s.op = none := by simpa [OpTable.contains] using h
  simp [execute, OpTable.resolve, hnone]

/-- A step with a known operation whose operands have values invokes the operation with these values
and writes what it gives. The scratch lists have served this step alone: nothing that they held
before is in them, and nothing of it has had any effect. -/
theorem execute_of_mapM {e : OpEntry} {inputs : List Value} (h : t.find? s.op = some e)
    (hinputs : s.operands.mapM (Operand.value f.store) = .ok inputs) :
    let invoked := e.operation inputs f.context
    let written := Destination.writeAll s.results invoked.result
      ⟨f.store, invoked.state, ⟨inputs, invoked.result⟩⟩
    s.execute t f = { written with events := invoked.events ++ written.events } := by
  simp only [execute, OpTable.resolve, h]
  rw [Operand.loadAll_of_mapM (f := f.clearInputs) hinputs]
  rfl

/-- A step with a known operation and an operand without a value stops with the fault of the operand
and leaves the store and the context as they are. -/
theorem execute_of_mapM_error {e : OpEntry} {fault : Fault} (h : t.find? s.op = some e)
    (hinputs : s.operands.mapM (Operand.value f.store) = .error fault) :
    ∃ scratch, s.execute t f = .stop { f with scratch } fault := by
  obtain ⟨scratch, hload⟩ := Operand.loadAll_of_mapM_error (f := f.clearInputs) hinputs
  simp only [execute, OpTable.resolve, h]
  rw [hload]
  exact ⟨scratch, rfl⟩

/-- What a step does to the store and to the context, its fault and its events do not depend on the
scratch lists. By cases: the operation is unknown, an operand has no value, or the step has a closed
form. -/
theorem bare_execute (t : OpTable) (s : Step) {f f' : Frame} (h : f.bare = f'.bare) :
    (s.execute t f).bare = (s.execute t f').bare := by
  obtain ⟨hstore, hcontext⟩ := Frame.bare_eq_iff.1 h
  cases hfind : t.find? s.op with
  | none =>
    have hc : t.contains s.op = false := by simp [OpTable.contains, hfind]
    rw [execute_of_not_contains hc, execute_of_not_contains hc]
    exact congrArg (Progress.stop · _) h
  | some e =>
    cases hinputs : s.operands.mapM (Operand.value f.store) with
    | error fault =>
      obtain ⟨scratch, hexecute⟩ := execute_of_mapM_error hfind hinputs
      obtain ⟨scratch', hexecute'⟩ := execute_of_mapM_error hfind (hstore ▸ hinputs)
      rw [hexecute, hexecute']
      exact congrArg (Progress.stop · _) h
    | ok inputs =>
      rw [execute_of_mapM hfind hinputs, execute_of_mapM hfind (hstore ▸ hinputs), hstore, hcontext]

/-- What steps do to the store and to the context, their fault and their events do not depend on the
scratch lists. -/
theorem bare_executeAll (t : OpTable) (steps : List Step) {f f' : Frame} (h : f.bare = f'.bare) :
    (executeAll t steps f).bare = (executeAll t steps f').bare := by
  induction steps generalizing f f' with
  | nil => exact congrArg Progress.start h
  | cons s steps ih => exact Progress.bare_andThen (bare_execute t s h) fun _ _ h => ih h

/-- A step with a known operation and slots within the store is executed to its end. What it leaves
is given by the values of its operands and by what the operation makes of them. -/
theorem execute_of_fits {e : OpEntry} (h : t.find? s.op = some e) (hs : s.Fits f.store.size) :
    let inputs := s.operands.map (Operand.fetch f.store)
    let invoked := e.operation inputs f.context
    let converted :=
      Context.convertAll (s.results.map (·.type)) invoked.result invoked.state
    s.execute t f =
      { result := none
        state :=
          ⟨f.store.setAll s.writes converted.result, converted.state, ⟨inputs, invoked.result⟩⟩
        events := invoked.events ++ converted.events } := by
  intro inputs invoked converted
  have hds : ∀ d ∈ s.results, d.slot.index < f.store.size := fun d hd =>
    hs.writes d.slot (List.mem_map_of_mem hd)
  rw [execute_of_mapM h (Operand.mapM_value hs.reads)]
  rw [Destination.writeAll_eq (f := ⟨f.store, invoked.state, ⟨inputs, invoked.result⟩⟩) hds]
  rfl

/-- Steps with slots within the store are executed up to the first one with an unknown operation. -/
theorem executeAll_result {steps : List Step} (h : ∀ s ∈ steps, s.Fits f.store.size) :
    (executeAll t steps f).result =
      (steps.find? fun s => !t.contains s.op).map fun s => .unknownOperation s.op := by
  induction steps generalizing f with
  | nil => rfl
  | cons s steps ih =>
    obtain ⟨hs, hsteps⟩ := List.forall_mem_cons.1 h
    rw [executeAll]
    cases hc : t.contains s.op with
    | false =>
      rw [execute_of_not_contains hc, Progress.andThen_of_some rfl,
        List.find?_cons_of_pos (by simp [hc])]
      rfl
    | true =>
      obtain ⟨e, he⟩ := Option.isSome_iff_exists.1 hc
      rw [execute_of_fits he hs, Progress.andThen_of_none rfl,
        List.find?_cons_of_neg (by simp [hc])]
      exact ih (by simpa using hsteps)

end Step

/-- What a pass does to the context, the slots that it leaves, its fault and its events do not
depend on the scratch lists. -/
theorem Plan.bare_pass (t : OpTable) (p : Plan) {f f' : Frame} (h : f.bare = f'.bare) :
    (p.pass t f).bare = (p.pass t f').bare := by
  refine Step.bare_executeAll t p.steps (Frame.bare_eq_iff.2 ⟨?_, ?_⟩)
  · rw [store_prepare, store_prepare]
  · exact congrArg Context.beginPass (Frame.bare_eq_iff.1 h).2

end NodeGraph
