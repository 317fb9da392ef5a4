import NodeGraph.Proofs.Pass.Procedures
import NodeGraph.Proofs.Pass.Typing

/-!
# Reading back what the sink gave

The sink's operation is the last one of a pass. Its values are coerced to the types of the sink's
input ports, and go to slots that no other step writes. If these types are the ones that are read,
reading finds each value as it was written, or nothing, which reads as zero. It never falls back
(`Readout.read_of_fits`), since to take the data of a value and to coerce the value come to the same
(`ValueType.value_as`). `Invocation.Readback` says what is then read, and `OpTable.readback` says it
of every pass that comes to its end.

The types of the ports have to be the ones that are read as far as there are ports. A sink with
fewer ports than are read has zeros for the rest, and one with more has slots that are not read.
-/

namespace NodeGraph

/-! ## Coerced values -/

/-- The data of a coerced value makes up the coerced value. -/
theorem ValueType.value_as (ty : ValueType) (v : Value) : ty.value (v.as ty) = v.convert ty := by
  cases ty <;> cases v <;> rfl

namespace Value

variable {v : Value} {ty : ValueType}

/-- A coerced value has the type that it was coerced to. -/
theorem type?_convert (v : Value) (ty : ValueType) : (v.convert ty).type? = some ty := by
  unfold convert
  cases h : v.convert? ty with
  | none => exact ty.type?_zero
  | some w => exact type?_of_convert? h

/-- A value of a type stays as it is when it is coerced to it. -/
theorem convert?_of_type? (h : v.type? = some ty) : v.convert? ty = some v := by
  have hpresent : v.isAbsent = false := by
    cases v with
    | absent => cases h
    | _ => rfl
  rw [convert?, hpresent, if_neg Bool.false_ne_true, if_pos h]

/-- To coerce a value again changes nothing, so that it does not matter that values are coerced when
they are written and again when they are read. -/
theorem convert_convert (v : Value) (ty : ValueType) :
    (v.convert ty).convert ty = v.convert ty := by
  rw [convert, convert?_of_type? (type?_convert v ty), Option.getD_some]

end Value

namespace Context

/-- The value that a coercion to a type gives is the same in every context. -/
theorem result_convert (v : Value) (ty : ValueType) (c : Context) :
    (convert v ty c).result = v.convert ty := by
  unfold convert Value.convert
  cases v.convert? ty with
  | none => rfl
  | some w => rfl

/-- What values are coerced to, one by one and in whatever context. -/
theorem result_convertAll (types : List ValueType) (vs : List Value) (c : Context) :
    (convertAll types vs c).result = List.zipWith (fun ty v => v.convert ty) types vs := by
  induction types generalizing vs c with
  | nil => rfl
  | cons ty types ih =>
    cases vs with
    | nil => rfl
    | cons v vs =>
      show (convert v ty c).result :: (convertAll types vs _).result = _
      rw [result_convert, ih, List.zipWith_cons_cons]

/-- To take the data of nothing or of a value of the type leaves the context as it is. -/
theorem coerce_of_fits {v : Value} {ty : ValueType} (h : v.Fits ty) :
    coerce ty v = return v.as ty := by
  have hsome : ∃ payload, v.as? ty = some payload := by
    rcases h with rfl | h
    · cases ty <;> exact ⟨_, rfl⟩
    · cases v <;> cases h <;> exact ⟨_, rfl⟩
  obtain ⟨payload, hpayload⟩ := hsome
  rw [coerce, Value.as, hpayload]
  rfl

end Context

namespace Readout

/-- The types of the three values that are read, in order. -/
def types : List ValueType :=
  [.scalar, .vector2, .vector3]

/-- The results of a pass as values, in order, so that they can be told by position. -/
def values (r : Readout) : List Value :=
  [.scalar r.scalar, .vector2 r.vector2, .vector3 r.vector3]

/-- If the first ports of a node have the types that are read, each has its own. -/
theorem type_eq {n : Node} (h : (n.inputs.map (·.type)).take 3 <+: types) {k : Nat} {port : Port}
    {ty : ValueType} (hport : n.inputs[k]? = some port) (hk : types[k]? = some ty) :
    port.type = ty := by
  have hlt : k < 3 := (List.getElem?_eq_some_iff.1 hk).1
  have htype : ((n.inputs.map (·.type)).take 3)[k]? = some port.type := by
    rw [List.getElem?_take_of_lt hlt, List.getElem?_map, hport]
    rfl
  obtain ⟨rest, hrest⟩ := h
  rw [← hrest, List.getElem?_append_left (List.getElem?_eq_some_iff.1 htype).1, htype] at hk
  exact Option.some.inj hk

/-- The value of the sink's slot at a position. -/
theorem sinkValue_eq {sink : Step} {store : SlotStore} {k : Nat} {d : Destination} {v : Value}
    (hd : sink.results[k]? = some d) (hv : store.values[d.slot.index]? = some v) :
    sinkValue sink store k = v := by
  rw [sinkValue, hd]
  dsimp only
  rw [hv, Option.getD_some]

/-- If the sink's slots have nothing or values of the types that are read, these values are read as
they are, and the context stays as it is. -/
theorem read_of_fits {p : Plan} {sink : Step} {store : SlotStore} (hsink : p.sink? = some sink)
    (h : ∀ k ty, types[k]? = some ty → (sinkValue sink store k).Fits ty) (c : Context) :
    (read p store c).state = c ∧ (read p store c).events = [] ∧
      ∀ k ty, types[k]? = some ty →
        (read p store c).result.values[k]? = some ((sinkValue sink store k).convert ty) := by
  have hread : read p store =
      return ⟨(sinkValue sink store 0).as .scalar, (sinkValue sink store 1).as .vector2,
        (sinkValue sink store 2).as .vector3⟩ := by
    rw [read, hsink]
    dsimp only
    rw [Context.coerce_of_fits (h 0 .scalar rfl), Context.coerce_of_fits (h 1 .vector2 rfl),
      Context.coerce_of_fits (h 2 .vector3 rfl)]
    rfl
  rw [hread]
  refine ⟨rfl, rfl, fun k ty hk => ?_⟩
  rcases k with _ | _ | _ | k
  · cases hk
    exact congrArg some (ValueType.value_as .scalar _)
  · cases hk
    exact congrArg some (ValueType.value_as .vector2 _)
  · cases hk
    exact congrArg some (ValueType.value_as .vector3 _)
  · cases hk

end Readout

/-! ## Values in slots -/

/-- A slot is given by its index. -/
theorem Slot.eq_of_index_eq {slot slot' : Slot} (h : slot.index = slot'.index) : slot = slot' := by
  cases slot
  cases slot'
  exact congrArg mk h

namespace SlotStore

/-- Slots in which no value is put stay as they are. -/
theorem getElem?_setAll_of_notMem {slots : List Slot} {slot : Slot} (h : slot ∉ slots)
    (store : SlotStore) (vs : List Value) :
    (store.setAll slots vs).values[slot.index]? = store.values[slot.index]? := by
  fun_induction setAll store slots vs with
  | case1 store first slots v vs ih =>
    obtain ⟨hne, hslots⟩ := not_or.1 (mt List.mem_cons.2 h)
    rw [ih hslots, List.getElem?_set_ne fun heq => hne (Slot.eq_of_index_eq heq).symm]
  | case2 => rfl

/-- If slots are distinct, each has the value that was put in it, or the one that it had if there
was none for it. -/
theorem getElem?_setAll {slots : List Slot} (hnodup : slots.Nodup) {k : Nat} {slot : Slot}
    (hslot : slots[k]? = some slot) {store : SlotStore} (hlt : slot.index < store.size)
    (vs : List Value) :
    (store.setAll slots vs).values[slot.index]? = vs[k]?.or store.values[slot.index]? := by
  fun_induction setAll store slots vs generalizing k with
  | case1 store first slots v vs ih =>
    obtain ⟨hfirst, hnodup⟩ := List.nodup_cons.1 hnodup
    cases k with
    | zero =>
      cases hslot
      rw [getElem?_setAll_of_notMem hfirst, List.getElem?_set_self hlt]
      rfl
    | succ k =>
      have hne : first.index ≠ slot.index := fun heq =>
        hfirst (Slot.eq_of_index_eq heq ▸ List.mem_of_getElem? hslot)
      rw [ih hnodup hslot (by simpa [size] using hlt), List.getElem?_set_ne hne]
      rfl
  | case2 slots store vs hempty =>
    cases vs with
    | nil => rfl
    | cons v vs =>
      cases slots with
      | nil => cases hslot
      | cons first slots => exact (hempty first slots v vs rfl rfl).elim

end SlotStore

/-! ## The last invocation of a pass -/

namespace Step

variable {t : OpTable} {s : Step} {f : Frame} {i : Invocation}

/-- A step invokes its operation with the values of its operands. -/
theorem inputs_of_invocation? (h : s.invocation? t f = some i) :
    s.operands.mapM (Operand.value f.store) = .ok i.inputs := by
  unfold invocation? at h
  obtain ⟨operation, -, h⟩ := Option.bind_eq_some_iff.1 h
  obtain ⟨inputs, hinputs, h⟩ := Option.bind_eq_some_iff.1 h
  cases h
  cases hvalues : s.operands.mapM (Operand.value f.store) with
  | error fault =>
    rw [hvalues] at hinputs
    cases hinputs
  | ok vs =>
    rw [hvalues] at hinputs
    cases hinputs
    rfl

/-- If steps come to their end, the last one of them has made the last invocation, in the frame that
the others left, and the frame that all leave has its values. -/
theorem exists_last_invocation {steps : List Step}
    (h : (executeAll t (steps ++ [s]) f).result = none) :
    ∃ i, (invocations t (steps ++ [s]) f).getLast? = some i ∧ i.step = s ∧ i.Of t ∧
      i.frame = (executeAll t steps f).state ∧
      s.operands.mapM (Operand.value i.frame.store) = .ok i.inputs ∧
      (executeAll t (steps ++ [s]) f).state = i.written.state := by
  induction steps generalizing f with
  | nil =>
    have hone : executeAll t [s] f = (s.execute t f).andThen (executeAll t []) := rfl
    rw [List.nil_append, hone] at h ⊢
    rcases execute_cases t s f with ⟨-, scratch, fault, hexecute⟩ | ⟨i, hi, rfl, rfl, hof, hexecute⟩
    · rw [hexecute, Progress.andThen_of_some rfl] at h
      cases h
    · cases hresult : (i.step.execute t i.frame).result with
      | some fault =>
        rw [Progress.andThen_of_some hresult, hresult] at h
        cases h
      | none =>
        rw [invocations, hi, hresult, Progress.andThen_of_none hresult, hexecute]
        exact ⟨i, rfl, rfl, hof, rfl, inputs_of_invocation? hi, rfl⟩
  | cons first steps ih =>
    rw [List.cons_append, executeAll] at h
    cases hresult : (first.execute t f).result with
    | some fault =>
      rw [Progress.andThen_of_some hresult, hresult] at h
      cases h
    | none =>
      rw [Progress.andThen_of_none hresult] at h
      obtain ⟨i, hlast, hstep, hof, hframe, hinputs, hstate⟩ := ih h
      refine ⟨i, ?_, hstep, hof, ?_, hinputs, ?_⟩
      · rw [List.cons_append, invocations, hresult, Option.isNone_none, if_pos rfl,
          List.getLast?_append, hlast]
        rfl
      · rw [executeAll, Progress.andThen_of_none hresult]
        exact hframe
      · rw [List.cons_append, executeAll, Progress.andThen_of_none hresult]
        exact hstate

end Step

namespace Invocation

variable {i : Invocation}

/-- If the destinations of a step have different slots, each slot has the value that the operation
gave for it, coerced, or what it had if there was none. -/
theorem getElem?_written (hnodup : i.step.writes.Nodup)
    (hfits : ∀ d ∈ i.step.results, d.slot.index < i.frame.store.size) {k : Nat} {d : Destination}
    (hd : i.step.results[k]? = some d) :
    i.written.state.store.values[d.slot.index]? =
      (i.outcome.result[k]?.map (·.convert d.type)).or i.frame.store.values[d.slot.index]? := by
  have hslot : i.step.writes[k]? = some d.slot := by
    rw [Step.writes, List.getElem?_map, hd]
    rfl
  have hvalues : (List.zipWith (fun ty v => Value.convert v ty) (i.step.results.map (·.type))
      i.outcome.result)[k]? = i.outcome.result[k]?.map (·.convert d.type) := by
    rw [List.getElem?_zipWith, List.getElem?_map, hd]
    cases i.outcome.result[k]? <;> rfl
  rw [written, Destination.writeAll_eq]
  · show (i.frame.store.setAll i.step.writes _).values[d.slot.index]? = _
    rw [SlotStore.getElem?_setAll hnodup hslot (hfits d (List.mem_of_getElem? hd)),
      Context.result_convertAll, hvalues]
  · exact hfits

/-- What a store has in the sink's slots after the invocation of a sink, and what is read of it. -/
structure Readback (n : Node) (i : Invocation) (store : SlotStore) (r : Readout) : Prop where
  /-- Where the operation gave a value for a port, the port's slot has the coerced value, and this
  is what is read. -/
  given : ∀ (k : Nat) (ty : ValueType) (port : Port) (v : Value), Readout.types[k]? = some ty →
    n.inputs[k]? = some port → i.outcome.result[k]? = some v →
    ∃ d : Destination, i.step.results[k]? = some d ∧ d.type = port.type ∧
      store.get d.slot = .ok (v.convert port.type) ∧ r.values[k]? = some (v.convert port.type)
  /-- Where the operation gave no value for a port, the port's slot has nothing, and a zero is
  read. -/
  missing : ∀ (k : Nat) (ty : ValueType) (port : Port), Readout.types[k]? = some ty →
    n.inputs[k]? = some port → i.outcome.result[k]? = none →
    ∃ d : Destination, i.step.results[k]? = some d ∧ d.type = port.type ∧
      store.get d.slot = .ok .absent ∧ r.values[k]? = some ty.zero
  /-- Where there is no port, there is no slot either, and a zero is read. -/
  unported : ∀ (k : Nat) (ty : ValueType), Readout.types[k]? = some ty → n.inputs[k]? = none →
    i.step.results[k]? = none ∧ r.values[k]? = some ty.zero

/-- If the slots of the sink's ports have the coerced values that the operation gave, or nothing,
and the ports have the types that are read, then this is what is read, and the context stays as it
is. -/
theorem readback_of_slots {n : Node} {p : Plan} {store : SlotStore} (hsink : p.sink? = some i.step)
    (htypes : (n.inputs.map (·.type)).take 3 <+: Readout.types)
    (hports : ∀ k : Nat, n.inputs[k]? = none → i.step.results[k]? = none)
    (hslots : ∀ (k : Nat) (port : Port), n.inputs[k]? = some port →
      ∃ d : Destination, i.step.results[k]? = some d ∧ d.type = port.type ∧
        store.values[d.slot.index]? =
          some ((i.outcome.result[k]?.map (·.convert port.type)).getD .absent)) (c : Context) :
    let read := Readout.read p store c
    i.Readback n store read.result ∧ read.state = c ∧ read.events = [] := by
  have hnone {k : Nat} (hport : n.inputs[k]? = none) :
      Readout.sinkValue i.step store k = .absent := by
    rw [Readout.sinkValue, hports k hport]
  have hfits : ∀ k ty, Readout.types[k]? = some ty →
      (Readout.sinkValue i.step store k).Fits ty := by
    intro k ty hk
    cases hport : n.inputs[k]? with
    | none => exact .inl (hnone hport)
    | some port =>
      obtain ⟨d, hd, -, hvalue⟩ := hslots k port hport
      rw [Readout.sinkValue_eq hd hvalue, Readout.type_eq htypes hport hk]
      cases i.outcome.result[k]? with
      | none => exact .inl rfl
      | some v => exact .inr (v.type?_convert ty)
  obtain ⟨hstate, hevents, hvalues⟩ := Readout.read_of_fits hsink hfits c
  refine ⟨⟨?_, ?_, ?_⟩, hstate, hevents⟩
  · intro k ty port v hk hport hv
    obtain ⟨d, hd, htype, hvalue⟩ := hslots k port hport
    rw [hv, Option.map_some, Option.getD_some] at hvalue
    refine ⟨d, hd, htype, by rw [SlotStore.get, hvalue], ?_⟩
    rw [hvalues k ty hk, Readout.sinkValue_eq hd hvalue, Readout.type_eq htypes hport hk,
      Value.convert_convert]
  · intro k ty port hk hport hv
    obtain ⟨d, hd, htype, hvalue⟩ := hslots k port hport
    rw [hv, Option.map_none, Option.getD_none] at hvalue
    refine ⟨d, hd, htype, by rw [SlotStore.get, hvalue], ?_⟩
    rw [hvalues k ty hk, Readout.sinkValue_eq hd hvalue]
    rfl
  · intro k ty hk hport
    refine ⟨hports k hport, ?_⟩
    rw [hvalues k ty hk, hnone hport]
    rfl

end Invocation

/-- The invocation that the sink of a schedule makes in a pass, after the steps of the other
nodes. -/
structure Invocation.OfSink (g : Graph) (init : List Node) (sink : Node) (t : OpTable) (f : Frame)
    (i : Invocation) : Prop where
  step : i.step = g.stepIn (g.portsOf (init ++ [sink])) sink
  frame : i.frame = (Step.executeAll t (init.map (g.stepIn (g.portsOf (init ++ [sink]))))
    ((g.planOn init sink).prepare f)).state
  inputs : i.step.operands.mapM (Operand.value i.frame.store) = .ok i.inputs

section Sink

variable {g : Graph} {init : List Node} {sink : Node} {t : OpTable} {f : Frame} {i : Invocation}

/-- A pass that comes to its end invokes the sink last, and leaves what its values make of the
frame. -/
theorem Graph.exists_sink_invocation (h : ((g.planOn init sink).pass t f).result = none) :
    ∃ i, (Step.invocations t (g.planOn init sink).steps ((g.planOn init sink).prepare f)).getLast? =
        some i ∧ i.Of t ∧ i.OfSink g init sink t f ∧
      ((g.planOn init sink).pass t f).state = i.written.state := by
  have hsteps : (g.planOn init sink).steps =
      init.map (g.stepIn (g.portsOf (init ++ [sink]))) ++
        [g.stepIn (g.portsOf (init ++ [sink])) sink] := by
    rw [planOn, List.map_append, List.map_singleton]
  rw [Plan.pass, hsteps] at h ⊢
  obtain ⟨i, hlast, hstep, hof, hframe, hinputs, hstate⟩ := Step.exists_last_invocation h
  exact ⟨i, hlast, hof, ⟨hstep, hframe, hstep ▸ hinputs⟩, hstate⟩

namespace Invocation.OfSink

/-- The slots of the sink are within the store, since it has one for each of the sink's ports. -/
theorem fits (hi : i.OfSink g init sink t f) : i.step.Fits i.frame.store.size := by
  have hsize : i.frame.store.size = (g.planOn init sink).slotCount := by
    rw [hi.frame, Step.size_executeAll, Plan.size_prepare]
  rw [hsize, hi.step]
  exact Graph.fits_stepIn (fun port hport => Graph.mem_portsOf.2 ⟨sink, by simp, hport⟩)
    fun _ => rfl

/-- The steps before the sink's leave its slots empty. They write to slots of ports, and those of
the sink come after these. -/
theorem getElem?_frame (hi : i.OfSink g init sink t f) (h : g.Schedule init sink) {slot : Slot}
    (hslot : slot ∈ i.step.writes) : i.frame.store.values[slot.index]? = some .absent := by
  rw [hi.step] at hslot
  have hothers : ∀ s ∈ init.map (g.stepIn (g.portsOf (init ++ [sink]))), slot ∉ s.writes := by
    have hdisjoint := h.pairwise_writes_planOn
    rw [Graph.planOn, List.map_append, List.pairwise_append] at hdisjoint
    exact fun s hs hmem => hdisjoint.2.2 s hs _ (List.mem_singleton_self _) slot hmem hslot
  rw [hi.frame, Step.getElem?_executeAll t hothers, Plan.store_prepare]
  rw [Graph.writes_stepIn_of_isSink g _ h.isSink] at hslot
  obtain ⟨k, hk, rfl⟩ := List.mem_map.1 hslot
  exact List.getElem?_replicate_of_lt (Nat.add_lt_add_left (List.mem_range.1 hk) _)

/-- The sink has a destination for each of its ports, and these are in the last slots of the store
in turn. -/
theorem results (hi : i.OfSink g init sink t f) (h : g.Schedule init sink) (k : Nat) :
    i.step.results[k]? = sink.inputs[k]?.map fun port =>
      ⟨⟨(g.portsOf (init ++ [sink])).length + k⟩, port.type⟩ := by
  rw [hi.step, Graph.getElem?_results_stepIn, Node.resultPorts, h.isSink, if_pos rfl]
  rfl

/-- After the invocation of the sink, the slot of a port has the coerced value that the operation
gave for the port, or nothing. -/
theorem getElem?_written (hi : i.OfSink g init sink t f) (h : g.Schedule init sink) {k : Nat}
    {port : Port} (hport : sink.inputs[k]? = some port) :
    ∃ d : Destination, i.step.results[k]? = some d ∧ d.type = port.type ∧
      i.written.state.store.values[d.slot.index]? =
        some ((i.outcome.result[k]?.map (·.convert port.type)).getD .absent) := by
  have hfits := List.forall_mem_map.1 hi.fits.writes
  -- The slots of the sink go on from those of the ports, one for each of its inputs.
  have hnodup : i.step.writes.Nodup := by
    rw [hi.step, Graph.writes_stepIn_of_isSink g _ h.isSink]
    refine List.nodup_range.map fun k k' heq => ?_
    exact Nat.add_left_cancel (congrArg Slot.index heq)
  have hresult := hi.results h k
  rw [hport, Option.map_some] at hresult
  have hslot := hi.getElem?_frame h (List.mem_map.2 ⟨_, List.mem_of_getElem? hresult, rfl⟩)
  refine ⟨_, hresult, rfl, ?_⟩
  rw [Invocation.getElem?_written hnodup hfits hresult, hslot]
  cases i.outcome.result[k]? <;> rfl

/-- Where no wire arrives at an input of the sink and it has no literal, the operation takes
nothing. -/
theorem getElem?_inputs (hi : i.OfSink g init sink t f) (h : g.Schedule init sink) {k : Nat}
    {port : Port} (hport : sink.inputs[k]? = some port)
    (hwires : ∀ w ∈ g.wires, w.target ≠ sink.ref port) (hliteral : sink.literal k = .absent) :
    i.inputs[k]? = some .absent := by
  have htakes : sink.op.takesInputs := by
    have hop : sink.op = .sink := of_decide_eq_true h.isSink
    rw [hop]
    rfl
  have hsource : g.source? (sink.ref port) = none := by
    cases hsource : g.source? (sink.ref port) with
    | none => rfl
    | some source =>
      obtain ⟨w, hw, htarget, -⟩ := h.checked.source?_eq_some_iff.1 hsource
      exact absurd htarget (hwires w hw)
  have hinputs := hi.inputs
  rw [Operand.mapM_value hi.fits.reads] at hinputs
  rw [← Except.ok.inj hinputs, List.getElem?_map, hi.step, Graph.getElem?_operands_stepIn htakes,
    hport, Option.map_some, Graph.operandIn, hsource, hliteral]
  rfl

/-- The built-in operation of the sink gives what it takes. -/
theorem result_of_passAll (hi : i.OfSink g init sink t f) (h : g.Schedule init sink) (hof : i.Of t)
    {e : OpEntry} (he : t.find? .sink = some e) (hoperation : e.operation = Operation.passAll) :
    i.outcome.result = i.inputs := by
  have hop : i.step.op = .sink := by
    rw [hi.step]
    exact of_decide_eq_true h.isSink
  obtain ⟨e', he', hof⟩ := hof
  rw [hop] at he'
  cases he'.symm.trans he
  rw [outcome, hof, hoperation]
  rfl

/-- A value that the operation gives for a port of the sink is coerced to the type of the port. -/
theorem getElem?_writes (hi : i.OfSink g init sink t f) (h : g.Schedule init sink) {k : Nat}
    {port : Port} {v : Value} (hport : sink.inputs[k]? = some port)
    (hv : i.outcome.result[k]? = some v) : i.writes[k]? = some ⟨v, port.type⟩ := by
  rw [writes, Destination.coercions_eq_zipWith (List.forall_mem_map.1 hi.fits.writes),
    List.getElem?_zipWith, hi.results h, hport, hv]
  rfl

end Invocation.OfSink

end Sink

/-- After a pass that comes to its end, with whatever operations, what is read are the values that
the sink's operation gave, coerced once to the types of the ports, and zeros where there is none.
Reading leaves the context as it is. If the sink's operation gives what it takes, an input without a
wire and without a literal reads as zero, and to write it is no fallback either. -/
theorem OpTable.readback {t : OpTable} {g : Graph} {p : Plan} (h : t.plan g = .ok p) {n : Node}
    (hn : n ∈ g.nodes) (hsink : n.op.isSink)
    (htypes : (n.inputs.map (·.type)).take 3 <+: Readout.types) {t' : OpTable} {f : Frame}
    (hpass : (p.pass t' f).result = none) :
    let run := p.pass t' f
    let read := Readout.read p run.state.store run.state.context
    ∃ i, (Step.invocations t' p.steps (p.prepare f)).getLast? = some i ∧ i.Of t' ∧
      p.sink? = some i.step ∧ i.step.node = n.id ∧
      i.step.operands.mapM (Operand.value i.frame.store) = .ok i.inputs ∧
      i.Readback n run.state.store read.result ∧
      read.state = run.state.context ∧ read.events = [] ∧
      ∀ e, t'.find? .sink = some e → e.operation = Operation.passAll →
        i.outcome.result = i.inputs ∧
        ∀ (k : Nat) (ty : ValueType) (port : Port), Readout.types[k]? = some ty →
          n.inputs[k]? = some port → (∀ w ∈ g.wires, w.target ≠ n.ref port) →
          n.literal k = .absent →
          i.writes[k]? = some ⟨.absent, ty⟩ ∧ (Coercion.mk .absent ty).isLossy = false ∧
            read.result.values[k]? = some ty.zero := by
  obtain ⟨init, sink, hschedule, -, rfl⟩ := Graph.plan_eq_ok_iff.1 h
  -- A graph with a plan has one sink only.
  obtain rfl : n = sink := by
    have hmem : n ∈ g.nodes.filter (·.op.isSink) := List.mem_filter.2 ⟨hn, hsink⟩
    rw [hschedule.only] at hmem
    exact List.mem_singleton.1 hmem
  intro run read
  obtain ⟨i, hlast, hof, hi, hstate⟩ := Graph.exists_sink_invocation hpass
  have hlastStep : (g.planOn init n).sink? = some i.step := by
    rw [Plan.sink?, Graph.planOn, List.map_append, List.map_singleton, List.getLast?_concat,
      hi.step]
  have hports (k : Nat) (hport : n.inputs[k]? = none) : i.step.results[k]? = none := by
    rw [hi.results hschedule, hport, Option.map_none]
  have hslots (k : Nat) (port : Port) (hport : n.inputs[k]? = some port) :=
    hi.getElem?_written hschedule hport
  rw [← hstate] at hslots
  obtain ⟨hread, hcontext, hevents⟩ :=
    Invocation.readback_of_slots hlastStep htypes hports hslots run.state.context
  have hnode : i.step.node = n.id := by
    rw [hi.step]
    rfl
  refine ⟨i, hlast, hof, hlastStep, hnode, hi.inputs, hread, hcontext, hevents, ?_⟩
  intro e he hoperation
  have hgiven := hi.result_of_passAll hschedule hof he hoperation
  refine ⟨hgiven, fun k ty port hk hport hwires hliteral => ?_⟩
  have hinput := hi.getElem?_inputs hschedule hport hwires hliteral
  rw [← hgiven] at hinput
  obtain ⟨-, -, -, -, hvalue⟩ := hread.given k ty port .absent hk hport hinput
  have htype := Readout.type_eq htypes hport hk
  have hwrite := hi.getElem?_writes hschedule hport hinput
  rw [htype] at hvalue hwrite
  exact ⟨hwrite, rfl, hvalue⟩

/-- An integer and a truth value are wired to the first and the third of the sink's inputs. The
second one has no wire and no literal. -/
def Graph.halfWired : Graph where
  nodes :=
    [{ id := ⟨1⟩, op := .sink,
       ports := [.input 0 "a" .scalar, .input 1 "b" .vector2, .input 2 "c" .vector3,
         .input 3 "d" .bool] },
     { id := ⟨2⟩, op := .constant .integer, ports := [.output 0 "n" .integer],
       literals := [.integer 7] },
     { id := ⟨3⟩, op := .constant .bool, ports := [.output 0 "b" .bool], literals := [.bool true] }]
  wires := [⟨⟨⟨2⟩, 0⟩, ⟨⟨1⟩, 0⟩⟩, ⟨⟨⟨3⟩, 0⟩, ⟨⟨1⟩, 2⟩⟩]

/-- The plan of `Graph.halfWired`. The sink reads the second of its inputs from a literal, which is
absent. -/
def Plan.halfWired : Plan where
  steps :=
    [{ node := ⟨2⟩, op := .constant .integer, operands := [.literal (.integer 7)],
       results := [⟨⟨0⟩, .integer⟩], parameter := none },
     { node := ⟨3⟩, op := .constant .bool, operands := [.literal (.bool true)],
       results := [⟨⟨1⟩, .bool⟩], parameter := none },
     { node := ⟨1⟩, op := .sink,
       operands := [.slot ⟨0⟩, .literal .absent, .slot ⟨1⟩, .literal .absent],
       results := [⟨⟨2⟩, .scalar⟩, ⟨⟨3⟩, .vector2⟩, ⟨⟨4⟩, .vector3⟩, ⟨⟨5⟩, .bool⟩],
       parameter := none }]
  parameters := []
  slotCount := 6
  nodeCount := 3

/-- The integer is read as a scalar. The truth value is no vector, which counts when it is written,
and not again when a zero is read in its place. The input without a wire is no fallback at all. -/
theorem OpTable.readback_halfWired :
    let run := Plan.halfWired.pass .builtin { store := {}, context := .ofSeed 0 }
    let read := Readout.read .halfWired run.state.store run.state.context
    OpTable.builtin.plan .halfWired = .ok .halfWired ∧ run.result = none ∧
      read.result.values = [.scalar 7, .vector2 ⟨0, 0⟩, .vector3 ⟨0, 0, 0⟩] ∧
      read.state = run.state.context ∧ read.state.tally = ⟨1, 1⟩ ∧
      ∃ i : Invocation, i.step.node = ⟨1⟩ ∧ i.outcome.result = i.inputs ∧
        i.writes[1]? = some ⟨.absent, .vector2⟩ ∧
        (Coercion.mk .absent .vector2).isLossy = false := by
  intro run read
  have hplan : OpTable.builtin.plan .halfWired = .ok .halfWired := by decide +kernel
  have hpass : run.result = none := by decide +kernel
  obtain ⟨i, -, -, -, hnode, -, -, hstate, -, hbuiltin⟩ :=
    OpTable.readback hplan (n := Graph.halfWired.nodes.head (by decide)) (by decide) rfl (by decide)
      hpass
  obtain ⟨hgiven, hunwired⟩ := hbuiltin _ rfl rfl
  obtain ⟨hwrite, hlossy, -⟩ := hunwired 1 .vector2 _ rfl rfl (by decide) rfl
  exact ⟨hplan, hpass, by decide +kernel, hstate, by decide +kernel, i, hnode, hgiven, hwrite,
    hlossy⟩

end NodeGraph
