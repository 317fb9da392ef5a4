import NodeGraph.Proofs.Pass.Faults
import NodeGraph.Proofs.Pass.Remains
import NodeGraph.Proofs.Plan.Wiring

/-!
# The types of carried values

Whatever operations give, a slot holds nothing or a value of the type of a destination that some
step writes to it (`Step.typed_executeAll`). A wire's slot is written for every output port of the
source node with the wire's port number, and for no other. So the value that arrives at the end of a
wire has the type of the port that the wire was checked against if these ports are all of one type,
and only then are operations bound to it: `OpTable.carried_type_iff`.

For the second half there is a table whose operations give a certain number of absent values
(`Plan.blanks`). The last of these is written as the zero of the type of the port at that place, so
that any port of the source node with the wire's number can be made the one whose type the value
has.
-/

namespace NodeGraph

open SlotPool

/-- Whether there is no value, or one of the given type. -/
def Value.Fits (v : Value) (ty : ValueType) : Prop :=
  v = .absent ∨ v.type? = some ty

/-- The zero of a type fits no other type, as it is present. -/
theorem ValueType.fits_zero_iff {ty ty' : ValueType} : ty.zero.Fits ty' ↔ ty = ty' := by
  constructor
  · rintro (h | h)
    · cases ty <;> cases h
    · exact Option.some.inj (ty.type?_zero.symm.trans h)
  · rintro rfl
    exact .inr ty.type?_zero

namespace Context

/-- Absent values become zeros of the types, as far as there are types. -/
theorem result_convertAll_replicate (types : List ValueType) (size : Nat) (c : Context) :
    (convertAll types (List.replicate size .absent) c).result =
      (types.take size).map ValueType.zero := by
  induction types generalizing size c with
  | nil => cases size <;> rfl
  | cons ty types ih =>
    cases size with
    | zero => rfl
    | succ size =>
      show (convert .absent ty c).result :: (convertAll types _ _).result = _
      rw [ih]
      rfl

end Context

namespace SlotStore

/-- Whether every slot holds nothing, or a value of the type of one of its destinations. -/
def Typed (ds : List Destination) (store : SlotStore) : Prop :=
  ∀ i v, store.values[i]? = some v →
    v = .absent ∨ ∃ d ∈ ds, d.slot.index = i ∧ v.type? = some d.type

/-- The slots of a new store hold nothing, and fit any destinations. -/
theorem typed_ofSize (ds : List Destination) (size : Nat) : (ofSize size).Typed ds := by
  intro i v hv
  exact .inl (List.eq_of_mem_replicate (List.mem_of_getElem? hv))

/-- The last of the values that are put in slots is there afterwards, even if an earlier one was put
in the same slot. -/
theorem getElem?_setAll_last {store : SlotStore} {slots : List Slot} {slot : Slot} {vs : List Value}
    {v : Value} (hslot : slots[vs.length]? = some slot) (hlt : slot.index < store.size) :
    (store.setAll slots (vs ++ [v])).values[slot.index]? = some v := by
  induction vs generalizing store slots with
  | nil =>
    cases slots with
    | nil => cases hslot
    | cons s slots =>
      cases hslot
      cases slots <;> exact List.getElem?_set_self hlt
  | cons v' vs ih =>
    cases slots with
    | nil => cases hslot
    | cons s slots => exact ih hslot (by simpa [size] using hlt)

end SlotStore

namespace Step

/-- Steps keep a store typed by their destinations, whatever operations give and whether or not a
fault stops them. -/
theorem typed_executeAll (t : OpTable) {ds : List Destination} {steps : List Step}
    (hsteps : ∀ s ∈ steps, ∀ d ∈ s.results, d ∈ ds) {f : Frame} (hf : f.store.Typed ds) :
    (executeAll t steps f).state.store.Typed ds := by
  refine executeAll_keeps t (fun s hs d hd store w hw htyped i v hv => ?_) hf
  by_cases hi : d.slot.index = i
  · have hlt : d.slot.index < store.values.length := by
      have hlt := (List.getElem?_eq_some_iff.1 hv).1
      rwa [List.length_set, ← hi] at hlt
    rw [← hi, List.getElem?_set_self hlt] at hv
    cases hv
    exact .inr ⟨d, hsteps s hs d hd, hi, hw⟩
  · rw [List.getElem?_set_ne hi] at hv
    exact htyped i v hv

/-- Steps leave the slots alone that they do not write. -/
theorem getElem?_executeAll (t : OpTable) {steps : List Step} {slot : Slot}
    (hsteps : ∀ s ∈ steps, slot ∉ s.writes) (f : Frame) :
    (executeAll t steps f).state.store.values[slot.index]? = f.store.values[slot.index]? := by
  refine executeAll_keeps (P := fun store => store.values[slot.index]? = _) t
    (fun s hs d hd store w _ hkept => ?_) rfl
  have hne : d.slot.index ≠ slot.index := by
    intro heq
    refine hsteps s hs (List.mem_map.2 ⟨d, hd, ?_⟩)
    cases slot
    exact congrArg Slot.mk heq
  rw [List.getElem?_set_ne hne, hkept]

end Step

namespace Plan

variable {p : Plan} {t : OpTable} {f : Frame} {s : Step} {k : Nat} {v : Value}

/-- In a pass, a step's operation takes a value as an input if the operand there has that value when
the steps before have been executed. -/
def Takes (p : Plan) (t : OpTable) (f : Frame) (s : Step) (k : Nat) (v : Value) : Prop :=
  ∃ before after vs, p.steps = before ++ s :: after ∧
    s.operands.mapM (Operand.value (Step.executeAll t before (p.prepare f)).state.store) = .ok vs ∧
    vs[k]? = some v

/-- What a step takes, if its slots fit: the values that its operands have then. -/
theorem takes_iff (hfits : ∀ s ∈ p.steps, s.Fits p.slotCount) :
    p.Takes t f s k v ↔ ∃ before after, p.steps = before ++ s :: after ∧
      s.operands[k]?.map (Operand.fetch (Step.executeAll t before (p.prepare f)).state.store) =
        some v := by
  have hvalues : ∀ before after, p.steps = before ++ s :: after →
      s.operands.mapM (Operand.value (Step.executeAll t before (p.prepare f)).state.store) =
        .ok (s.operands.map
          (Operand.fetch (Step.executeAll t before (p.prepare f)).state.store)) := by
    intro before after hsteps
    have hsize : (Step.executeAll t before (p.prepare f)).state.store.size = p.slotCount :=
      (Step.size_executeAll ..).trans (p.size_prepare f)
    have hs : s ∈ p.steps := hsteps ▸ List.mem_append_right _ (List.mem_cons_self ..)
    exact Operand.mapM_value fun slot hslot => hsize ▸ (hfits s hs).reads slot hslot
  constructor
  · rintro ⟨before, after, vs, hsteps, hvs, hv⟩
    rw [hvalues before after hsteps] at hvs
    cases hvs
    exact ⟨before, after, hsteps, by rwa [List.getElem?_map] at hv⟩
  · rintro ⟨before, after, hsteps, hv⟩
    exact ⟨before, after, _, hsteps, hvalues before after hsteps, by rwa [List.getElem?_map]⟩

/-- The table in which each operation of a plan gives so many absent values. -/
def blanks (p : Plan) (size : Nat) : OpTable where
  entries := p.steps.map fun s => (s.op, ⟨"blanks", fun _ => return List.replicate size .absent⟩)

/-- The table of blanks has every operation of the plan. -/
theorem find?_blanks (hs : s ∈ p.steps) (size : Nat) :
    (p.blanks size).find? s.op =
      some ⟨"blanks", fun _ => return List.replicate size .absent⟩ := by
  have hsome : ((p.blanks size).entries.find? (·.1 = s.op)).isSome :=
    List.find?_isSome.2 ⟨_, List.mem_map_of_mem hs, by simp⟩
  obtain ⟨entry, hentry⟩ := Option.isSome_iff_exists.1 hsome
  obtain ⟨s', -, rfl⟩ := List.mem_map.1 (List.mem_of_find?_eq_some hentry)
  rw [OpTable.find?, hentry]
  rfl

/-- A pass with the table of blanks comes to its end, from whatever frame. -/
theorem pass_blanks (hfits : ∀ s ∈ p.steps, s.Fits p.slotCount) (size : Nat) (f : Frame) :
    (p.pass (p.blanks size) f).result = none := by
  refine (pass_result_eq_none_iff hfits f).2 fun s hs => ?_
  rw [OpTable.contains, find?_blanks hs]
  rfl

/-- With the table of blanks, after a step the slot of its last result among so many holds the zero
of the result's type. -/
theorem getElem?_execute_blanks {size : Nat} {d : Destination} (hs : s ∈ p.steps)
    (hfits : s.Fits f.store.size) (hd : s.results[size]? = some d) :
    (s.execute (p.blanks (size + 1)) f).state.store.values[d.slot.index]? = some d.type.zero := by
  have hwrites : s.writes[size]? = some d.slot := by rw [Step.writes, List.getElem?_map, hd]; rfl
  have hlt : d.slot.index < f.store.size := hfits.writes d.slot (List.mem_of_getElem? hwrites)
  have hlength : size < s.results.length := (List.getElem?_eq_some_iff.1 hd).1
  have hgiven : ((s.results.map (·.type)).take (size + 1)).map ValueType.zero =
      (s.results.take size).map (·.type.zero) ++ [d.type.zero] := by
    rw [List.take_add_one, List.getElem?_map, hd]
    simp [List.map_take, Function.comp_def]
  rw [Step.execute_of_fits (find?_blanks hs _) hfits]
  show (f.store.setAll s.writes (Context.convertAll _ (List.replicate (size + 1) .absent)
    f.context).result).values[d.slot.index]? = _
  rw [Context.result_convertAll_replicate, hgiven]
  refine SlotStore.getElem?_setAll_last ?_ hlt
  rwa [List.length_map, List.length_take_of_le (Nat.le_of_lt hlength)]

/-- With the table of blanks, the slot holds that zero as long as no other step writes it. -/
theorem getElem?_executeAll_blanks {before after : List Step} {size : Nat} {d : Destination}
    (hsteps : ∀ s' ∈ before ++ s :: after, s' ∈ p.steps ∧ s'.Fits f.store.size)
    (hd : s.results[size]? = some d) (hafter : ∀ s' ∈ after, d.slot ∉ s'.writes) :
    (Step.executeAll (p.blanks (size + 1)) (before ++ s :: after) f).state.store.values[
      d.slot.index]? = some d.type.zero := by
  have hresult : ∀ s' ∈ p.steps, s'.Fits f.store.size →
      (s'.execute (p.blanks (size + 1)) f).result = none := by
    intro s' hs' hfits
    rw [Step.execute_of_fits (find?_blanks hs' _) hfits]
  induction before generalizing f with
  | nil =>
    obtain ⟨hs, hfits⟩ := hsteps s (List.mem_cons_self ..)
    rw [List.nil_append, Step.executeAll, Progress.andThen_of_none (hresult s hs hfits)]
    exact (Step.getElem?_executeAll _ hafter _).trans (getElem?_execute_blanks hs hfits hd)
  | cons s' before ih =>
    obtain ⟨hs', hfits⟩ := hsteps s' (List.mem_cons_self ..)
    rw [List.cons_append, Step.executeAll, Progress.andThen_of_none (hresult s' hs' hfits)]
    refine ih (fun s'' hs'' => ?_) fun s'' hs'' hfits'' => ?_
    · rw [Step.size_execute]
      exact hsteps s'' (List.mem_cons_of_mem _ hs'')
    · rw [Step.execute_of_fits (find?_blanks hs'' _) hfits'']

end Plan

namespace Graph.Schedule

variable {g : Graph} {init : List Node} {sink m : Node} {source : PortRef}

/-- A slot of a port at which a node gives its values is written for the ports of that node with the
same number, and for no others. -/
theorem exists_output_of_mem_results (h : g.Schedule init sink) (hm : m ∈ init)
    (hsource : source ∈ m.targets) {s : Step} (hs : s ∈ (g.planOn init sink).steps)
    {d : Destination} (hd : d ∈ s.results)
    (hslot : d.slot = slotIn (g.portsOf (init ++ [sink])) source) :
    ∃ port ∈ m.outputs, port.id = source.port ∧ d.type = port.type := by
  have howner : source ∈ g.portsOf (init ++ [sink]) :=
    mem_portsOf.2 ⟨m, List.mem_append_left _ hm, .inr hsource⟩
  obtain ⟨n, hn, rfl⟩ := List.mem_map.1 hs
  obtain ⟨i, hi⟩ := List.mem_iff_getElem?.1 hd
  rw [getElem?_results_stepIn] at hi
  obtain ⟨port, hport, rfl⟩ := Option.map_eq_some_iff.1 hi
  cases hsink : n.op.isSink with
  | true =>
    rw [hsink] at hslot
    exact absurd hslot.symm (slotIn_ne_of_mem howner i)
  | false =>
    rw [hsink] at hslot
    have href : source = n.ref port := (slotIn_inj howner).1 hslot.symm
    have hid : m.id = n.id := by rw [← node_of_mem_targets hsource, href]; rfl
    obtain rfl : n = m := by
      have hnode := h.node?_eq_some (List.mem_append_left [sink] hm)
      rw [hid, h.node?_eq_some hn] at hnode
      exact Option.some.inj hnode
    rw [Node.resultPorts, hsink] at hport
    exact ⟨port, List.mem_of_getElem? hport, by rw [href]; rfl, rfl⟩

/-- The operand at the end of a wire is the slot of the port where the wire comes from. -/
theorem getElem?_operands_of_source? {n : Node} {port : Port} {k : Nat} (htakes : n.op.takesInputs)
    (hport : n.inputs[k]? = some port) (hsource : g.source? (n.ref port) = some source)
    (ports : List PortRef) :
    (g.stepIn ports n).operands[k]? = some (.slot (slotIn ports source)) := by
  rw [getElem?_operands_stepIn htakes, hport, Option.map_some, operandIn, hsource]

variable {n : Node} {port : Port} {k : Nat}

/-- The value at the end of a wire has the type of the source node's ports with the wire's port
number, if they are of one type. -/
theorem fits_of_takes (h : g.Schedule init sink)
    (hfits : ∀ s ∈ (g.planOn init sink).steps, s.Fits (g.planOn init sink).slotCount)
    (htakes : n.op.takesInputs) (hport : n.inputs[k]? = some port)
    (hsource : g.source? (n.ref port) = some source) (hm : m ∈ init)
    (htarget : source ∈ m.targets) {ty : ValueType}
    (hty : ∀ other ∈ m.outputs, other.id = source.port → other.type = ty) {t : OpTable} {f : Frame}
    {v : Value}
    (hv : (g.planOn init sink).Takes t f (g.stepIn (g.portsOf (init ++ [sink])) n) k v) :
    v.Fits ty := by
  obtain ⟨before, after, hsteps, hv⟩ := (Plan.takes_iff hfits).1 hv
  have htyped : (Step.executeAll t before ((g.planOn init sink).prepare f)).state.store.Typed
      ((g.planOn init sink).steps.flatMap Step.results) := by
    refine Step.typed_executeAll t (fun s hs d hd => ?_) ?_
    · rw [hsteps]
      exact List.mem_flatMap.2 ⟨s, List.mem_append_left _ hs, hd⟩
    · rw [Plan.store_prepare]
      exact SlotStore.typed_ofSize _ _
  rw [getElem?_operands_of_source? htakes hport hsource, Option.map_some, Option.some.injEq,
    Operand.fetch] at hv
  generalize (Step.executeAll t before _).state.store = store at hv htyped
  cases hslot : store.values[(slotIn (g.portsOf (init ++ [sink])) source).index]? with
  | none =>
    rw [hslot] at hv
    exact .inl hv.symm
  | some w =>
    rw [hslot] at hv
    obtain rfl : w = v := hv
    rcases htyped _ _ hslot with habsent | ⟨d, hd, hindex, htype⟩
    · exact .inl habsent
    · obtain ⟨s, hs, hd⟩ := List.mem_flatMap.1 hd
      obtain ⟨other, hother, hid, hdtype⟩ :=
        h.exists_output_of_mem_results hm htarget hs hd (congrArg Slot.mk hindex)
      exact .inr (by rw [htype, hdtype, hty other hother hid])

/-- With the table of blanks, the value at the end of a wire is the zero of the type of any of the
source node's ports with the wire's port number: the last one that the operation gives a value
for. -/
theorem takes_zero (h : g.Schedule init sink)
    (hfits : ∀ s ∈ (g.planOn init sink).steps, s.Fits (g.planOn init sink).slotCount)
    {before after : List Node} (hnodes : init ++ [sink] = before ++ n :: after)
    (htakes : n.op.takesInputs) (hport : n.inputs[k]? = some port)
    (hsource : g.source? (n.ref port) = some source) (hm : m ∈ before)
    (hid : m.id = source.node) {other : Port} {i : Nat} (hother : m.outputs[i]? = some other)
    (hother_id : other.id = source.port) (f : Frame) :
    (g.planOn init sink).Takes ((g.planOn init sink).blanks (i + 1)) f
      (g.stepIn (g.portsOf (init ++ [sink])) n) k other.type.zero := by
  obtain ⟨early, late, rfl⟩ := List.append_of_mem hm
  have hsteps : (g.planOn init sink).steps =
      (early.map (g.stepIn (g.portsOf (init ++ [sink]))) ++
        g.stepIn (g.portsOf (init ++ [sink])) m ::
          late.map (g.stepIn (g.portsOf (init ++ [sink])))) ++
        g.stepIn (g.portsOf (init ++ [sink])) n ::
          after.map (g.stepIn (g.portsOf (init ++ [sink]))) := by
    simp only [planOn, hnodes, List.map_append, List.map_cons]
  have hsink : m.op.isSink = false := h.not_isSink m (mem_init hnodes m hm)
  have hresult : (g.stepIn (g.portsOf (init ++ [sink])) m).results[i]? =
      some ⟨slotIn (g.portsOf (init ++ [sink])) source, other.type⟩ := by
    have href : m.ref other = source := by rw [Node.ref, hid, hother_id]
    rw [getElem?_results_stepIn, Node.resultPorts, hsink, if_neg Bool.false_ne_true, hother,
      Option.map_some, href]
    rfl
  have hlate : ∀ s ∈ late.map (g.stepIn (g.portsOf (init ++ [sink]))),
      slotIn (g.portsOf (init ++ [sink])) source ∉ s.writes := by
    have hdisjoint := h.pairwise_writes_planOn
    rw [hsteps, List.append_assoc, List.pairwise_append] at hdisjoint
    obtain ⟨-, hdisjoint, -⟩ := hdisjoint
    rw [List.cons_append, List.pairwise_cons] at hdisjoint
    refine fun s hs => hdisjoint.1 s (List.mem_append_left _ hs) _ ?_
    exact List.mem_map.2 ⟨_, List.mem_of_getElem? hresult, rfl⟩
  refine (Plan.takes_iff hfits).2 ⟨_, _, hsteps, ?_⟩
  rw [getElem?_operands_of_source? htakes hport hsource, Option.map_some, Operand.fetch,
    Plan.getElem?_executeAll_blanks (fun s hs => ?_) hresult hlate]
  · rfl
  · have hs : s ∈ (g.planOn init sink).steps := hsteps ▸ List.mem_append_left _ hs
    exact ⟨hs, (g.planOn init sink).size_prepare f ▸ hfits s hs⟩

end Graph.Schedule

/-- A wire arrives at an input of a step that takes its inputs, and was checked against the first
port of its source node with its port number. The values that the step takes there in the passes
that come to their end, with whatever operations, are absent or of that port's type exactly if all
output ports of the source node with that number have this type. -/
theorem OpTable.carried_type_iff {t : OpTable} {g : Graph} {p : Plan} (h : t.plan g = .ok p)
    {n : Node} {s : Step} (hs : p.StepOf g n s) (htakes : n.op.takesInputs) {k : Nat} {port : Port}
    (hport : n.inputs[k]? = some port) {w : Wire} (hw : w ∈ g.wires)
    (htarget : w.target = n.ref port) :
    ∃ m declared, g.node? w.source.node = some m ∧ m.port? w.source.port = some declared ∧
      (∀ t' f, (p.pass t' f).result = none → ∃ v, p.Takes t' f s k v) ∧
      ((∀ t' f v, (p.pass t' f).result = none → p.Takes t' f s k v → v.Fits declared.type) ↔
        ∀ other ∈ m.outputs, other.id = w.source.port → other.type = declared.type) := by
  have hfits := Graph.plan_fits h
  obtain ⟨init, sink, hschedule, hbuild, rfl⟩ := Graph.plan_eq_ok_iff.1 h
  obtain ⟨hn, rfl⟩ := hschedule.stepOf_planOn_iff.1 hs
  have hsource : g.source? (n.ref port) = some w.source :=
    hschedule.checked.source?_eq_some_iff.2 ⟨w, hw, htarget, rfl⟩
  obtain ⟨before, after, hnodes⟩ := List.append_of_mem hn
  obtain ⟨m, hm, hmtarget⟩ := hschedule.exists_target hnodes
    (Graph.mem_sources htakes (List.mem_of_getElem? hport) hsource)
  have hinit : m ∈ init := Graph.Schedule.mem_init hnodes m hm
  have hid : m.id = w.source.node := (Graph.node_of_mem_targets hmtarget).symm
  obtain ⟨m', declared, hm', hdeclared, -⟩ := (hschedule.checked.wires w hw).source
  obtain rfl : m = m' := by
    rw [← hid, hschedule.node?_eq_some (List.mem_append_left _ hinit)] at hm'
    exact Option.some.inj hm'
  refine ⟨m, declared, hm', hdeclared, fun t' f _ => ?_, fun hall other hother hother_id => ?_,
    fun htype t' f v _ hv => hschedule.fits_of_takes hfits htakes hport hsource hinit hmtarget
      htype hv⟩
  · have hsteps : (g.planOn init sink).steps =
        before.map (g.stepIn (g.portsOf (init ++ [sink]))) ++
          g.stepIn (g.portsOf (init ++ [sink])) n ::
            after.map (g.stepIn (g.portsOf (init ++ [sink]))) := by
      simp only [Graph.planOn, hnodes, List.map_append, List.map_cons]
    exact ⟨_, (Plan.takes_iff hfits).2 ⟨_, _, hsteps, by
      rw [Graph.Schedule.getElem?_operands_of_source? htakes hport hsource]
      rfl⟩⟩
  · obtain ⟨i, hi⟩ := List.mem_iff_getElem?.1 hother
    have htaken := hschedule.takes_zero hfits hnodes htakes hport hsource hm hid hi hother_id
      { store := {}, context := .ofSeed 0 }
    exact ValueType.fits_zero_iff.1 (hall _ _ _ (Plan.pass_blanks hfits _ _) htaken)

/-- In `Graph.branching`, a constant's only port and two ports of different types with one number
are wired to the sink. The value of the constant is always an integer or absent. The other value,
which was checked to be an integer, need not be. -/
theorem OpTable.carried_type_iff_branching :
    OpTable.branching.plan .branching = .ok .branching ∧ ∃ s, Plan.branching.sink? = some s ∧
      (∀ t f v, (Plan.branching.pass t f).result = none → Plan.branching.Takes t f s 1 v →
        v.Fits .integer) ∧
      ∃ t f v, (Plan.branching.pass t f).result = none ∧ Plan.branching.Takes t f s 0 v ∧
        ¬v.Fits .integer := by
  have h : OpTable.branching.plan .branching = .ok .branching := by decide +kernel
  have hs : ∀ s, Plan.branching.sink? = some s →
      Plan.branching.StepOf .branching (Graph.branching.nodes.head (by decide)) s := by
    rintro s hs
    cases hs
    exact ⟨by decide, by decide⟩
  refine ⟨h, _, rfl, ?_, ?_⟩
  · obtain ⟨m, declared, hm, hdeclared, -, hiff⟩ :=
      OpTable.carried_type_iff h (hs _ rfl) rfl rfl (k := 1) (w := ⟨⟨⟨2⟩, 0⟩, ⟨⟨1⟩, 1⟩⟩)
        (by decide) rfl
    cases hm
    cases hdeclared
    exact hiff.2 (by decide)
  · obtain ⟨m, declared, hm, hdeclared, -, hiff⟩ :=
      OpTable.carried_type_iff h (hs _ rfl) rfl rfl (k := 0) (w := ⟨⟨⟨3⟩, 5⟩, ⟨⟨1⟩, 0⟩⟩)
        (by decide) rfl
    cases hm
    cases hdeclared
    by_contra hall
    have htype := hiff.1 fun t f v hpass hv => by_contra fun hfits =>
      hall ⟨t, f, v, hpass, hv, hfits⟩
    exact absurd htype (by decide)

/-- A node with two output ports that have the same number and different types is wired to a sink
with a scalar input. -/
def Graph.overloaded : Graph where
  nodes :=
    [{ id := ⟨1⟩, op := ⟨1, 1⟩, ports := [.input 0 "a" .scalar] },
     { id := ⟨2⟩, op := ⟨5, 0⟩, ports := [.output 0 "x" .scalar, .output 0 "y" .vector3] }]
  wires := [⟨⟨⟨2⟩, 0⟩, ⟨⟨1⟩, 0⟩⟩]

/-- The plan of `Graph.overloaded`. -/
def Plan.overloaded : Plan where
  steps :=
    [{ node := ⟨2⟩, op := ⟨5, 0⟩, operands := [], results := [⟨⟨0⟩, .scalar⟩, ⟨⟨0⟩, .vector3⟩],
       parameter := none },
     { node := ⟨1⟩, op := ⟨1, 1⟩, operands := [.slot ⟨0⟩], results := [⟨⟨1⟩, .scalar⟩],
       parameter := none }]
  parameters := []
  slotCount := 2
  nodeCount := 2

/-- The operations of `Graph.overloaded`. One gives three values, the other gives what it takes. -/
def OpTable.overloaded : OpTable where
  entries := [(⟨1, 1⟩, ⟨"sink", pure⟩), (⟨5, 0⟩, ⟨"triple", fun _ =>
    return [.scalar 1.5, .vector3 ⟨0.25, 0.5, 0.75⟩, .bool true]⟩)]

/-- The wire was checked against a scalar port, and yet in a pass that comes to its end the sink
takes a vector. -/
theorem OpTable.carried_type_overloaded :
    let f : Frame := { store := {}, context := .ofSeed 0 }
    let v : Value := .vector3 ⟨0.25, 0.5, 0.75⟩
    OpTable.overloaded.plan .overloaded = .ok .overloaded ∧
      (Plan.overloaded.pass .overloaded f).result = none ∧
      ∃ w ∈ Graph.overloaded.wires, ∃ m declared s,
        Graph.overloaded.node? w.source.node = some m ∧
        m.port? w.source.port = some declared ∧ Plan.overloaded.sink? = some s ∧
        w.target = ⟨s.node, 0⟩ ∧ Plan.overloaded.Takes .overloaded f s 0 v ∧
        ¬v.Fits declared.type := by
  refine ⟨by decide +kernel, rfl, _, List.mem_singleton_self _, _, _, _, rfl, rfl, rfl, rfl,
    ⟨[Plan.overloaded.steps.head (by decide)], [], _, rfl, rfl, rfl⟩, ?_⟩
  rintro (h | h) <;> cases h

end NodeGraph
