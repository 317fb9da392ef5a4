import Mathlib.Data.List.Induction
import NodeGraph.Proofs.Plan.Layout
import NodeGraph.Session.Basic

/-!
# The wiring of a plan

The slots of a plan are its graph's wiring. Each output port of a node has one slot. The node's step
alone writes it, and the steps at the other ends of the port's wires read it. `Plan.Wired` says this
of a plan and a graph, and `OpTable.plan_wired` of every plan.

The reason is that a node's sources are output ports of nodes before it
(`Graph.Schedule.exists_target`). A port is thus never claimed by a reader first, and the ports own
slots in the order in which the steps write them (`Graph.Schedule.portsOf_eq`).

A node may have several ports with one number, between which a wire cannot tell. They share a slot,
and each of the results is written to it in turn.
-/

namespace NodeGraph

open SlotPool

namespace Plan

/-- A step of a plan and the node that it was made from, which has the step's number. -/
structure StepOf (g : Graph) (p : Plan) (n : Node) (s : Step) : Prop where
  mem : s ∈ p.steps
  node : g.node? s.node = some n

/-- A plan carries a wire through a slot if the input that the wire arrives at is that slot. -/
def Carries (g : Graph) (p : Plan) (w : Wire) (slot : Slot) : Prop :=
  w ∈ g.wires ∧ ∃ n s, p.StepOf g n s ∧ n.op.takesInputs ∧
    ∃ (k : Nat) (port : Port), n.inputs[k]? = some port ∧ w.target = n.ref port ∧
      s.operands[k]? = some (.slot slot)

/-- A plan gives the value of an output port in a slot if the step of the port's node writes the
slot for the port, and writes no other slot for it. -/
def Gives (g : Graph) (p : Plan) (source : PortRef) (slot : Slot) : Prop :=
  ∃ n s, p.StepOf g n s ∧ n.id = source.node ∧ n.op.isSink = false ∧
    (∃ port ∈ n.outputs, port.id = source.port) ∧
    ∀ (k : Nat) (port : Port), n.outputs[k]? = some port → port.id = source.port →
      ∃ type, s.results[k]? = some ⟨slot, type⟩

/-- The slots of a plan are the wiring of a graph: what the steps write and read is what the wires
say, and nothing more. -/
structure Wired (g : Graph) (p : Plan) : Prop where
  /-- Every step was made from a node, and invokes the node's operation. -/
  node : ∀ s ∈ p.steps, ∃ n, p.StepOf g n s ∧ s.op = n.op
  /-- The slots in the order in which they are first written are all slots in order, so that none is
  without use. -/
  dense : (p.steps.flatMap Step.writes).eraseDups = (List.range p.slotCount).map Slot.mk
  /-- A slot belongs to one step, which alone writes it. -/
  disjoint : p.steps.Pairwise fun s s' => ∀ slot ∈ s.writes, slot ∉ s'.writes
  /-- A step has a result for every port, of the port's type. -/
  results : ∀ n s, p.StepOf g n s → s.results.map (·.type) = n.resultPorts.map (·.type)
  /-- Two results of a step are written to the same slot exactly if their ports have the same
  number. Those of the sink never are. -/
  shared : ∀ n s, p.StepOf g n s →
    ∀ (i j : Nat) (port port' : Port) (d d' : Destination), i ≠ j →
    n.resultPorts[i]? = some port → n.resultPorts[j]? = some port' →
    s.results[i]? = some d → s.results[j]? = some d' →
    (d.slot = d'.slot ↔ n.op.isSink = false ∧ port.id = port'.id)
  /-- An input is a slot exactly if a wire arrives at it. Otherwise it is a literal. -/
  operand : ∀ n s, p.StepOf g n s → n.op.takesInputs →
    s.operands.length = n.inputs.length ∧
    ∀ (k : Nat) (port : Port) (x : Operand), n.inputs[k]? = some port → s.operands[k]? = some x →
      (x.slot?.isSome ↔ ∃ w ∈ g.wires, w.target = n.ref port)
  /-- Nodes that take no inputs read no slots, also if wires arrive at their ports. -/
  literal : ∀ n s, p.StepOf g n s → n.op.takesInputs = false → s.reads = []
  /-- The slot is the one of the port where the wire comes from. -/
  source : ∀ w slot, p.Carries g w slot → p.Gives g w.source slot
  /-- Two wires are carried through the same slot exactly if they come from the same port. -/
  fanOut : ∀ w slot w' slot', p.Carries g w slot → p.Carries g w' slot' →
    (slot = slot' ↔ w.source = w'.source)
  /-- A slot is read only after it has been written in the same pass. -/
  earlier : ∀ before s after, p.steps = before ++ s :: after →
    ∀ slot ∈ s.reads, ∃ s' ∈ before, slot ∈ s'.writes
  /-- The sink's slots are for the readout alone. -/
  unread : ∀ n s, p.StepOf g n s → n.op.isSink →
    ∀ slot ∈ s.writes, ∀ s' ∈ p.steps, slot ∉ s'.reads

end Plan

namespace Graph

variable {g : Graph} {isKnown : OpCode → Bool} {n sink : Node} {init before after : List Node}

/-- A node gives its values at its own ports. -/
theorem node_of_mem_targets {port : PortRef} (h : port ∈ n.targets) : port.node = n.id := by
  unfold Node.targets at h
  split at h
  · cases h
  · obtain ⟨p, -, rfl⟩ := List.mem_map.1 h
    rfl

/-- A source of a node is where a wire to one of its inputs comes from. -/
theorem exists_input_of_mem_sources {source : PortRef} (h : source ∈ g.sources n) :
    ∃ port ∈ n.inputs, g.source? (n.ref port) = some source := by
  unfold sources at h
  split at h
  · cases h
  · split at h
    · cases h
    · obtain ⟨⟨port, i⟩, hport, hsource⟩ := List.mem_flatMap.1 h
      exact ⟨port, List.fst_mem_of_mem_zipIdx hport, Option.mem_toList.1 hsource⟩

/-- The operands of a node that takes its inputs, one by one. -/
theorem getElem?_operands_stepIn (h : n.op.takesInputs) (ports : List PortRef) (k : Nat) :
    (g.stepIn ports n).operands[k]? =
      n.inputs[k]?.map fun port => g.operandIn (slotIn ports) n port k := by
  simp [operands_stepIn h, Function.comp_def]

/-- A node with a step that does not take its inputs has no sources. -/
theorem sources_eq_nil (h : n.op.takesInputs = false) (hn : g.Buildable isKnown n) :
    g.sources n = [] := by
  unfold sources
  cases hread : g.parameterRead n with
  | some q => rfl
  | none =>
    have hparameter : n.op.isParameter = false := by
      cases hp : n.op.isParameter with
      | false => rfl
      | true => simpa [hread] using hn.parameter hp
    have hconstant : n.op.isConstant = true := by
      simpa [OpCode.takesInputs, hparameter] using h
    simp [hconstant]

/-- The slots of ports that own one come before those of the sink. -/
theorem slotIn_ne_of_mem {ports : List PortRef} {port : PortRef} (h : port ∈ ports) (i : Nat) :
    slotIn ports port ≠ ⟨ports.length + i⟩ := by
  have hlt : ports.idxOf port < ports.length := List.idxOf_lt_length_of_mem h
  rw [slotIn, ne_eq, Slot.mk.injEq]
  omega

namespace Schedule

/-- What stands before another node is not the sink. -/
theorem mem_init (h : init ++ [sink] = before ++ n :: after) : ∀ m ∈ before, m ∈ init := by
  have hinit : init = before ++ (n :: after).dropLast := by
    rw [← List.dropLast_append_of_ne_nil (List.cons_ne_nil n after), ← h, List.dropLast_concat]
  exact fun m hm => hinit ▸ List.mem_append_left _ hm

/-- The sources of a node are ports at which nodes before it give their values. The wires are sound,
and the order is settled. -/
theorem exists_target (h : g.Schedule init sink) (hnodes : init ++ [sink] = before ++ n :: after)
    {source : PortRef} (hsource : source ∈ g.sources n) : ∃ m ∈ before, source ∈ m.targets := by
  obtain ⟨port, hport, hsource⟩ := exists_input_of_mem_sources hsource
  obtain ⟨w, hw, htarget, rfl⟩ := h.checked.source?_eq_some_iff.1 hsource
  have hdraws : g.Draws n.id w.source.node := by
    rw [h.checked.draws_eq_needs]
    exact ⟨n, h.mem n (by simp [hnodes]), rfl, port, hport, w, hw, htarget, rfl⟩
  have hsettled := h.settled
  rw [hnodes, List.map_append, List.map_cons] at hsettled
  obtain ⟨m, hm, hid⟩ := List.mem_map.1 (hsettled.mem_of_draws hdraws)
  have hinit := mem_init hnodes m hm
  -- The wire is sound, so its source is an output port of that node.
  obtain ⟨m', p, hm', hp, hout⟩ := (h.checked.wires w hw).source
  rw [← hid, h.node?_eq_some (List.mem_append_left _ hinit)] at hm'
  cases hm'
  have hpid : p.id = w.source.port := by simpa using List.find?_some hp
  refine ⟨m, hm, ?_⟩
  rw [Node.targets, if_neg (by simp [h.not_isSink m hinit])]
  refine List.mem_map.2 ⟨p, List.mem_filter.2 ⟨List.mem_of_find?_eq_some hp, hout⟩, ?_⟩
  rw [Node.ref, hid, hpid]

/-- The first nodes of a schedule claim no other ports than those at which they give their values,
since what they read has been claimed by then. -/
theorem portsOf_of_append (h : g.Schedule init sink) (hnodes : init ++ [sink] = before ++ after) :
    g.portsOf before = enroll [] (before.flatMap Node.targets) := by
  induction before using List.reverseRecOn generalizing after with
  | nil => rfl
  | append_singleton before n ih =>
    rw [List.append_assoc, List.singleton_append] at hnodes
    have hsources : ∀ source ∈ g.sources n, source ∈ enroll [] (before.flatMap Node.targets) := by
      intro source hsource
      obtain ⟨m, hm, htarget⟩ := h.exists_target hnodes hsource
      exact mem_enroll.2 (.inr (List.mem_flatMap.2 ⟨m, hm, htarget⟩))
    have hports := ih hnodes
    rw [portsOf] at hports ⊢
    simp only [List.flatMap_append, List.flatMap_singleton, enroll_append, hports,
      enroll_of_subset hsources]

/-- The ports own slots in the order in which the nodes give their values. -/
theorem portsOf_eq (h : g.Schedule init sink) :
    g.portsOf (init ++ [sink]) = enroll [] (init.flatMap Node.targets) := by
  have htargets : sink.targets = [] := if_pos h.isSink
  rw [h.portsOf_of_append (List.append_nil _).symm, List.flatMap_append, List.flatMap_singleton,
    htargets, List.append_nil]

/-- The slots that the steps write, in turn: those of ports at which nodes give their values, and
then those of the sink. -/
theorem flatMap_writes_planOn (h : g.Schedule init sink) :
    (g.planOn init sink).steps.flatMap Step.writes =
      (init.flatMap Node.targets).map (slotIn (g.portsOf (init ++ [sink]))) ++
        (List.range sink.inputs.length).map (⟨(g.portsOf (init ++ [sink])).length + ·⟩) := by
  have hinit : ∀ ports, (init.map (g.stepIn ports)).flatMap Step.writes =
      (init.flatMap Node.targets).map (slotIn ports) := by
    intro ports
    rw [List.flatMap_map, List.map_flatMap]
    exact List.flatMap_congr fun n hn => writes_stepIn g ports (h.not_isSink n hn)
  rw [planOn, List.map_append, List.flatMap_append, hinit, List.map_singleton,
    List.flatMap_singleton, writes_stepIn_of_isSink g _ h.isSink]

/-- The plan of a schedule first writes its slots in the order of their indices, and all of them. -/
theorem eraseDups_writes_planOn (h : g.Schedule init sink) :
    ((g.planOn init sink).steps.flatMap Step.writes).eraseDups =
      (List.range (g.planOn init sink).slotCount).map Slot.mk := by
  have hports := h.portsOf_eq
  have hnodup := g.nodup_portsOf (init ++ [sink])
  rw [flatMap_writes_planOn h, planOn]
  dsimp only
  generalize g.portsOf (init ++ [sink]) = ports at *
  have hslots : enroll [] ((init.flatMap Node.targets).map (slotIn ports)) =
      (List.range ports.length).map Slot.mk := by
    -- Ports have different slots, so enrolling their slots is enrolling the ports themselves.
    have hinj : ∀ a ∈ [] ++ init.flatMap Node.targets, ∀ b ∈ [] ++ init.flatMap Node.targets,
        slotIn ports a = slotIn ports b → a = b :=
      fun a ha b _ => (slotIn_inj (hports ▸ mem_enroll.2 (.inr ha))).1
    calc enroll [] ((init.flatMap Node.targets).map (slotIn ports))
        = (enroll [] (init.flatMap Node.targets)).map (slotIn ports) := (map_enroll hinj).symm
      _ = ports.map (slotIn ports) := by rw [← hports]
      _ = (List.range ports.length).map Slot.mk := map_slotIn hnodup
  have hrange : (List.range ports.length).map Slot.mk ++
      (List.range sink.inputs.length).map (fun i => Slot.mk (ports.length + i)) =
        (List.range (ports.length + sink.inputs.length)).map Slot.mk := by
    rw [List.range_add, List.map_append, List.map_map]
    rfl
  have hall : ((List.range (ports.length + sink.inputs.length)).map Slot.mk).Nodup :=
    List.nodup_range.map fun a b hab => Slot.mk.inj hab
  rw [← List.nil_append (List.map _ _ ++ _), eraseDups_append_eq_enroll .nil, enroll_append, hslots,
    enroll_of_nodup (hrange ▸ hall), hrange]

/-- No two steps of a schedule's plan write the same slot, since they give values at the ports of
different nodes. -/
theorem pairwise_writes_planOn (h : g.Schedule init sink) :
    (g.planOn init sink).steps.Pairwise fun s s' => ∀ slot ∈ s.writes, slot ∉ s'.writes := by
  have howner : ∀ m ∈ init, ∀ port ∈ m.targets, port ∈ g.portsOf (init ++ [sink]) :=
    fun m hm port hport => mem_portsOf.2 ⟨m, List.mem_append_left _ hm, .inr hport⟩
  rw [planOn, List.pairwise_map, List.pairwise_append]
  refine ⟨?_, List.pairwise_singleton .., ?_⟩
  · have hids : init.Pairwise fun m m' => m.id ≠ m'.id := by
      have hnodup := h.settled.nodup
      rw [List.map_append] at hnodup
      exact List.pairwise_map.1 hnodup.of_append_left
    refine hids.imp_of_mem fun {m m'} hm hm' hne slot hslot hslot' => hne ?_
    rw [writes_stepIn g _ (h.not_isSink m hm)] at hslot
    rw [writes_stepIn g _ (h.not_isSink m' hm')] at hslot'
    obtain ⟨port, hport, rfl⟩ := List.mem_map.1 hslot
    obtain ⟨port', hport', heq⟩ := List.mem_map.1 hslot'
    obtain rfl := (slotIn_inj (howner m' hm' port' hport')).1 heq
    exact (node_of_mem_targets hport).symm.trans (node_of_mem_targets hport')
  · intro m hm m' hm' slot hslot hslot'
    obtain rfl := List.mem_singleton.1 hm'
    rw [writes_stepIn g _ (h.not_isSink m hm)] at hslot
    rw [writes_stepIn_of_isSink g _ h.isSink] at hslot'
    obtain ⟨port, hport, rfl⟩ := List.mem_map.1 hslot
    obtain ⟨i, -, heq⟩ := List.mem_map.1 hslot'
    exact slotIn_ne_of_mem (howner m hm port hport) i heq.symm

/-- A step and its node are the node of a schedule and its step in closed form. -/
theorem stepOf_planOn_iff (h : g.Schedule init sink) {s : Step} :
    (g.planOn init sink).StepOf g n s ↔
      n ∈ init ++ [sink] ∧ s = g.stepIn (g.portsOf (init ++ [sink])) n := by
  constructor
  · rintro ⟨hs, hnode⟩
    obtain ⟨m, hm, rfl⟩ := List.mem_map.1 hs
    obtain rfl : m = n := Option.some.inj ((h.node?_eq_some hm).symm.trans hnode)
    exact ⟨hm, rfl⟩
  · rintro ⟨hn, rfl⟩
    exact ⟨List.mem_map_of_mem hn, h.node?_eq_some hn⟩

/-- Two results of a step in closed form have the same slot exactly if their ports have the same
number, and the node is not the sink. -/
theorem slot_eq_slot_iff (hn : n ∈ init ++ [sink]) {i j : Nat} {port port' : Port}
    {d d' : Destination} (hij : i ≠ j)
    (hi : n.resultPorts[i]? = some port) (hj : n.resultPorts[j]? = some port')
    (hd : (g.stepIn (g.portsOf (init ++ [sink])) n).results[i]? = some d)
    (hd' : (g.stepIn (g.portsOf (init ++ [sink])) n).results[j]? = some d') :
    d.slot = d'.slot ↔ n.op.isSink = false ∧ port.id = port'.id := by
  rw [getElem?_results_stepIn, hi] at hd
  rw [getElem?_results_stepIn, hj] at hd'
  cases hd
  cases hd'
  cases hsink : n.op.isSink with
  | true => simp [hij]
  | false =>
    have howner : n.ref port ∈ g.portsOf (init ++ [sink]) := by
      refine mem_portsOf.2 ⟨n, hn, .inr ?_⟩
      rw [Node.resultPorts, hsink] at hi
      rw [Node.targets, hsink]
      exact List.mem_map_of_mem (List.mem_of_getElem? hi)
    have href : n.ref port = n.ref port' ↔ port.id = port'.id := by simp [Node.ref]
    simp [slotIn_inj howner, href]

/-- A wire that is carried is carried through the slot of the port where it comes from, at which a
node other than the sink gives its value. -/
theorem eq_slotIn_of_carries (h : g.Schedule init sink) {w : Wire} {slot : Slot}
    (hw : (g.planOn init sink).Carries g w slot) :
    slot = slotIn (g.portsOf (init ++ [sink])) w.source ∧ ∃ m ∈ init, w.source ∈ m.targets := by
  obtain ⟨hw, n, s, hs, htakes, k, port, hport, htarget, hslot⟩ := hw
  obtain ⟨hn, rfl⟩ := h.stepOf_planOn_iff.1 hs
  have hsource : g.source? (n.ref port) = some w.source :=
    h.checked.source?_eq_some_iff.2 ⟨w, hw, htarget, rfl⟩
  have hmem : w.source ∈ g.sources n :=
    mem_sources htakes (List.mem_of_getElem? hport) hsource
  obtain ⟨before, after, hnodes⟩ := List.append_of_mem hn
  obtain ⟨m, hm, htargets⟩ := h.exists_target hnodes hmem
  rw [getElem?_operands_stepIn htakes, hport, Option.map_some, operandIn, hsource] at hslot
  cases hslot
  exact ⟨rfl, m, mem_init hnodes m hm, htargets⟩

/-- A port at which a node other than the sink gives its value has its slot. -/
theorem gives_slotIn (h : g.Schedule init sink) {m : Node} (hm : m ∈ init) {source : PortRef}
    (hsource : source ∈ m.targets) :
    (g.planOn init sink).Gives g source (slotIn (g.portsOf (init ++ [sink])) source) := by
  have hsink := h.not_isSink m hm
  have hid := node_of_mem_targets hsource
  refine ⟨m, _, h.stepOf_planOn_iff.2 ⟨List.mem_append_left _ hm, rfl⟩, hid.symm, hsink, ?_, ?_⟩
  · rw [Node.targets, hsink] at hsource
    obtain ⟨port, hport, rfl⟩ := List.mem_map.1 hsource
    exact ⟨port, hport, rfl⟩
  · intro k port hport hpid
    have href : m.ref port = source := by rw [Node.ref, ← hid, hpid]
    rw [getElem?_results_stepIn, Node.resultPorts, hsink, if_neg Bool.false_ne_true, hport,
      Option.map_some, href]
    exact ⟨port.type, rfl⟩

/-- What a step of a schedule's plan reads an earlier step has written, since the sources of its
node are ports of nodes before it. -/
theorem exists_writes_of_reads (h : g.Schedule init sink) {before after : List Step} {s : Step}
    (hsteps : (g.planOn init sink).steps = before ++ s :: after) :
    ∀ slot ∈ s.reads, ∃ s' ∈ before, slot ∈ s'.writes := by
  obtain ⟨nodes, rest, hnodes, rfl, hrest⟩ := List.map_eq_append_iff.1 hsteps
  obtain ⟨n, rest, rfl, rfl, -⟩ := List.map_eq_cons_iff.1 hrest
  rw [reads_stepIn, List.forall_mem_map]
  intro source hsource
  obtain ⟨m, hm, htarget⟩ := h.exists_target hnodes hsource
  refine ⟨_, List.mem_map_of_mem hm, ?_⟩
  rw [writes_stepIn g _ (h.not_isSink m (mem_init hnodes m hm))]
  exact List.mem_map_of_mem htarget

/-- What the sink's step writes no step reads: the slots that are read are those of ports. -/
theorem not_mem_reads_of_isSink (hsink : n.op.isSink = true) {s : Step} {slot : Slot}
    (hslot : slot ∈ (g.stepIn (g.portsOf (init ++ [sink])) n).writes)
    (hs : s ∈ (g.planOn init sink).steps) : slot ∉ s.reads := by
  obtain ⟨m, hm, rfl⟩ := List.mem_map.1 hs
  rw [writes_stepIn_of_isSink g _ hsink] at hslot
  obtain ⟨i, -, rfl⟩ := List.mem_map.1 hslot
  rw [reads_stepIn, List.mem_map]
  rintro ⟨source, hsource, heq⟩
  exact slotIn_ne_of_mem (mem_portsOf.2 ⟨m, hm, .inl hsource⟩) i heq

/-- An input of a node that takes its inputs is a slot exactly if a wire arrives at it. -/
theorem isSome_slot?_iff (h : g.Schedule init sink) (htakes : n.op.takesInputs)
    (ports : List PortRef) {k : Nat} {port : Port} {x : Operand} (hport : n.inputs[k]? = some port)
    (hx : (g.stepIn ports n).operands[k]? = some x) :
    x.slot?.isSome ↔ ∃ w ∈ g.wires, w.target = n.ref port := by
  rw [getElem?_operands_stepIn htakes, hport, Option.map_some, operandIn] at hx
  cases hsource : g.source? (n.ref port) with
  | none =>
    rw [hsource] at hx
    cases hx
    constructor
    · intro hslot
      simp [Operand.slot?] at hslot
    · rintro ⟨w, hw, htarget⟩
      rw [h.checked.source?_eq_some_iff.2 ⟨w, hw, htarget, rfl⟩] at hsource
      cases hsource
  | some source =>
    rw [hsource] at hx
    cases hx
    obtain ⟨w, hw, htarget, -⟩ := h.checked.source?_eq_some_iff.1 hsource
    exact ⟨fun _ => ⟨w, hw, htarget⟩, fun _ => rfl⟩

/-- The plan of a schedule is wired as the graph is. Each of the conditions has its own lemma
above. -/
theorem wired (h : g.Schedule init sink) (hbuild : ∀ n ∈ init ++ [sink], g.Buildable isKnown n) :
    (g.planOn init sink).Wired g where
  node s hs := by
    obtain ⟨n, hn, rfl⟩ := List.mem_map.1 hs
    exact ⟨n, h.stepOf_planOn_iff.2 ⟨hn, rfl⟩, rfl⟩
  dense := h.eraseDups_writes_planOn
  disjoint := h.pairwise_writes_planOn
  results n s hs := by
    obtain ⟨-, rfl⟩ := h.stepOf_planOn_iff.1 hs
    exact map_type_results_stepIn g _ n
  shared n s hs i j port port' d d' hij hi hj hd hd' := by
    obtain ⟨hn, rfl⟩ := h.stepOf_planOn_iff.1 hs
    exact slot_eq_slot_iff hn hij hi hj hd hd'
  operand n s hs htakes := by
    obtain ⟨-, rfl⟩ := h.stepOf_planOn_iff.1 hs
    exact ⟨by simp [operands_stepIn htakes], fun k port x => h.isSome_slot?_iff htakes _⟩
  literal n s hs htakes := by
    obtain ⟨hn, rfl⟩ := h.stepOf_planOn_iff.1 hs
    rw [reads_stepIn, sources_eq_nil htakes (hbuild n hn), List.map_nil]
  source w slot hw := by
    obtain ⟨rfl, m, hm, hsource⟩ := h.eq_slotIn_of_carries hw
    exact h.gives_slotIn hm hsource
  fanOut w slot w' slot' hw hw' := by
    obtain ⟨rfl, m, hm, hsource⟩ := h.eq_slotIn_of_carries hw
    obtain ⟨rfl, -⟩ := h.eq_slotIn_of_carries hw'
    exact slotIn_inj (mem_portsOf.2 ⟨m, List.mem_append_left _ hm, .inr hsource⟩)
  earlier _ _ _ := h.exists_writes_of_reads
  unread n s hs hsink slot hslot s' hs' := by
    obtain ⟨-, rfl⟩ := h.stepOf_planOn_iff.1 hs
    exact not_mem_reads_of_isSink hsink hslot hs'

end Schedule

end Graph

/-- The plan of a graph is wired as the graph is, with whatever table it was made. A value that a
step writes is found by exactly those steps to whose inputs the graph has wires from the port, no
other step writes there, and every slot serves one port or one result of the sink. -/
theorem OpTable.plan_wired {t : OpTable} {g : Graph} {p : Plan} (h : t.plan g = .ok p) :
    p.Wired g := by
  obtain ⟨init, sink, hschedule, hbuild, rfl⟩ := Graph.plan_eq_ok_iff.1 h
  exact hschedule.wired hbuild

/-- A constant with two wires, one to the sink and one to a node with three outputs, two of which
have the same number; a parameter read is wired to the sink as well. -/
def Graph.branching : Graph where
  nodes :=
    [{ id := ⟨1⟩, op := ⟨1, 1⟩,
       ports := [.input 0 "a" .integer, .input 1 "b" .integer, .input 2 "c" .bool] },
     { id := ⟨2⟩, op := ⟨2, 1⟩, ports := [.output 0 "n" .integer], literals := [.integer 7] },
     { id := ⟨3⟩, op := ⟨3, 1⟩, literals := [.absent, .bool true],
       ports := [.input 0 "n" .integer, .input 1 "b" .bool, .output 5 "x" .integer,
         .output 5 "y" .bool, .output 6 "z" .bool] },
     { id := ⟨4⟩, op := ⟨6, 1⟩, ports := [.output 0 "p" .bool], parameter := some ⟨9⟩ }]
  wires :=
    [⟨⟨⟨2⟩, 0⟩, ⟨⟨3⟩, 0⟩⟩, ⟨⟨⟨3⟩, 5⟩, ⟨⟨1⟩, 0⟩⟩, ⟨⟨⟨2⟩, 0⟩, ⟨⟨1⟩, 1⟩⟩, ⟨⟨⟨4⟩, 0⟩, ⟨⟨1⟩, 2⟩⟩]
  parameters := [{ id := ⟨9⟩, name := "p", value := .bool true }]

/-- The plan of `Graph.branching`. The slot of the constant is read by two steps. -/
def Plan.branching : Plan where
  steps :=
    [{ node := ⟨2⟩, op := ⟨2, 1⟩, operands := [.literal (.integer 7)],
       results := [⟨⟨0⟩, .integer⟩], parameter := none },
     { node := ⟨3⟩, op := ⟨3, 1⟩, operands := [.slot ⟨0⟩, .literal (.bool true)],
       results := [⟨⟨1⟩, .integer⟩, ⟨⟨1⟩, .bool⟩, ⟨⟨2⟩, .bool⟩], parameter := none },
     { node := ⟨4⟩, op := ⟨6, 1⟩, operands := [.literal (.bool true)],
       results := [⟨⟨3⟩, .bool⟩], parameter := some ⟨9⟩ },
     { node := ⟨1⟩, op := ⟨1, 1⟩, operands := [.slot ⟨1⟩, .slot ⟨0⟩, .slot ⟨3⟩],
       results := [⟨⟨4⟩, .integer⟩, ⟨⟨5⟩, .integer⟩, ⟨⟨6⟩, .bool⟩], parameter := none }]
  parameters := [{ id := ⟨9⟩, name := "p", value := .bool true }]
  slotCount := 7
  nodeCount := 4

/-- The operations of `Graph.branching`, which give what they take. -/
def OpTable.branching : OpTable where
  entries := [(⟨1, 1⟩, ⟨"sink", pure⟩), (⟨2, 1⟩, ⟨"constant", pure⟩), (⟨3, 1⟩, ⟨"split", pure⟩),
    (⟨6, 1⟩, ⟨"parameter", pure⟩)]

/-- The constant's two wires are carried through one slot, and the outputs with the same number have
one slot between them. -/
theorem OpTable.plan_wired_branching :
    OpTable.branching.plan .branching = .ok .branching ∧ Plan.branching.Wired .branching := by
  have h : OpTable.branching.plan .branching = .ok .branching := by decide +kernel
  exact ⟨h, OpTable.plan_wired h⟩

end NodeGraph
