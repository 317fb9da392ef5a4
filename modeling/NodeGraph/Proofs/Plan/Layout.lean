import NodeGraph.Proofs.Plan.Checks
import NodeGraph.Proofs.Plan.Claims

/-!
# The steps of a plan in closed form

Assembling a plan threads a slot pool through the nodes. Here the steps are given without it: with
the list of ports that own slots known in advance, the step of each node is a function of that list
(`Graph.stepIn`), and the list is the ports in the order in which the nodes claim them
(`Graph.portsOf`). `Graph.plan_eq_ok_iff` says exactly when a graph has a plan, and which.

What is known of plans is shown from this form. A plan is `Graph.planOn` of a schedule, that is of
the nodes in the order of the search with the sink at their end (`Graph.Schedule`), and each of the
nodes has a step (`Graph.Buildable`).
-/

namespace NodeGraph

open SlotPool

variable {g : Graph} {n : Node} {isKnown : OpCode → Bool} {a : Assembly} {init : List Node}
  {sink : Node}

/-- Whether an operation takes the inputs of its node, as constants and parameter reads do not. -/
def OpCode.takesInputs (op : OpCode) : Bool :=
  !op.isConstant && !op.isParameter

/-- An operation takes inputs exactly if it is no constant and no parameter read. -/
theorem OpCode.takesInputs_iff {op : OpCode} :
    op.takesInputs ↔ op.isConstant = false ∧ op.isParameter = false := by
  simp [OpCode.takesInputs]

namespace Graph

/-- The parameter that a node reads, if it is a parameter read and the graph has the parameter. -/
def parameterRead (g : Graph) (n : Node) : Option Parameter :=
  if n.op.isParameter then n.parameter.bind g.parameter? else none

/-- The operand of an input port, where `slots` tells the slots of output ports. -/
def operandIn (g : Graph) (slots : PortRef → Slot) (n : Node) (p : Port) (position : Nat) :
    Operand :=
  match g.source? (n.ref p) with
  | some source => .slot (slots source)
  | none => .literal (n.literal position)

/-- The operands of a node, where `slots` tells the slots of output ports. -/
def operandsIn (g : Graph) (slots : PortRef → Slot) (n : Node) : List Operand :=
  match g.parameterRead n with
  | some p => [.literal p.value]
  | none =>
    if n.op.isConstant then [.literal (n.literal 0)]
    else n.inputs.zipIdx.map fun (p, position) => g.operandIn slots n p position

/-- The ports that a node's operands come from, in the order of its inputs. Literals come from no
port. -/
def sources (g : Graph) (n : Node) : List PortRef :=
  match g.parameterRead n with
  | some _ => []
  | none =>
    if n.op.isConstant then []
    else n.inputs.zipIdx.flatMap fun (p, _) => (g.source? (n.ref p)).toList

end Graph

/-- The ports that a node gives values at; the sink gives them at no port. -/
def Node.targets (n : Node) : List PortRef :=
  if n.op.isSink then [] else n.outputs.map n.ref

/-- The ports whose types a node's results have. Those of the sink go to no output port, so that its
input ports stand in. -/
def Node.resultPorts (n : Node) : List Port :=
  if n.op.isSink then n.inputs else n.outputs

/-- The destinations of a node's results, where `ports` own the first slots in turn. The sink has
the slots after them. -/
def Node.destinationsIn (ports : List PortRef) (n : Node) : List Destination :=
  if n.op.isSink then n.inputs.zipIdx.map fun (p, i) => ⟨⟨ports.length + i⟩, p.type⟩
  else n.outputs.map fun p => ⟨slotIn ports (n.ref p), p.type⟩

namespace Graph

/-- The step of a node, where `ports` own the first slots in turn. -/
def stepIn (g : Graph) (ports : List PortRef) (n : Node) : Step where
  node := n.id
  op := n.op
  operands := g.operandsIn (slotIn ports) n
  results := n.destinationsIn ports
  parameter := (g.parameterRead n).map Parameter.id

/-- The ports that own slots after the steps of some nodes, in the order of their slots. -/
def portsOf (g : Graph) (nodes : List Node) : List PortRef :=
  enroll [] (nodes.flatMap fun n => g.sources n ++ n.targets)

/-- Where a wire to an input comes from is a source of the node, if the node takes its inputs. -/
theorem mem_sources {source : PortRef} {port : Port} (h : n.op.takesInputs)
    (hport : port ∈ n.inputs) (hsource : g.source? (n.ref port) = some source) :
    source ∈ g.sources n := by
  obtain ⟨hconstant, hparameter⟩ := OpCode.takesInputs_iff.1 h
  obtain ⟨k, hk⟩ := List.mem_iff_getElem?.1 hport
  simp only [sources, parameterRead, hconstant, hparameter]
  refine List.mem_flatMap.2 ⟨(port, k), List.mem_zipIdx_iff_getElem?.2 hk, ?_⟩
  exact Option.mem_toList.2 hsource

/-- A node that takes its inputs has an operand for each of them. -/
theorem operands_stepIn (h : n.op.takesInputs) (ports : List PortRef) :
    (g.stepIn ports n).operands =
      n.inputs.zipIdx.map fun (port, k) => g.operandIn (slotIn ports) n port k := by
  obtain ⟨hconstant, hparameter⟩ := OpCode.takesInputs_iff.1 h
  simp [stepIn, operandsIn, parameterRead, hconstant, hparameter]

/-- A step reads the slots of the ports that its operands come from. -/
theorem reads_stepIn (g : Graph) (ports : List PortRef) (n : Node) :
    (g.stepIn ports n).reads = (g.sources n).map (slotIn ports) := by
  have hinputs : ∀ l : List (Port × Nat),
      (l.map fun (p, i) => g.operandIn (slotIn ports) n p i).filterMap Operand.slot? =
        (l.flatMap fun (p, _) => (g.source? (n.ref p)).toList).map (slotIn ports) := by
    intro l
    induction l with
    | nil => rfl
    | cons pi l ih =>
      obtain ⟨p, i⟩ := pi
      simp only [List.map_cons, List.flatMap_cons, List.map_append, ← ih, operandIn]
      cases g.source? (n.ref p) <;> rfl
  unfold Step.reads stepIn operandsIn sources
  cases g.parameterRead n with
  | some p => rfl
  | none =>
    dsimp only
    split
    · rfl
    · exact hinputs n.inputs.zipIdx

/-- A step that is not the sink's writes the slots of the node's output ports. -/
theorem writes_stepIn (g : Graph) (ports : List PortRef) (h : n.op.isSink = false) :
    (g.stepIn ports n).writes = n.targets.map (slotIn ports) := by
  simp [Step.writes, stepIn, Node.destinationsIn, Node.targets, h, Function.comp_def]

/-- The sink's step writes the slots after those of ports. -/
theorem writes_stepIn_of_isSink (g : Graph) (ports : List PortRef) (h : n.op.isSink = true) :
    (g.stepIn ports n).writes = (List.range n.inputs.length).map (⟨ports.length + ·⟩) := by
  rw [Step.writes, stepIn, Node.destinationsIn, if_pos h, List.map_map, List.range_eq_range',
    ← List.zipIdx_map_snd 0 n.inputs, List.map_map]
  rfl

/-- The results of a step, one by one, each with its slot and the type of its port. -/
theorem getElem?_results_stepIn (g : Graph) (ports : List PortRef) (n : Node) (i : Nat) :
    (g.stepIn ports n).results[i]? = n.resultPorts[i]?.map fun port =>
      ⟨if n.op.isSink then ⟨ports.length + i⟩ else slotIn ports (n.ref port), port.type⟩ := by
  unfold stepIn Node.destinationsIn Node.resultPorts
  split <;> simp [Function.comp_def]

/-- The results of a step have the types of the node's ports. -/
theorem map_type_results_stepIn (g : Graph) (ports : List PortRef) (n : Node) :
    (g.stepIn ports n).results.map (·.type) = n.resultPorts.map (·.type) := by
  refine List.ext_getElem? fun i => ?_
  simp [getElem?_results_stepIn, Function.comp_def]

/-- The ports that own slots are those that nodes take operands from or give values at. -/
theorem mem_portsOf {nodes : List Node} {port : PortRef} :
    port ∈ g.portsOf nodes ↔ ∃ n ∈ nodes, port ∈ g.sources n ∨ port ∈ n.targets := by
  simp [portsOf, mem_enroll]

/-- Every port owns one slot. -/
theorem nodup_portsOf (g : Graph) (nodes : List Node) : (g.portsOf nodes).Nodup :=
  nodup_enroll .nil

/-- A node has a step if its operation is known and the parameter that it reads is in the graph. -/
structure Buildable (isKnown : OpCode → Bool) (g : Graph) (n : Node) : Prop where
  known : isKnown n.op
  parameter : n.op.isParameter → (g.parameterRead n).isSome

/-- The parameter of a node is found exactly if the node reads none or the graph has it. -/
theorem parameterOf_eq_ok_iff {q : Option Parameter} :
    g.parameterOf n = .ok q ↔
      (n.op.isParameter → (g.parameterRead n).isSome) ∧ q = g.parameterRead n := by
  unfold parameterOf parameterRead
  split
  · rename_i hn
    cases n.parameter.bind g.parameter? with
    | none => simp [hn]
    | some p => exact ⟨fun h => by cases h; exact ⟨fun _ => rfl, rfl⟩, fun h => by rw [h.2]⟩
  · rename_i hn
    exact ⟨fun h => by cases h; exact ⟨fun h => absurd h hn, rfl⟩, fun h => by rw [h.2]⟩

/-- An operand claims the port that it comes from, if it is no literal. -/
theorem claims_operand (g : Graph) (n : Node) (p : Port) (position : Nat) :
    Claims (g.operand n p position) (g.source? (n.ref p)).toList
      fun slots => g.operandIn slots n p position := by
  unfold operand operandIn
  cases g.source? (n.ref p) with
  | none => exact .pure _
  | some source => exact (Claims.claim source).map Operand.slot

/-- The operands of a node claim the ports that they come from. -/
theorem claims_operands (g : Graph) (n : Node) :
    Claims (g.operands n (g.parameterRead n)) (g.sources n) fun slots => g.operandsIn slots n := by
  unfold operands sources operandsIn
  cases g.parameterRead n with
  | some p => exact .pure _
  | none =>
    dsimp only
    split
    · exact .pure _
    · exact .mapM (fun (p, position) => g.claims_operand n p position) n.inputs.zipIdx

/-- Other nodes than the sink claim their output ports, whether or not these have wires. -/
theorem claims_destinations (h : n.op.isSink = false) :
    Claims n.destinations n.targets fun slots =>
      n.outputs.map fun p => ⟨slots (n.ref p), p.type⟩ := by
  have hp : ∀ p : Port, Claims (do return Destination.mk (← claim (n.ref p)) p.type) [n.ref p]
      fun slots => ⟨slots (n.ref p), p.type⟩ :=
    fun p => (Claims.claim (n.ref p)).map (Destination.mk · p.type)
  have := Claims.mapM hp n.outputs
  rw [← List.map_eq_flatMap] at this
  simpa only [Node.destinations, Node.targets, h, Bool.false_eq_true, if_false] using this

/-- The sink takes fresh slots for its results, which no port owns. -/
theorem mapM_fresh (ports : List PortRef) (extra : Nat) (l : List Port) :
    (l.mapM fun p => (return ⟨← fresh, p.type⟩ : StateM SlotPool Destination))
        (dense ports extra) =
      ((l.zipIdx extra).map fun (p, i) => ⟨⟨ports.length + i⟩, p.type⟩,
        dense ports (extra + l.length)) := by
  induction l generalizing extra with
  | nil => rfl
  | cons p l ih =>
    rw [List.mapM_cons]
    show (let first := fresh (dense ports extra)
      let rest :=
        (l.mapM fun p : Port => (return ⟨← fresh, p.type⟩ : StateM SlotPool Destination)) first.2
      (Destination.mk first.1 p.type :: rest.1, rest.2)) = _
    rw [fresh_dense]
    dsimp only
    rw [ih, List.zipIdx_cons, List.map_cons, List.length_cons, Nat.add_right_comm, Nat.add_assoc]

/-- Other nodes than the sink claim their sources and their output ports. -/
theorem claims_step (h : n.op.isSink = false) :
    Claims (g.step n (g.parameterRead n)) (g.sources n ++ n.targets) fun slots =>
      { node := n.id, op := n.op, operands := g.operandsIn slots n,
        results := n.outputs.map fun p => ⟨slots (n.ref p), p.type⟩,
        parameter := (g.parameterRead n).map Parameter.id } :=
  (g.claims_operands n).bind fun operands => (claims_destinations h).map fun results =>
    Step.mk n.id n.op operands results ((g.parameterRead n).map Parameter.id)

/-- A step that is not the sink's leaves a dense pool, and is the one in closed form. The list of
owners may already be the final one, since later claims do not move slots. -/
theorem step_dense (h : n.op.isSink = false) (ports : List PortRef) :
    ∃ s, g.step n (g.parameterRead n) (dense ports 0) =
        (s, dense (enroll ports (g.sources n ++ n.targets)) 0) ∧
      ∀ later, enroll ports (g.sources n ++ n.targets) <+: later → s = g.stepIn later n := by
  obtain ⟨s, hs, hlater⟩ := claims_step (g := g) h ports
  refine ⟨s, hs, fun later hl => ?_⟩
  rw [hlater later hl, stepIn, Node.destinationsIn, h]
  rfl

/-- The sink's step takes slots without an owner, after it has claimed its sources. -/
theorem step_dense_of_isSink (h : n.op.isSink = true) (ports : List PortRef) :
    g.step n (g.parameterRead n) (dense ports 0) =
      (g.stepIn (enroll ports (g.sources n)) n,
        dense (enroll ports (g.sources n)) n.inputs.length) := by
  obtain ⟨operands, hoperands, hlater⟩ := g.claims_operands n ports
  have hresults : n.destinations (dense (enroll ports (g.sources n)) 0) =
      (n.destinationsIn (enroll ports (g.sources n)),
        dense (enroll ports (g.sources n)) n.inputs.length) := by
    rw [Node.destinations, Node.destinationsIn, if_pos h, if_pos h, mapM_fresh, Nat.zero_add]
  show (let (operands, pool) := g.operands n (g.parameterRead n) (dense ports 0)
    let (results, pool) := n.destinations pool
    (Step.mk n.id n.op operands results ((g.parameterRead n).map Parameter.id), pool)) = _
  rw [hoperands]
  dsimp only
  rw [hresults]
  dsimp only
  rw [hlater _ List.prefix_rfl, stepIn]

end Graph

namespace Assembly

/-- An assembly with the step of one more node, of which it has been made sure that it has one. -/
def put (g : Graph) (a : Assembly) (n : Node) : Assembly where
  pool := (g.step n (g.parameterRead n) a.pool).2
  steps := a.steps ++ [(g.step n (g.parameterRead n) a.pool).1]
  parameters := catalog a.parameters (g.parameterRead n)

/-- The step of a node is added exactly if the node has one. -/
theorem add_eq_ok_iff {n : Node} {a' : Assembly} :
    add isKnown g a n = .ok a' ↔ g.Buildable isKnown n ∧ a' = a.put g n := by
  unfold add
  cases hknown : isKnown n.op with
  | false => exact ⟨nofun, fun ⟨h, _⟩ => absurd h.known (by simp [hknown])⟩
  | true =>
    simp only [Bool.not_true, Bool.false_eq_true, if_false, bind_eq_ok_iff,
      Graph.parameterOf_eq_ok_iff]
    constructor
    · rintro ⟨_, ⟨hparameter, rfl⟩, h⟩
      cases h
      exact ⟨⟨hknown, hparameter⟩, rfl⟩
    · rintro ⟨hn, rfl⟩
      exact ⟨_, ⟨hn.parameter, rfl⟩, rfl⟩

/-- The steps of nodes are added exactly if all of them have one. -/
theorem foldlM_add_eq_ok_iff {nodes : List Node} {a' : Assembly} :
    nodes.foldlM (add isKnown g) a = .ok a' ↔
      (∀ n ∈ nodes, g.Buildable isKnown n) ∧ a' = nodes.foldl (put g) a := by
  induction nodes generalizing a with
  | nil => exact ⟨fun h => by cases h; exact ⟨nofun, rfl⟩, fun ⟨_, h⟩ => by rw [h]; rfl⟩
  | cons n nodes ih =>
    rw [List.foldlM_cons, bind_eq_ok_iff, List.foldl_cons, List.forall_mem_cons]
    constructor
    · rintro ⟨b, hb, h⟩
      obtain ⟨hn, rfl⟩ := add_eq_ok_iff.1 hb
      obtain ⟨hnodes, rfl⟩ := ih.1 h
      exact ⟨⟨hn, hnodes⟩, rfl⟩
    · rintro ⟨⟨hn, hnodes⟩, rfl⟩
      exact ⟨_, add_eq_ok_iff.2 ⟨hn, rfl⟩, ih.2 ⟨hnodes, rfl⟩⟩

/-- The parameters read by the steps of nodes, collected node by node. -/
theorem parameters_foldl_put (g : Graph) (nodes : List Node) (a : Assembly) :
    (nodes.foldl (put g) a).parameters =
      nodes.foldl (fun known n => catalog known (g.parameterRead n)) a.parameters := by
  induction nodes generalizing a with
  | nil => rfl
  | cons n nodes ih => exact ih (a.put g n)

/-- The steps of nodes without the sink, put in turn, leave a dense pool and are those in closed
form. -/
theorem foldl_put_dense {nodes : List Node} {ports : List PortRef}
    (hnodes : ∀ n ∈ nodes, n.op.isSink = false) (ha : a.pool = dense ports 0) :
    (nodes.foldl (put g) a).pool =
        dense (enroll ports (nodes.flatMap fun n => g.sources n ++ n.targets)) 0 ∧
      ∀ later, enroll ports (nodes.flatMap fun n => g.sources n ++ n.targets) <+: later →
        (nodes.foldl (put g) a).steps = a.steps ++ nodes.map (g.stepIn later) := by
  induction nodes generalizing a ports with
  | nil => exact ⟨ha, fun _ _ => (List.append_nil _).symm⟩
  | cons n nodes ih =>
    obtain ⟨hn, hnodes⟩ := List.forall_mem_cons.1 hnodes
    obtain ⟨s, hs, hlater⟩ := Graph.step_dense (g := g) hn ports
    have hput : a.put g n = ⟨dense (enroll ports (g.sources n ++ n.targets)) 0, a.steps ++ [s],
        catalog a.parameters (g.parameterRead n)⟩ := by
      rw [put, ha, hs]
    obtain ⟨hpool, hsteps⟩ := ih (a := a.put g n) hnodes (by rw [hput])
    rw [List.foldl_cons, List.flatMap_cons, enroll_append]
    refine ⟨hpool, fun later hl => ?_⟩
    rw [hsteps later hl, hput, hlater later ((prefix_enroll ..).trans hl), List.map_cons,
      List.append_assoc]
    rfl

end Assembly

namespace Graph

/-- The plan whose steps are those of the given nodes, the sink's last. Its slots are those of ports
and one for each of the sink's inputs. -/
def planOn (g : Graph) (init : List Node) (sink : Node) : Plan where
  steps := (init ++ [sink]).map (g.stepIn (g.portsOf (init ++ [sink])))
  parameters :=
    (init ++ [sink]).foldl (fun known n => Assembly.catalog known (g.parameterRead n)) []
  slotCount := (g.portsOf (init ++ [sink])).length + sink.inputs.length
  nodeCount := g.nodes.length

/-- What the steps of nodes and then of the sink come to is the plan in closed form. -/
theorem foldl_put_eq_planOn (hinit : ∀ n ∈ init, n.op.isSink = false)
    (hsink : sink.op.isSink = true) :
    let a := (init ++ [sink]).foldl (Assembly.put g) {}
    a.steps = (g.planOn init sink).steps ∧ a.parameters = (g.planOn init sink).parameters ∧
      a.pool.slotCount = (g.planOn init sink).slotCount := by
  have hempty : ({} : Assembly).pool = dense [] 0 := rfl
  obtain ⟨hpool, hsteps⟩ := Assembly.foldl_put_dense (g := g) hinit hempty
  have hports : g.portsOf (init ++ [sink]) =
      enroll (enroll [] (init.flatMap fun n => g.sources n ++ n.targets)) (g.sources sink) := by
    simp [portsOf, enroll_append, Node.targets, hsink]
  have hstep := step_dense_of_isSink (g := g) hsink
    (enroll [] (init.flatMap fun n => g.sources n ++ n.targets))
  rw [← hports] at hstep
  refine ⟨?_, Assembly.parameters_foldl_put g _ {}, ?_⟩
  · rw [List.foldl_append, List.foldl_cons, List.foldl_nil, Assembly.put, hpool, hstep,
      hsteps (g.portsOf (init ++ [sink])) (hports ▸ prefix_enroll ..)]
    simp [planOn]
  · rw [List.foldl_append, List.foldl_cons, List.foldl_nil, Assembly.put, hpool, hstep,
      slotCount_dense, planOn]

/-- The nodes of a plan: those that the one sink of a checked graph depends on, in the order of the
search, with the sink at their end. -/
structure Schedule (g : Graph) (init : List Node) (sink : Node) : Prop where
  checked : g.Checked
  only : g.nodes.filter (·.op.isSink) = [sink]
  order : g.dependencyOrder sink.id = .ok ((init ++ [sink]).map (·.id))
  mem : ∀ n ∈ init ++ [sink], n ∈ g.nodes

namespace Schedule

/-- The sink of a schedule invokes the sink's operation. -/
theorem isSink (h : g.Schedule init sink) : sink.op.isSink = true := by
  have : sink ∈ g.nodes.filter (·.op.isSink) := h.only ▸ List.mem_singleton_self sink
  exact (List.mem_filter.1 this).2

/-- The order of the nodes is settled. -/
theorem settled (h : g.Schedule init sink) : g.Settled ((init ++ [sink]).map (·.id)) :=
  (dependencyOrder_ok h.order).1

/-- A node that is a sink is the sink. -/
theorem eq_sink (h : g.Schedule init sink) {n : Node} (hn : n ∈ init ++ [sink])
    (hsink : n.op.isSink = true) : n = sink := by
  have hmem : n ∈ g.nodes.filter (·.op.isSink) := List.mem_filter.2 ⟨h.mem n hn, hsink⟩
  rw [h.only] at hmem
  exact List.mem_singleton.1 hmem

/-- The nodes before the sink are no sinks. -/
theorem not_isSink (h : g.Schedule init sink) : ∀ n ∈ init, n.op.isSink = false := by
  intro n hn
  by_contra hsink
  have heq : n = sink := h.eq_sink (List.mem_append_left _ hn) (by simpa using hsink)
  have hnodup := h.settled.nodup
  rw [List.map_append, List.nodup_append] at hnodup
  exact hnodup.2.2 n.id (List.mem_map_of_mem hn) sink.id (by simp) (by rw [heq])

/-- A number of the graph stands for the node that has it. -/
theorem node?_eq_some (h : g.Schedule init sink) {n : Node} (hn : n ∈ init ++ [sink]) :
    g.node? n.id = some n :=
  h.checked.node?_eq_some_iff.2 ⟨h.mem n hn, rfl⟩

/-- The nodes are those that the sink depends on. -/
theorem mem_iff (h : g.Schedule init sink) {id : NodeId} :
    id ∈ (init ++ [sink]).map (·.id) ↔ Relation.ReflTransGen g.Draws sink.id id :=
  (dependencyOrder_ok h.order).2.1 id

/-- The numbers in the order of a schedule stand for its nodes. -/
theorem filterMap_node? (h : g.Schedule init sink) :
    ((init ++ [sink]).map (·.id)).filterMap g.node? = init ++ [sink] := by
  rw [List.filterMap_map]
  calc (init ++ [sink]).filterMap (g.node? ∘ (·.id))
      = (init ++ [sink]).filterMap some := List.filterMap_congr fun n hn => h.node?_eq_some hn
    _ = init ++ [sink] := List.filterMap_some

/-- The search from the sink of a checked graph gives a schedule, if it finds an order. -/
theorem of_order {order : List NodeId} (hg : g.Checked)
    (hsink : g.nodes.filter (·.op.isSink) = [sink]) (ho : g.dependencyOrder sink.id = .ok order) :
    ∃ init, g.Schedule init sink ∧ order = (init ++ [sink]).map (·.id) := by
  obtain ⟨-, hreach, before, rfl⟩ := dependencyOrder_ok ho
  have hmem : sink ∈ g.nodes :=
    (List.mem_filter.1 (hsink ▸ List.mem_singleton_self sink)).1
  have hnode : ∀ id ∈ before ++ [sink.id], ∃ n ∈ g.nodes, n.id = id := fun id hid =>
    hg.exists_node ⟨sink, hmem, rfl⟩ ((hreach id).1 hid)
  have hids : ∀ l : List NodeId, (∀ id ∈ l, ∃ n ∈ g.nodes, n.id = id) →
      (l.filterMap g.node?).map (·.id) = l := by
    intro l hl
    induction l with
    | nil => rfl
    | cons id l ih =>
      obtain ⟨⟨n, hn, hid⟩, hl⟩ := List.forall_mem_cons.1 hl
      rw [List.filterMap_cons_some (hg.node?_eq_some_iff.2 ⟨hn, hid⟩), List.map_cons, ih hl, hid]
  have hbefore := hids before fun id hid => hnode id (List.mem_append_left _ hid)
  have horder : before ++ [sink.id] = (before.filterMap g.node? ++ [sink]).map (·.id) := by
    rw [List.map_append, hbefore]
    rfl
  refine ⟨before.filterMap g.node?, ⟨hg, hsink, horder ▸ ho, fun n hn => ?_⟩, horder⟩
  rcases List.mem_append.1 hn with hn | hn
  · obtain ⟨id, -, hid⟩ := List.mem_filterMap.1 hn
    exact (hg.node?_eq_some_iff.1 hid).1
  · exact List.mem_singleton.1 hn ▸ hmem

end Schedule

/-- A graph has a plan exactly if it has a schedule whose nodes all have steps, and the plan is made
of these. -/
theorem plan_eq_ok_iff {p : Plan} :
    g.plan isKnown = .ok p ↔
      ∃ init sink, g.Schedule init sink ∧ (∀ n ∈ init ++ [sink], g.Buildable isKnown n) ∧
        p = g.planOn init sink := by
  simp only [plan, bind_eq_ok_iff]
  constructor
  · rintro ⟨_, hids, _, hwires, _, hfan, sink, hsink, order, ho, a, ha, hp⟩
    have hg : g.Checked := checks_eq_ok_iff.1 ⟨hids, hwires, hfan⟩
    obtain ⟨init, h, rfl⟩ := Schedule.of_order hg (sink_eq_ok_iff.1 hsink) ho
    rw [h.filterMap_node?] at ha
    obtain ⟨hbuild, rfl⟩ := Assembly.foldlM_add_eq_ok_iff.1 ha
    obtain ⟨hsteps, hparameters, hcount⟩ := foldl_put_eq_planOn (g := g) h.not_isSink h.isSink
    cases hp
    refine ⟨init, sink, h, hbuild, ?_⟩
    rw [hsteps, hparameters, hcount]
    rfl
  · rintro ⟨init, sink, h, hbuild, rfl⟩
    obtain ⟨hids, hwires, hfan⟩ := checks_eq_ok_iff.2 h.checked
    obtain ⟨hsteps, hparameters, hcount⟩ := foldl_put_eq_planOn (g := g) h.not_isSink h.isSink
    refine ⟨_, hids, _, hwires, _, hfan, sink, sink_eq_ok_iff.2 h.only, _, h.order,
      (init ++ [sink]).foldl (Assembly.put g) {}, ?_, ?_⟩
    · rw [h.filterMap_node?]
      exact Assembly.foldlM_add_eq_ok_iff.2 ⟨hbuild, rfl⟩
    · rw [hsteps, hparameters, hcount]
      rfl

end Graph

end NodeGraph
