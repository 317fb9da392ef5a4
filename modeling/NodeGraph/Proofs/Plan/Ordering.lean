import Mathlib.Data.List.Perm.Subperm
import Mathlib.Data.Set.Card
import NodeGraph.Proofs.Plan.WellFormed
import NodeGraph.Proofs.Plan.Wiring

/-!
# The order of a plan's steps

A plan has one step for each live node. A step comes after those of all nodes that its node needs,
also where the operation takes no inputs and the step reads no slot, and the sink's step is the last
(`OpTable.plan_ordered`). What a plan tells in numbers is therefore the number of live nodes and the
number of the others.

To be live is said with the wires of the graph, and not with the search. That the search lists
exactly the live nodes is where the two meet.
-/

namespace NodeGraph

/-- The steps of a plan go through the live nodes of a graph in dependency order. -/
structure Plan.Ordered (g : Graph) (p : Plan) : Prop where
  /-- No node has two steps, however many nodes need it. -/
  nodup : (p.steps.map (·.node)).Nodup
  /-- Exactly the live nodes have a step. -/
  live : ∀ id, id ∈ p.steps.map (·.node) ↔ g.Live id
  /-- A step comes after those of the nodes that its node needs, whether or not it reads what they
  give. -/
  earlier : ∀ before s after, p.steps = before ++ s :: after →
    ∀ id, g.Needs s.node id → ∃ s' ∈ before, s'.node = id
  /-- The last step is the sink's, which is where the readout looks for it. -/
  last : ∃ s n, p.sink? = some s ∧ n ∈ g.nodes ∧ n.op.isSink ∧ n.id = s.node
  /-- The search from the sink gave these nodes in turn, and the graph has them all. -/
  search : ∃ sink order, g.sink = .ok sink ∧ g.dependencyOrder sink.id = .ok order ∧
    (∀ id ∈ order, (g.node? id).isSome) ∧ p.steps.map (·.node) = order
  /-- The number of active nodes is that of live ones. -/
  active : Set.encard {id | g.Live id} = p.stats.active
  total : p.stats.total = g.nodes.length
  /-- The active nodes and the disconnected ones are all nodes. -/
  disconnected : p.stats.active + p.stats.disconnected = p.stats.total

namespace Graph

variable {g : Graph} {init : List Node} {sink : Node}

/-- The steps of a plan have the numbers of its nodes. -/
theorem map_node_planOn (g : Graph) (init : List Node) (sink : Node) :
    (g.planOn init sink).steps.map (·.node) = (init ++ [sink]).map (·.id) := by
  rw [planOn, List.map_map]
  rfl

namespace Schedule

/-- What a node needs has a step before the node's own, by the order of the search. -/
theorem exists_step_of_needs (h : g.Schedule init sink) {before after : List Step} {s : Step}
    (hsteps : (g.planOn init sink).steps = before ++ s :: after) {id : NodeId}
    (hneeds : g.Needs s.node id) : ∃ s' ∈ before, s'.node = id := by
  have hsettled : g.Settled (before.map (·.node) ++ s.node :: after.map (·.node)) := by
    have hids := g.map_node_planOn init sink
    rw [hsteps, List.map_append, List.map_cons] at hids
    exact hids ▸ h.settled
  rw [← h.checked.draws_eq_needs] at hneeds
  exact List.mem_map.1 (hsettled.mem_of_draws hneeds)

/-- There are no more nodes in a schedule than in the graph, since they are distinct nodes of it. -/
theorem length_le (h : g.Schedule init sink) : (init ++ [sink]).length ≤ g.nodes.length := by
  have hsub : (init ++ [sink]).map (·.id) ⊆ g.nodes.map (·.id) := List.map_subset _ h.mem
  have hle := (List.subperm_of_subset h.settled.nodup hsub).length_le
  simpa only [List.length_map] using hle

/-- There are as many live nodes as nodes in a schedule. -/
theorem encard_live (h : g.Schedule init sink) :
    Set.encard {id | g.Live id} = (init ++ [sink]).length := by
  have hset : {id | g.Live id} = (((init ++ [sink]).map (·.id)).toFinset : Set NodeId) := by
    ext id
    rw [Set.mem_ofPred_eq, h.live_iff, Finset.mem_coe, List.mem_toFinset]
  rw [hset, Set.encard_coe_eq_coe_finsetCard, List.toFinset_card_of_nodup h.settled.nodup,
    List.length_map]

/-- The plan of a schedule goes through the live nodes in dependency order. -/
theorem ordered (h : g.Schedule init sink) : (g.planOn init sink).Ordered g where
  nodup := g.map_node_planOn init sink ▸ h.settled.nodup
  live id := by rw [map_node_planOn, h.live_iff]
  earlier _ _ _ hsteps _ hneeds := h.exists_step_of_needs hsteps hneeds
  last := by
    have hmem : sink ∈ g.nodes := h.mem sink (by simp)
    refine ⟨g.stepIn (g.portsOf (init ++ [sink])) sink, sink, ?_, hmem, h.isSink, rfl⟩
    rw [Plan.sink?, planOn, List.map_append, List.map_singleton, List.getLast?_concat]
  search := by
    refine ⟨sink, _, sink_eq_ok_iff.2 h.only, h.order, ?_, g.map_node_planOn init sink⟩
    intro id hid
    obtain ⟨n, hn, rfl⟩ := List.mem_map.1 hid
    exact Option.isSome_of_eq_some (h.node?_eq_some hn)
  active := by
    rw [h.encard_live, Plan.stats, planOn, List.length_map]
  total := rfl
  disconnected := by
    have hle := h.length_le
    simp only [Plan.stats, planOn, List.length_map]
    omega

end Schedule

end Graph

/-- The steps of a graph's plan go through its live nodes in dependency order, each live node once
and the sink last. What the plan tells in numbers agrees with it. -/
theorem OpTable.plan_ordered {t : OpTable} {g : Graph} {p : Plan} (h : t.plan g = .ok p) :
    p.Ordered g := by
  obtain ⟨init, sink, hschedule, -, rfl⟩ := Graph.plan_eq_ok_iff.1 h
  exact hschedule.ordered

/-- A node is wired to a constant, which does not take it, and both to the sink. One more node,
wired to itself, is not live. -/
def Graph.idleWire : Graph where
  nodes :=
    [{ id := ⟨1⟩, op := ⟨1, 1⟩, ports := [.input 0 "a" .integer, .input 1 "b" .integer] },
     { id := ⟨2⟩, op := ⟨2, 1⟩, ports := [.input 0 "unused" .integer, .output 1 "n" .integer],
       literals := [.integer 7] },
     { id := ⟨3⟩, op := ⟨3, 1⟩, ports := [.output 0 "n" .integer] },
     { id := ⟨4⟩, op := ⟨3, 1⟩, ports := [.input 0 "a" .integer, .output 1 "n" .integer] }]
  wires :=
    [⟨⟨⟨2⟩, 1⟩, ⟨⟨1⟩, 0⟩⟩, ⟨⟨⟨3⟩, 0⟩, ⟨⟨1⟩, 1⟩⟩, ⟨⟨⟨3⟩, 0⟩, ⟨⟨2⟩, 0⟩⟩, ⟨⟨⟨4⟩, 1⟩, ⟨⟨4⟩, 0⟩⟩]

/-- The plan of `Graph.idleWire`. The constant has its literal as its operand, in spite of the
wire. -/
def Plan.idleWire : Plan where
  steps :=
    [{ node := ⟨3⟩, op := ⟨3, 1⟩, operands := [], results := [⟨⟨0⟩, .integer⟩], parameter := none },
     { node := ⟨2⟩, op := ⟨2, 1⟩, operands := [.literal (.integer 7)],
       results := [⟨⟨1⟩, .integer⟩], parameter := none },
     { node := ⟨1⟩, op := ⟨1, 1⟩, operands := [.slot ⟨1⟩, .slot ⟨0⟩],
       results := [⟨⟨2⟩, .integer⟩, ⟨⟨3⟩, .integer⟩], parameter := none }]
  parameters := []
  slotCount := 4
  nodeCount := 4

/-- The constant's step comes after that of the node wired to it, and one of the four nodes has no
step. -/
theorem OpTable.plan_ordered_idleWire :
    OpTable.branching.plan .idleWire = .ok .idleWire ∧ Plan.idleWire.Ordered .idleWire ∧
      Plan.idleWire.stats.disconnected = 1 := by
  have h : OpTable.branching.plan .idleWire = .ok .idleWire := by decide +kernel
  exact ⟨h, OpTable.plan_ordered h, rfl⟩

end NodeGraph
