import NodeGraph.Proofs.Plan.Layout
import NodeGraph.Session.Basic

/-!
# The graphs that can be planned

`Graph.WellFormed` says without any search what a graph has to be like. Conditions on nodes and
wires hold of all of them; those on cycles, operations and parameters only of the live part, which
is what the sink depends on. `OpTable.exists_plan_iff_wellFormed` says that a graph has a plan
exactly if it is well-formed.

Between the two stands the schedule: a well-formed graph has one, whose nodes all have steps, and a
graph with such a schedule is well-formed.
-/

namespace NodeGraph

open Relation

namespace Graph

variable {g : Graph} {isKnown : OpCode → Bool} {init : List Node} {sink : Node}

/-- A node is live if the sink is that node or depends on it. Where a graph has several sinks, what
one of them depends on is live. -/
def Live (g : Graph) (id : NodeId) : Prop :=
  ∃ sink ∈ g.nodes, sink.op.isSink ∧ ReflTransGen g.Needs sink.id id

/-- What a graph has to be like to have a plan with the operations that are known. -/
structure WellFormed (isKnown : OpCode → Bool) (g : Graph) : Prop where
  /-- No two nodes have the same number, live or not. -/
  ids : (g.nodes.map (·.id)).Nodup
  /-- Every wire leads from an output port to an input port, also where it leads to a node that is
  not live. -/
  wires : ∀ w ∈ g.wires, g.Sound w
  /-- No two wires arrive at the same port. Any number of them can start at one. -/
  targets : (g.wires.map (·.target)).Nodup
  /-- There is exactly one sink, told by its operation. -/
  oneSink : (g.nodes.filter (·.op.isSink)).length = 1
  /-- No live node depends on itself. There may be cycles elsewhere. -/
  acyclic : ∀ id, g.Live id → ¬TransGen g.Needs id id
  /-- The operations of live nodes are known. Others need not be. -/
  known : ∀ n ∈ g.nodes, g.Live n.id → isKnown n.op
  /-- The parameters that live nodes read are in the graph. -/
  parameters : ∀ n ∈ g.nodes, g.Live n.id → n.op.isParameter →
    ∃ id, n.parameter = some id ∧ ∃ p ∈ g.parameters, p.id = id

/-- A parameter read finds its parameter exactly if it names one of the graph. -/
theorem parameterRead_isSome_iff {n : Node} (h : n.op.isParameter) :
    (g.parameterRead n).isSome ↔
      ∃ id, n.parameter = some id ∧ ∃ p ∈ g.parameters, p.id = id := by
  rw [parameterRead, if_pos h]
  cases n.parameter with
  | none => simp
  | some id =>
    rw [Option.bind_some, parameter?, List.find?_isSome]
    constructor
    · rintro ⟨p, hp, hid⟩
      exact ⟨id, rfl, p, hp, by simpa using hid⟩
    · rintro ⟨_, hsome, p, hp, hid⟩
      cases hsome
      exact ⟨p, hp, by simpa using hid⟩

namespace Schedule

/-- The numbers of a schedule's nodes are those of live nodes. -/
theorem live_iff (h : g.Schedule init sink) {id : NodeId} :
    g.Live id ↔ id ∈ (init ++ [sink]).map (·.id) := by
  rw [h.mem_iff, h.checked.draws_eq_needs]
  constructor
  · rintro ⟨sink', hmem, hsink, hid⟩
    have : sink' ∈ g.nodes.filter (·.op.isSink) := List.mem_filter.2 ⟨hmem, hsink⟩
    rw [h.only, List.mem_singleton] at this
    exact this ▸ hid
  · exact fun hid => ⟨sink, h.mem sink (by simp), h.isSink, hid⟩

/-- A schedule holds exactly the live nodes. -/
theorem mem_iff_live (h : g.Schedule init sink) {n : Node} :
    n ∈ init ++ [sink] ↔ n ∈ g.nodes ∧ g.Live n.id := by
  rw [h.live_iff]
  refine ⟨fun hn => ⟨h.mem n hn, List.mem_map_of_mem hn⟩, fun ⟨hn, hid⟩ => ?_⟩
  obtain ⟨m, hm, hmn⟩ := List.mem_map.1 hid
  have hsome := h.node?_eq_some hm
  rw [hmn, h.checked.node?_eq_some_iff.2 ⟨hn, rfl⟩] at hsome
  exact Option.some.inj hsome ▸ hm

/-- In a graph with a schedule, no live node depends on itself. -/
theorem acyclic (h : g.Schedule init sink) {id : NodeId} (hlive : g.Live id) :
    ¬TransGen g.Needs id id := by
  rw [← h.checked.draws_eq_needs]
  exact h.settled.not_transGen (h.live_iff.1 hlive)

end Schedule

/-- A graph with a schedule of nodes that have steps is well-formed. -/
theorem WellFormed.of_schedule (h : g.Schedule init sink)
    (hbuild : ∀ n ∈ init ++ [sink], g.Buildable isKnown n) : g.WellFormed isKnown where
  ids := h.checked.ids
  wires := h.checked.wires
  targets := h.checked.targets
  oneSink := by rw [h.only]; rfl
  acyclic _ := h.acyclic
  known n hn hlive := (hbuild n (h.mem_iff_live.2 ⟨hn, hlive⟩)).known
  parameters n hn hlive hparameter := (parameterRead_isSome_iff hparameter).1
    ((hbuild n (h.mem_iff_live.2 ⟨hn, hlive⟩)).parameter hparameter)

/-- A well-formed graph has a schedule. The search from its sink cannot find a cycle, since it would
be one of live nodes. -/
theorem WellFormed.exists_schedule (h : g.WellFormed isKnown) :
    ∃ init sink, g.Schedule init sink := by
  have hg : g.Checked := ⟨h.ids, h.wires, h.targets⟩
  obtain ⟨sink, hsink⟩ := List.length_eq_one_iff.1 h.oneSink
  obtain ⟨hmem, hop⟩ := List.mem_filter.1 (hsink ▸ List.mem_singleton_self sink)
  cases ho : g.dependencyOrder sink.id with
  | error defect =>
    obtain ⟨v, -, hreach, hcycle⟩ := dependencyOrder_error ho
    rw [hg.draws_eq_needs] at hreach hcycle
    exact absurd hcycle (h.acyclic v ⟨sink, hmem, hop, hreach⟩)
  | ok order =>
    obtain ⟨init, hschedule, -⟩ := Schedule.of_order hg hsink ho
    exact ⟨init, sink, hschedule⟩

end Graph

/-- A graph has a plan with the operations of a table exactly if it is well-formed. All nodes and
wires have to be in order, and what the sink depends on has to be without a cycle, with operations
that the table has and with parameters that the graph has. What the operations do does not
matter. -/
theorem OpTable.exists_plan_iff_wellFormed (t : OpTable) (g : Graph) :
    (∃ p, t.plan g = .ok p) ↔ g.WellFormed t.contains := by
  simp only [OpTable.plan, Graph.plan_eq_ok_iff]
  constructor
  · rintro ⟨_, init, sink, h, hbuild, -⟩
    exact .of_schedule h hbuild
  · intro h
    obtain ⟨init, sink, hschedule⟩ := h.exists_schedule
    refine ⟨_, init, sink, hschedule, fun n hn => ?_, rfl⟩
    obtain ⟨hmem, hlive⟩ := hschedule.mem_iff_live.1 hn
    exact ⟨h.known n hmem hlive, fun hparameter =>
      (Graph.parameterRead_isSome_iff hparameter).2 (h.parameters n hmem hlive hparameter)⟩

end NodeGraph
