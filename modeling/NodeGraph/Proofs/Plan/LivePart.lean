import NodeGraph.Proofs.Plan.Ordering
import NodeGraph.Proofs.Plan.Renaming

/-!
# The live part of a graph

Nodes that the sink does not depend on, the wires into them and the parameters that no step reads
are checked and then play no part. `Graph.livePart` is a graph without them, and
`OpTable.plan_livePart` says that it has the same plan, with any table that knows the operations of
the live nodes.

Which nodes are live is not decided by a search here, but by an instance that statements take as an
argument. A graph with a plan has one, since its plan has a step for each live node
(`Graph.decidableLive`).
-/

namespace NodeGraph

/-- A search in part of a list is one in the list, if the part holds all that may be found. -/
theorem find?_filter_of_imp {α : Type} {p q : α → Bool} {l : List α} (h : ∀ a ∈ l, p a → q a) :
    (l.filter q).find? p = l.find? p := by
  rw [← List.head?_filter, ← List.head?_filter, List.filter_filter]
  refine congrArg List.head? (List.filter_congr fun a ha => ?_)
  cases hp : p a with
  | false => rfl
  | true => rw [h a ha hp, Bool.and_self]

namespace Graph

variable {g g' : Graph} {init nodes : List Node} {sink n : Node} {known : List Parameter}

/-- The live nodes of a graph and the wires into them, with the given parameters. -/
def livePart (g : Graph) [DecidablePred g.Live] (parameters : List Parameter) : Graph where
  nodes := g.nodes.filter (g.Live ·.id)
  wires := g.wires.filter (g.Live ·.target.node)
  parameters := parameters

/-- The nodes that have steps in a graph's plan are the live ones. -/
theorem mem_steps_iff_live {isKnown : OpCode → Bool} {p : Plan} (h : g.plan isKnown = .ok p)
    {id : NodeId} : id ∈ p.steps.map (·.node) ↔ g.Live id := by
  obtain ⟨init, sink, hs, -, rfl⟩ := plan_eq_ok_iff.1 h
  rw [map_node_planOn, hs.live_iff]

/-- Which nodes of a graph are live can be read off the steps of its plan. This is no instance,
since a plan is needed for it. -/
@[reducible] def decidableLive {isKnown : OpCode → Bool} {p : Plan} (h : g.plan isKnown = .ok p) :
    DecidablePred g.Live := fun id =>
  decidable_of_iff (id ∈ p.steps.map (·.node)) (mem_steps_iff_live h)

/-- What arrives at a live node comes from a live node. -/
theorem Checked.live_of_source? (hg : g.Checked) {target source : PortRef}
    (hlive : g.Live target.node) (hsource : g.source? target = some source) :
    g.Live source.node := by
  obtain ⟨w, hw, rfl, rfl⟩ := hg.source?_eq_some_iff.1 hsource
  obtain ⟨n, p, hn, hp, hinput⟩ := (hg.wires w hw).target
  obtain ⟨hmem, hid⟩ := hg.node?_eq_some_iff.1 hn
  have hport : p.id = w.target.port := by simpa using List.find?_some hp
  have hinputs : p ∈ n.inputs := List.mem_filter.2 ⟨List.mem_of_find?_eq_some hp, hinput⟩
  have htarget : w.target = n.ref p := by rw [Node.ref, hid, hport]
  obtain ⟨sink, hsink, hop, hreach⟩ := hlive
  exact ⟨sink, hsink, hop, hreach.tail ⟨n, hmem, hid, p, hinputs, w, hw, htarget, rfl⟩⟩

/-- The parameter that a number stands for has it. -/
theorem id_of_parameter? {id : ParameterId} {q : Parameter} (h : g.parameter? id = some q) :
    q.id = id := by
  simpa using List.find?_some h

/-- A parameter that is read is the first of its number. -/
theorem parameter?_of_parameterRead {q : Parameter} (h : g.parameterRead n = some q) :
    g.parameter? q.id = some q := by
  unfold parameterRead at h
  split at h
  · obtain ⟨id, -, hq⟩ := Option.bind_eq_some_iff.1 h
    rw [id_of_parameter? hq, hq]
  · cases h

/-- Where each parameter is the first of its number, the number tells whether it is in a catalog. -/
theorem mem_catalog {read : Option Parameter} {q : Parameter}
    (hknown : ∀ q ∈ known, g.parameter? q.id = some q)
    (hread : ∀ q, read = some q → g.parameter? q.id = some q) :
    q ∈ Assembly.catalog known read ↔ q ∈ known ∨ read = some q := by
  cases read with
  | none => exact ⟨.inl, fun h => h.resolve_right nofun⟩
  | some p =>
    show q ∈ (if known.any (·.id = p.id) then known else known ++ [p]) ↔ _
    split
    · rename_i hany
      obtain ⟨p', hp', hid⟩ := List.any_eq_true.1 hany
      have heq : p' = p := by
        have hsome := hknown p' hp'
        rw [of_decide_eq_true hid, hread p rfl] at hsome
        exact (Option.some.inj hsome).symm
      refine ⟨.inl, fun h => h.elim id fun h => ?_⟩
      cases h
      exact heq ▸ hp'
    · rw [List.mem_append, List.mem_singleton, Option.some.injEq, @eq_comm _ q p]

/-- The catalog after nodes have been read holds what was there and what they read. -/
theorem mem_foldl_catalog {q : Parameter} (hknown : ∀ q ∈ known, g.parameter? q.id = some q) :
    q ∈ nodes.foldl (fun known n => Assembly.catalog known (g.parameterRead n)) known ↔
      q ∈ known ∨ ∃ n ∈ nodes, g.parameterRead n = some q := by
  induction nodes generalizing known with
  | nil => simp
  | cons n nodes ih =>
    have hmem (q : Parameter) :
        q ∈ Assembly.catalog known (g.parameterRead n) ↔ q ∈ known ∨ g.parameterRead n = some q :=
      mem_catalog hknown fun _ => parameter?_of_parameterRead
    have hfirst : ∀ q ∈ Assembly.catalog known (g.parameterRead n), g.parameter? q.id = some q :=
      fun q hq => ((hmem q).1 hq).elim (hknown q) parameter?_of_parameterRead
    rw [List.foldl_cons, ih hfirst, hmem, or_assoc, List.exists_mem_cons_iff]

/-- The parameters of a plan are those that its nodes read. -/
theorem mem_parameters_planOn {q : Parameter} :
    q ∈ (g.planOn init sink).parameters ↔ ∃ n ∈ init ++ [sink], g.parameterRead n = some q := by
  rw [planOn, mem_foldl_catalog (List.forall_mem_nil _), or_iff_right List.not_mem_nil]

/-- A node reads the same parameter if the graph has no others than those that are read. The first
of its number is among them. -/
theorem parameterRead_eq
    (hparameters : ∀ q, q ∈ g'.parameters ↔ ∃ n ∈ nodes, g.parameterRead n = some q)
    (hn : n ∈ nodes) : g'.parameterRead n = g.parameterRead n := by
  have hfound : ∀ {id q}, g'.parameter? id = some q → g.parameter? id = some q := by
    intro id q hq
    obtain ⟨m, -, hread⟩ := (hparameters q).1 (List.mem_of_find?_eq_some hq)
    exact id_of_parameter? hq ▸ parameter?_of_parameterRead hread
  by_cases hop : n.op.isParameter
  case neg => rw [parameterRead, parameterRead, if_neg hop, if_neg hop]
  cases hparameter : n.parameter with
  | none => rw [parameterRead, parameterRead, hparameter]; rfl
  | some id =>
    have hread (g : Graph) : g.parameterRead n = g.parameter? id := by
      rw [parameterRead, if_pos hop, hparameter, Option.bind_some]
    rw [hread g', hread g]
    cases hq : g.parameter? id with
    | some q =>
      have hmem : q ∈ g'.parameters := (hparameters q).2 ⟨n, hn, (hread g).trans hq⟩
      have hsome : (g'.parameter? id).isSome :=
        List.find?_isSome.2 ⟨q, hmem, decide_eq_true (id_of_parameter? hq)⟩
      obtain ⟨q', hq'⟩ := Option.isSome_iff_exists.1 hsome
      rw [hq', ← hq, hfound hq']
    | none =>
      refine Option.eq_none_iff_forall_ne_some.2 fun q hq' => ?_
      rw [hfound hq'] at hq
      cases hq

section LivePart

variable [DecidablePred g.Live] {parameters : List Parameter}

/-- A live node is found in the live part under its number. -/
theorem node?_livePart {id : NodeId} (h : g.Live id) :
    (g.livePart parameters).node? id = g.node? id := by
  refine find?_filter_of_imp fun n _ hn => ?_
  rw [of_decide_eq_true hn]
  exact decide_eq_true h

/-- What arrives at a live node is found in the live part, since the wire leads into a live node. -/
theorem source?_livePart {target : PortRef} (h : g.Live target.node) :
    (g.livePart parameters).source? target = g.source? target := by
  refine congrArg (Option.map Wire.source) (find?_filter_of_imp fun w _ hw => ?_)
  rw [of_decide_eq_true hw]
  exact decide_eq_true h

/-- The live part of a checked graph is checked. Its wires lead between live nodes. -/
theorem Checked.livePart (hg : g.Checked) : (g.livePart parameters).Checked where
  ids := hg.ids.sublist (List.filter_sublist.map _)
  targets := hg.targets.sublist (List.filter_sublist.map _)
  wires w hw := by
    obtain ⟨hmem, hdecide⟩ := List.mem_filter.1 hw
    have htarget : g.Live w.target.node := of_decide_eq_true hdecide
    have hsource : g.Live w.source.node :=
      hg.live_of_source? htarget (hg.source?_eq_some_iff.2 ⟨w, hmem, rfl, rfl⟩)
    obtain ⟨hs, ht⟩ := hg.wires w hmem
    refine ⟨?_, ?_⟩
    · rwa [node?_livePart hsource]
    · rwa [node?_livePart htarget]

namespace Schedule

/-- The live part of a graph holds the nodes of its schedule, in the order of the graph. -/
theorem perm_livePart (h : g.Schedule init sink) :
    (g.livePart parameters).nodes.Perm (init ++ [sink]) := by
  have hnodup : (g.livePart parameters).nodes.Nodup := (h.checked.ids.of_map _).filter _
  refine (List.perm_ext_iff_of_nodup hnodup (h.settled.nodup.of_map _)).2 fun n => ?_
  rw [h.mem_iff_live, livePart, List.mem_filter, decide_eq_true_eq]

/-- The live part of a graph has the same sink. -/
theorem only_livePart (h : g.Schedule init sink) :
    (g.livePart parameters).nodes.filter (·.op.isSink) = [sink] := by
  have hlive : g.Live sink.id := h.live_iff.2 (List.mem_map_of_mem (by simp))
  have hcomm : (g.livePart parameters).nodes.filter (·.op.isSink) =
      (g.nodes.filter (·.op.isSink)).filter (g.Live ·.id) := by
    rw [livePart, List.filter_filter, List.filter_filter]
    exact List.filter_congr fun n _ => Bool.and_comm ..
  rw [hcomm, h.only, List.filter_singleton, decide_eq_true hlive]
  rfl

/-- The live part of a graph is found again in the graph that has nothing else. -/
theorem toMatches (h : g.Schedule init sink) :
    Matches id {id | g.Live id} g (g.livePart (g.planOn init sink).parameters) where
  inj := Set.injOn_id _
  node _ hid := (node?_livePart hid).trans Option.map_id'.symm
  source _ htarget := (source?_livePart htarget).trans Option.map_id'.symm
  closed _ _ := h.checked.live_of_source?
  parameter _ hn hlive :=
    parameterRead_eq (fun _ => mem_parameters_planOn) (h.mem_iff_live.2 ⟨hn, hlive⟩)

/-- The plan of a schedule in the live part has the same steps, and no node without one. -/
theorem planOn_livePart (h : g.Schedule init sink) :
    (g.livePart (g.planOn init sink).parameters).planOn init sink =
      { g.planOn init sink with nodeCount := (init ++ [sink]).length } := by
  have hlive : ∀ n ∈ init ++ [sink], g.Live n.id := fun n hn => (h.mem_iff_live.1 hn).2
  have hplan := h.toMatches.planOn_eq h.mem hlive
  rw [h.perm_livePart.length_eq] at hplan
  rwa [map_rename_id, plan_rename_id] at hplan

/-- A schedule of a graph is one of its live part, since the search goes through live nodes only. -/
theorem livePart (h : g.Schedule init sink) :
    (g.livePart (g.planOn init sink).parameters).Schedule init sink := by
  have hlive : ∀ n ∈ init ++ [sink], g.Live n.id := fun n hn => (h.mem_iff_live.1 hn).2
  have hschedule := h.toMatches.schedule h hlive h.checked.livePart h.only_livePart
  rwa [map_rename_id] at hschedule

end Schedule

end LivePart

end Graph

/-- The live part of a graph with a plan has the same plan, with any table that knows the operations
of the live nodes, and all its nodes are active. What is not live can thus have unknown operations,
missing parameters and cycles, and it makes no difference to the plan if it is taken away. -/
theorem OpTable.plan_livePart {t t' : OpTable} {g : Graph} {p : Plan} [DecidablePred g.Live]
    (h : t.plan g = .ok p) (ht' : ∀ n ∈ g.nodes, g.Live n.id → t'.contains n.op) :
    ∃ p', t'.plan (g.livePart p.parameters) = .ok p' ∧ p'.steps = p.steps ∧
      p'.parameters = p.parameters ∧ p'.slotCount = p.slotCount ∧
      p'.stats.total = p'.stats.active ∧ p'.stats.disconnected = 0 := by
  obtain ⟨init, sink, hs, hbuild, rfl⟩ := Graph.plan_eq_ok_iff.1 h
  have hbuild' : ∀ n ∈ init ++ [sink],
      (g.livePart (g.planOn init sink).parameters).Buildable t'.contains n := by
    intro n hn
    obtain ⟨hmem, hlive⟩ := hs.mem_iff_live.1 hn
    have hread := hs.toMatches.parameter n hmem hlive
    exact ⟨ht' n hmem hlive, fun hop => hread ▸ (hbuild n hn).parameter hop⟩
  refine ⟨_, Graph.plan_eq_ok_iff.2 ⟨init, sink, hs.livePart, hbuild', rfl⟩, ?_⟩
  rw [hs.planOn_livePart]
  have hlength : (g.planOn init sink).steps.length = (init ++ [sink]).length := List.length_map ..
  refine ⟨rfl, rfl, rfl, hlength.symm, ?_⟩
  rw [Plan.stats, hlength, Nat.sub_self]

/-- `Graph.branching` with two nodes more that draw on each other. The one has an unknown operation,
the other reads a parameter that is missing and draws on the constant. A second parameter has the
number of the first. -/
def Graph.overgrown : Graph where
  nodes :=
    { id := ⟨5⟩, op := ⟨9, 9⟩, ports := [.input 0 "a" .bool, .output 1 "b" .bool] } ::
    { id := ⟨6⟩, op := ⟨6, 1⟩, parameter := some ⟨7⟩,
      ports := [.input 0 "a" .bool, .input 1 "n" .integer, .output 2 "b" .bool] } ::
    Graph.branching.nodes
  wires :=
    ⟨⟨⟨5⟩, 1⟩, ⟨⟨6⟩, 0⟩⟩ :: ⟨⟨⟨6⟩, 2⟩, ⟨⟨5⟩, 0⟩⟩ :: ⟨⟨⟨2⟩, 0⟩, ⟨⟨6⟩, 1⟩⟩ :: Graph.branching.wires
  parameters := Graph.branching.parameters ++ [{ id := ⟨9⟩, name := "q", value := .bool false }]

/-- Neither of the two nodes has a step, although one would have an unknown operation and both are
on a cycle. -/
theorem OpTable.plan_overgrown :
    OpTable.branching.plan .overgrown = .ok { Plan.branching with nodeCount := 6 } := by
  decide +kernel

/-- The operations of `OpTable.branching` by number, none of which gives a result. -/
def OpTable.mute : OpTable where
  entries := OpTable.branching.entries.map fun e => (e.1, ⟨"mute", fun _ => pure []⟩)

/-- The live part is `Graph.branching`, which has the same plan with other operations. The two nodes
that draw on each other are gone, and so is the second parameter. -/
theorem OpTable.plan_livePart_overgrown :
    letI : DecidablePred Graph.overgrown.Live := Graph.decidableLive OpTable.plan_overgrown
    OpTable.branching.plan .overgrown = .ok { Plan.branching with nodeCount := 6 } ∧
      Graph.overgrown.livePart Plan.branching.parameters = .branching ∧
      (∀ n ∈ Graph.overgrown.nodes, Graph.overgrown.Live n.id → OpTable.mute.contains n.op) ∧
      ∃ p, OpTable.mute.plan .branching = .ok p ∧ p.steps = Plan.branching.steps ∧
        p.stats.disconnected = 0 := by
  have hpart :
      letI : DecidablePred Graph.overgrown.Live := Graph.decidableLive OpTable.plan_overgrown
      Graph.overgrown.livePart Plan.branching.parameters = .branching := by
    decide +kernel
  have hknown : ∀ n ∈ Graph.overgrown.nodes, Graph.overgrown.Live n.id →
      OpTable.mute.contains n.op := by
    have hsteps : ∀ n ∈ Graph.overgrown.nodes, n.id ∈ Plan.branching.steps.map (·.node) →
        OpTable.mute.contains n.op := by decide
    intro n hn hlive
    exact hsteps n hn ((Graph.mem_steps_iff_live OpTable.plan_overgrown).2 hlive)
  let _ : DecidablePred Graph.overgrown.Live := Graph.decidableLive OpTable.plan_overgrown
  obtain ⟨p, hp, hsteps, -, -, -, hdisconnected⟩ :=
    OpTable.plan_livePart OpTable.plan_overgrown hknown
  exact ⟨OpTable.plan_overgrown, hpart, hknown, p, hpart ▸ hp, hsteps, hdisconnected⟩

end NodeGraph
