import NodeGraph.Proofs.Plan.LivePart

/-!
# The parameters of a plan

The parameters of a plan are collected while its steps are made, each when a step first reads its
number. `Plan.Cataloged` says what is then in the list and what the steps have of it, and
`OpTable.plan_cataloged` says it of every plan. A graph may have several parameters with one number.
Both the list and the steps have the first of them.

To collect is to enroll the numbers in the order in which they are met (`Assembly.map_id_catalog`),
for which there are the lemmas about claims.
-/

namespace NodeGraph

/-- The parameters of a plan are those that its steps read, and the steps have their values. -/
structure Plan.Cataloged (g : Graph) (p : Plan) : Prop where
  /-- No number is listed twice, however often it is read and however many parameters have it. -/
  nodup : (p.parameters.map (·.id)).Nodup
  /-- The numbers are those that live parameter reads refer to. Other nodes may refer to parameters
  as well, and do not count. -/
  live : ∀ id, id ∈ p.parameters.map (·.id) ↔
    ∃ n ∈ g.nodes, g.Live n.id ∧ n.op.isParameter ∧ n.parameter = some id
  /-- The numbers are in the order in which the steps first read them, which need not be that of the
  graph. -/
  order : p.parameters.map (·.id) = (p.steps.filterMap (·.parameter)).eraseDups
  /-- A parameter is the first of the graph with its number. -/
  first : ∀ q ∈ p.parameters, g.parameter? q.id = some q
  /-- The step of a parameter read has one operand, the value of the parameter that its node refers
  to. The ports and literals of the node do not matter. -/
  reads : ∀ s ∈ p.steps, s.op.isParameter → ∃ n q, p.StepOf g n s ∧ q ∈ p.parameters ∧
    n.parameter = some q.id ∧ s.parameter = some q.id ∧ s.operands = [.literal q.value]
  /-- Other steps read no parameter, also if their nodes refer to one. -/
  others : ∀ s ∈ p.steps, s.op.isParameter = false → s.parameter = none

/-- A catalog gets the number of a parameter that is read, unless it has it. -/
theorem Assembly.map_id_catalog (known : List Parameter) (read : Option Parameter) :
    (catalog known read).map (·.id) =
      enroll (known.map (·.id)) (read.map Parameter.id).toList := by
  cases read with
  | none => rfl
  | some q =>
    have hany : known.any (·.id = q.id) ↔ q.id ∈ known.map (·.id) := by simp
    show (if known.any (·.id = q.id) then known else known ++ [q]).map (·.id) =
      if q.id ∈ known.map (·.id) then known.map (·.id) else known.map (·.id) ++ [q.id]
    by_cases hq : q.id ∈ known.map (·.id)
    · rw [if_pos hq, if_pos (hany.2 hq)]
    · rw [if_neg hq, if_neg (mt hany.1 hq), List.map_append, List.map_singleton]

namespace Graph

variable {g : Graph} {isKnown : OpCode → Bool} {n : Node} {q : Parameter} {init : List Node}
  {sink : Node}

/-- The numbers in a catalog after nodes have been read, each at its first reading. -/
theorem map_id_foldl_catalog (g : Graph) (nodes : List Node) (known : List Parameter) :
    (nodes.foldl (fun known n => Assembly.catalog known (g.parameterRead n)) known).map (·.id) =
      enroll (known.map (·.id))
        (nodes.filterMap fun n => (g.parameterRead n).map Parameter.id) := by
  induction nodes generalizing known with
  | nil => rfl
  | cons n nodes ih =>
    rw [List.foldl_cons, ih, Assembly.map_id_catalog, ← enroll_append]
    cases hread : g.parameterRead n with
    | none => simp [hread]
    | some q => simp [hread]

/-- The numbers of a plan's parameters are those that the steps read, each at its first reading. -/
theorem map_id_parameters_planOn (g : Graph) (init : List Node) (sink : Node) :
    (g.planOn init sink).parameters.map (·.id) =
      enroll [] ((g.planOn init sink).steps.filterMap (·.parameter)) := by
  rw [planOn, map_id_foldl_catalog, List.filterMap_map]
  rfl

/-- A node reads a parameter exactly if it is a parameter read and refers to the number of the
parameter, which is the first of the graph with this number. -/
theorem parameterRead_eq_some_iff :
    g.parameterRead n = some q ↔
      n.op.isParameter ∧ n.parameter = some q.id ∧ g.parameter? q.id = some q := by
  constructor
  · intro hread
    have hfirst := parameter?_of_parameterRead hread
    unfold parameterRead at hread
    split at hread
    · rename_i hop
      obtain ⟨id, hid, hq⟩ := Option.bind_eq_some_iff.1 hread
      exact ⟨hop, by rw [hid, id_of_parameter? hq], hfirst⟩
    · cases hread
  · rintro ⟨hop, hid, hq⟩
    rw [parameterRead, if_pos hop, hid, Option.bind_some, hq]

/-- The step of a node that reads a parameter has its value as the only operand, whatever ports and
literals the node has. -/
theorem stepIn_of_parameterRead (hread : g.parameterRead n = some q) (ports : List PortRef) :
    (g.stepIn ports n).parameter = some q.id ∧
      (g.stepIn ports n).operands = [.literal q.value] := by
  simp [stepIn, operandsIn, hread]

/-- The plan of a schedule lists the parameters that its steps read. -/
theorem Schedule.cataloged (h : g.Schedule init sink)
    (hbuild : ∀ n ∈ init ++ [sink], g.Buildable isKnown n) :
    (g.planOn init sink).Cataloged g where
  nodup := by
    rw [map_id_parameters_planOn]
    exact nodup_enroll .nil
  live id := by
    rw [List.mem_map]
    constructor
    · rintro ⟨q, hq, rfl⟩
      obtain ⟨n, hn, hread⟩ := mem_parameters_planOn.1 hq
      obtain ⟨hop, hid, -⟩ := parameterRead_eq_some_iff.1 hread
      obtain ⟨hmem, hlive⟩ := h.mem_iff_live.1 hn
      exact ⟨n, hmem, hlive, hop, hid⟩
    · rintro ⟨n, hmem, hlive, hop, hid⟩
      have hn := h.mem_iff_live.2 ⟨hmem, hlive⟩
      obtain ⟨q, hread⟩ := Option.isSome_iff_exists.1 ((hbuild n hn).parameter hop)
      have hqid := (parameterRead_eq_some_iff.1 hread).2.1
      exact ⟨q, mem_parameters_planOn.2 ⟨n, hn, hread⟩, Option.some.inj (hqid.symm.trans hid)⟩
  order := by
    rw [map_id_parameters_planOn, ← eraseDups_append_eq_enroll .nil, List.nil_append]
  first q hq := by
    obtain ⟨n, -, hread⟩ := mem_parameters_planOn.1 hq
    exact parameter?_of_parameterRead hread
  reads s hs hop := by
    obtain ⟨n, hn, rfl⟩ := List.mem_map.1 hs
    obtain ⟨q, hread⟩ := Option.isSome_iff_exists.1 ((hbuild n hn).parameter hop)
    have hid := (parameterRead_eq_some_iff.1 hread).2.1
    exact ⟨n, q, h.stepOf_planOn_iff.2 ⟨hn, rfl⟩, mem_parameters_planOn.2 ⟨n, hn, hread⟩, hid,
      stepIn_of_parameterRead hread _⟩
  others s hs hop := by
    obtain ⟨n, -, rfl⟩ := List.mem_map.1 hs
    have hnone : g.parameterRead n = none := if_neg (ne_true_of_eq_false hop)
    rw [stepIn, hnone]
    rfl

end Graph

/-- The parameters of a graph's plan are those that its steps read, each once and in the order of
their first reading. They are the first ones of the graph with their numbers, and the steps have
their values. -/
theorem OpTable.plan_cataloged {t : OpTable} {g : Graph} {p : Plan} (h : t.plan g = .ok p) :
    p.Cataloged g := by
  obtain ⟨init, sink, hschedule, hbuild, rfl⟩ := Graph.plan_eq_ok_iff.1 h
  exact hschedule.cataloged hbuild

/-- Three parameter reads are wired to the sink. Two of them refer to the same number, which two
parameters have. One has an input with a literal besides, and a fourth one is not wired. -/
def Graph.wellRead : Graph where
  nodes :=
    [{ id := ⟨1⟩, op := ⟨1, 1⟩,
       ports := [.input 0 "a" .integer, .input 1 "b" .bool, .input 2 "c" .integer] },
     { id := ⟨2⟩, op := ⟨6, 1⟩, literals := [.bool true],
       ports := [.input 0 "n" .bool, .output 1 "n" .integer], parameter := some ⟨8⟩ },
     { id := ⟨3⟩, op := ⟨6, 1⟩, ports := [.output 0 "b" .bool], parameter := some ⟨7⟩ },
     { id := ⟨4⟩, op := ⟨6, 1⟩, ports := [.output 0 "n" .integer], parameter := some ⟨8⟩ },
     { id := ⟨5⟩, op := ⟨6, 1⟩, ports := [.output 0 "n" .integer], parameter := some ⟨9⟩ }]
  wires := [⟨⟨⟨2⟩, 1⟩, ⟨⟨1⟩, 0⟩⟩, ⟨⟨⟨3⟩, 0⟩, ⟨⟨1⟩, 1⟩⟩, ⟨⟨⟨4⟩, 0⟩, ⟨⟨1⟩, 2⟩⟩]
  parameters :=
    [⟨⟨7⟩, "switch", .bool true⟩, ⟨⟨8⟩, "count", .integer 5⟩, ⟨⟨8⟩, "spare", .integer 6⟩,
      ⟨⟨9⟩, "idle", .integer 7⟩]

/-- The plan of `Graph.wellRead`. Its parameters are in another order than those of the graph. -/
def Plan.wellRead : Plan where
  steps :=
    [{ node := ⟨2⟩, op := ⟨6, 1⟩, operands := [.literal (.integer 5)],
       results := [⟨⟨0⟩, .integer⟩], parameter := some ⟨8⟩ },
     { node := ⟨3⟩, op := ⟨6, 1⟩, operands := [.literal (.bool true)],
       results := [⟨⟨1⟩, .bool⟩], parameter := some ⟨7⟩ },
     { node := ⟨4⟩, op := ⟨6, 1⟩, operands := [.literal (.integer 5)],
       results := [⟨⟨2⟩, .integer⟩], parameter := some ⟨8⟩ },
     { node := ⟨1⟩, op := ⟨1, 1⟩, operands := [.slot ⟨0⟩, .slot ⟨1⟩, .slot ⟨2⟩],
       results := [⟨⟨3⟩, .integer⟩, ⟨⟨4⟩, .bool⟩, ⟨⟨5⟩, .integer⟩], parameter := none }]
  parameters := [⟨⟨8⟩, "count", .integer 5⟩, ⟨⟨7⟩, "switch", .bool true⟩]
  slotCount := 6
  nodeCount := 5

/-- The parameter that is read twice is listed once and first, although it is the second of the
graph. Neither the other one with its number nor the one that is not read is listed. -/
theorem OpTable.plan_cataloged_wellRead :
    OpTable.branching.plan .wellRead = .ok .wellRead ∧ Plan.wellRead.Cataloged .wellRead := by
  have h : OpTable.branching.plan .wellRead = .ok .wellRead := by decide +kernel
  exact ⟨h, OpTable.plan_cataloged h⟩

end NodeGraph
