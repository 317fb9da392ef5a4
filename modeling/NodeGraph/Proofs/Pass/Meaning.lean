import NodeGraph.Proofs.Order.Dependency
import NodeGraph.Proofs.Pass.Evaluation
import NodeGraph.Proofs.Pass.Faults
import NodeGraph.Session.Basic

/-!
# Plans mean what their graphs mean

A pass of a graph's plan and then its readout come to the same as evaluating the graph directly,
whatever the slots and the scratch lists held before: `OpTable.pass_eq_evaluate`. At each time of
the pass the frame is a function of what the evaluation has in its memo (`Memo.frame`), but for the
scratch lists: the slots of ports hold the values at these ports, and the slots of the sink hold its
results. A step of the plan keeps it so (`Graph.execute_stepIn`), and with it a whole pass
(`Graph.executeAll_stepIn`).

The plan goes through the nodes in the order of the schedule, and the evaluation follows the wires.
Both meet in evaluating the nodes of the schedule in turn (`Graph.Schedule.pass_planOn`,
`Graph.Schedule.evaluate_eq`).
-/

namespace NodeGraph

open SlotPool

/-- Coercion gives no more values than there are types. -/
theorem Context.length_convertAll_le (types : List ValueType) (vs : List Value) (c : Context) :
    (convertAll types vs c).result.length ≤ types.length := by
  induction types generalizing vs c with
  | nil => exact Nat.zero_le _
  | cons ty types ih =>
    cases vs with
    | nil => exact Nat.zero_le _
    | cons v vs => exact Nat.succ_le_succ (ih vs _)

namespace SlotStore

/-- Putting values in the slots of ports is giving them at these ports. What is in the other slots
stays. -/
theorem setAll_slotIn {ports targets : List PortRef} (hports : ports.Nodup)
    (htargets : ∀ port ∈ targets, port ∈ ports) (values : PortRef → Value) (vs rest : List Value) :
    (SlotStore.mk (ports.map values ++ rest)).setAll (targets.map (slotIn ports)) vs =
      ⟨ports.map (Memo.give values targets vs) ++ rest⟩ := by
  induction targets generalizing values vs with
  | nil => rfl
  | cons port targets ih =>
    obtain ⟨hport, htargets⟩ := List.forall_mem_cons.1 htargets
    cases vs with
    | nil => rfl
    | cons v vs =>
      have hset : (ports.map values ++ rest).set (ports.idxOf port) v =
          ports.map (Function.update values port v) ++ rest := by
        rw [hports.map_update, if_pos hport, List.set_append_left]
        rw [List.length_map]
        exact List.idxOf_lt_length_of_mem hport
      rw [List.map_cons, setAll, slotIn, hset, ih htargets, Memo.give]

/-- Putting values in the last slots of a store leaves the others as they are. -/
theorem setAll_append (before after vs : List Value) (h : vs.length ≤ after.length) :
    (SlotStore.mk (before ++ after)).setAll
        ((List.range after.length).map fun i => ⟨before.length + i⟩) vs =
      ⟨before ++ (vs ++ after.drop vs.length)⟩ := by
  induction vs generalizing before after with
  | nil => simp [setAll]
  | cons v vs ih =>
    cases after with
    | nil => cases h
    | cons a after =>
      have hslots : (List.range (a :: after).length).map (fun i => Slot.mk (before.length + i)) =
          ⟨before.length⟩ ::
            (List.range after.length).map fun i => ⟨(before ++ [v]).length + i⟩ := by
        rw [List.length_cons, List.range_succ_eq_map, List.map_cons, List.map_map]
        simp [Function.comp_def, Nat.add_assoc, Nat.add_comm 1]
      have hset : (before ++ a :: after).set before.length v = (before ++ [v]) ++ after := by
        simp
      rw [hslots, setAll, hset, ih (before ++ [v]) after (Nat.le_of_succ_le_succ h)]
      simp

end SlotStore

namespace Memo

/-- The slots of a pass when the evaluation has a memo. The ports own the first slots in turn, and
the sink has so many slots after them. -/
def store (ports : List PortRef) (size : Nat) (m : Memo) : SlotStore :=
  ⟨ports.map m.values ++ (m.results ++ List.replicate (size - m.results.length) .absent)⟩

/-- The frame in which a pass is when the evaluation has a memo. What is in the scratch lists has no
counterpart there. -/
def frame (ports : List PortRef) (size : Nat) (scratch : Scratch) (m : Memo) : Frame where
  store := m.store ports size
  context := m.context
  scratch := scratch

end Memo

namespace Graph

variable {t : OpTable} {g : Graph} {n : Node} {ports : List PortRef} {size : Nat} {m : Memo}

/-- The operands of a step have the values that the node's operation takes. The slots of its sources
hold the values at these ports. -/
theorem map_fetch_operandsIn (hn : g.Buildable t.contains n)
    (hports : ∀ port ∈ g.sources n, port ∈ ports) (values : PortRef → Value) (rest : List Value) :
    (g.operandsIn (slotIn ports) n).map (Operand.fetch ⟨ports.map values ++ rest⟩) =
      g.inputValues values n := by
  rw [inputValues_eq]
  unfold operandsIn
  cases hparameter : n.op.isParameter with
  | true =>
    obtain ⟨p, hp⟩ := Option.isSome_iff_exists.1 (hn.parameter hparameter)
    have hbind : n.parameter.bind g.parameter? = some p := by
      rwa [parameterRead, if_pos hparameter] at hp
    simp [hp, hbind, Operand.fetch]
  | false =>
    have hnone : g.parameterRead n = none := by simp [parameterRead, hparameter]
    rw [hnone]
    cases hconstant : n.op.isConstant with
    | true => rfl
    | false =>
      simp only [Bool.false_eq_true, if_false, List.map_map]
      refine List.map_congr_left ?_
      rintro ⟨port, position⟩ hport
      have htakes := OpCode.takesInputs_iff.2 ⟨hconstant, hparameter⟩
      simp only [Function.comp_apply, operandIn]
      cases hsource : g.source? (n.ref port) with
      | none => rfl
      | some source =>
        have hmem : source ∈ ports :=
          hports source (mem_sources htakes (List.fst_mem_of_mem_zipIdx hport) hsource)
        have hlt : ports.idxOf source < (ports.map values).length := by
          rw [List.length_map]
          exact List.idxOf_lt_length_of_mem hmem
        simp [Operand.fetch, slotIn, List.getElem?_append_left hlt, List.getElem?_idxOf hmem]

/-- The values that a node gives are put where the slots of the next memo have them. -/
theorem setAll_writes_stepIn (hnodup : ports.Nodup) (htargets : ∀ port ∈ n.targets, port ∈ ports)
    (hm : m.results = []) (hsize : n.op.isSink = true → size = n.inputs.length) {vs : List Value}
    (hvs : vs.length ≤ n.resultPorts.length) (c : Context) :
    (m.store ports size).setAll (g.stepIn ports n).writes vs =
      Memo.store ports size
        (if n.op.isSink then { m with results := vs, context := c }
        else { m with values := Memo.give m.values (n.outputs.map n.ref) vs, context := c }) := by
  cases hsink : n.op.isSink with
  | false =>
    rw [writes_stepIn g ports hsink, Memo.store, SlotStore.setAll_slotIn hnodup htargets,
      Node.targets, hsink]
    rfl
  | true =>
    have hlength : vs.length ≤ size := by
      rwa [Node.resultPorts, hsink, if_pos rfl, ← hsize hsink] at hvs
    have hset := SlotStore.setAll_append (ports.map m.values) (List.replicate size .absent) vs
      (by simpa using hlength)
    rw [List.length_replicate, List.length_map, List.drop_replicate] at hset
    rw [writes_stepIn_of_isSink g ports hsink, ← hsize hsink, Memo.store, hm, List.nil_append,
      List.length_nil, Nat.sub_zero, hset]
    rfl

/-- A step takes a memo's frame to a frame of the memo in which the node has been evaluated, and
causes the same events. It does so whatever is in the scratch lists. -/
theorem execute_stepIn (hn : g.Buildable t.contains n) (hnode : g.node? n.id = some n)
    (hnodup : ports.Nodup) (hports : ∀ port, port ∈ g.sources n ∨ port ∈ n.targets → port ∈ ports)
    (hm : m.results = []) (hsize : n.op.isSink = true → size = n.inputs.length)
    (scratch : Scratch) :
    ∃ scratch', (g.stepIn ports n).execute t (m.frame ports size scratch) =
      { result := none
        state := (g.evaluateNode t n.id m).state.frame ports size scratch'
        events := (g.evaluateNode t n.id m).events } := by
  obtain ⟨e, he⟩ := Option.isSome_iff_exists.1 hn.known
  have hfits : (g.stepIn ports n).Fits (m.frame ports size scratch).store.size := by
    have hlength : (m.frame ports size scratch).store.size = ports.length + size := by
      simp [Memo.frame, Memo.store, SlotStore.size, hm]
    rw [hlength]
    exact fits_stepIn hports hsize
  have hinputs : (g.stepIn ports n).operands.map (Operand.fetch (m.store ports size)) =
      g.inputValues m.values n :=
    map_fetch_operandsIn hn (fun port hport => hports port (.inl hport)) m.values _
  have hexecute := Step.execute_of_fits he hfits
  -- The operation gives no more values than there are ports for them.
  have hgiven := Context.length_convertAll_le (n.resultPorts.map (·.type))
    (e.operation (g.inputValues m.values n) m.context).result
    (e.operation (g.inputValues m.values n) m.context).state
  rw [List.length_map] at hgiven
  have hput := setAll_writes_stepIn (g := g) hnodup (fun port hport => hports port (.inr hport)) hm
    hsize hgiven (Context.convertAll (n.resultPorts.map (·.type))
      (e.operation (g.inputValues m.values n) m.context).result
      (e.operation (g.inputValues m.values n) m.context).state).state
  simp only [Memo.frame, map_type_results_stepIn, hinputs, hput] at hexecute
  refine ⟨⟨g.inputValues m.values n, (e.operation (g.inputValues m.values n) m.context).result⟩,
    hexecute.trans ?_⟩
  rw [evaluateNode_of_node? hnode, invoke_eq, OpTable.invoke_of_find? he]
  cases n.op.isSink <;> rfl

/-- Other nodes than the sink leave the results as they are. -/
theorem results_evaluateNode (hnode : g.node? n.id = some n) (hsink : n.op.isSink = false) :
    (g.evaluateNode t n.id m).state.results = m.results := by
  rw [evaluateNode_of_node? hnode, invoke_eq, hsink]
  rfl

/-- The sink gives no more results than it has input ports, so that there is a slot for each. -/
theorem length_results_evaluateNode (hnode : g.node? n.id = some n) (hsink : n.op.isSink = true) :
    (g.evaluateNode t n.id m).state.results.length ≤ n.inputs.length := by
  have hgiven := Context.length_convertAll_le (n.resultPorts.map (·.type))
    (t.invoke n.op (g.inputValues m.values n) m.context).result
    (t.invoke n.op (g.inputValues m.values n) m.context).state
  rw [List.length_map, Node.resultPorts, hsink, if_pos rfl] at hgiven
  rw [evaluateNode_of_node? hnode, invoke_eq, Node.resultPorts, hsink]
  exact hgiven

/-- The steps of nodes and then of the sink take a memo's frame to a frame of the memo in which
these nodes have been evaluated in turn. -/
theorem executeAll_stepIn {init : List Node} {sink : Node}
    (hbuild : ∀ n ∈ init ++ [sink], g.Buildable t.contains n)
    (hnode : ∀ n ∈ init ++ [sink], g.node? n.id = some n) (hnodup : ports.Nodup)
    (hports : ∀ n ∈ init ++ [sink], ∀ port, port ∈ g.sources n ∨ port ∈ n.targets → port ∈ ports)
    (hinit : ∀ n ∈ init, n.op.isSink = false) (hsink : sink.op.isSink = true)
    (hm : m.results = []) (scratch : Scratch) :
    let run := ((init ++ [sink]).map (·.id)).forM (g.evaluateNode t) m
    (∃ scratch', Step.executeAll t ((init ++ [sink]).map (g.stepIn ports))
        (m.frame ports sink.inputs.length scratch) =
      { result := none
        state := run.state.frame ports sink.inputs.length scratch'
        events := run.events }) ∧
      run.state.results.length ≤ sink.inputs.length := by
  induction init generalizing m scratch with
  | nil =>
    simp only [List.nil_append, List.forall_mem_singleton] at hbuild hnode hports
    obtain ⟨scratch', hstep⟩ :=
      execute_stepIn hbuild hnode hnodup hports hm (fun _ => rfl) scratch
    refine ⟨⟨scratch', ?_⟩, length_results_evaluateNode hnode hsink⟩
    rw [List.nil_append, List.map_singleton, Step.executeAll, hstep, Progress.andThen_of_none rfl]
    rfl
  | cons n init ih =>
    rw [List.cons_append, List.forall_mem_cons] at hbuild hnode hports
    obtain ⟨hn, hinit⟩ := List.forall_mem_cons.1 hinit
    have hsize : n.op.isSink = true → sink.inputs.length = n.inputs.length := by simp [hn]
    obtain ⟨scratch₁, hstep⟩ :=
      execute_stepIn hbuild.1 hnode.1 hnodup hports.1 hm hsize scratch
    have hresults : (g.evaluateNode t n.id m).state.results = [] := by
      rw [results_evaluateNode hnode.1 hn, hm]
    obtain ⟨⟨scratch', hrun⟩, hlength⟩ :=
      ih hbuild.2 hnode.2 hports.2 hinit hresults scratch₁
    refine ⟨⟨scratch', ?_⟩, hlength⟩
    rw [List.cons_append, List.map_cons, Step.executeAll, hstep, Progress.andThen_of_none rfl, hrun]
    rfl

/-- The sink's slots are read as the results are. Those for which it gave no value are absent, as
are results that are not there. -/
theorem sinkValue_store (hsink : n.op.isSink = true) (hm : m.results.length ≤ n.inputs.length)
    (i : Nat) :
    Readout.sinkValue (g.stepIn ports n) (m.store ports n.inputs.length) i =
      m.results.getD i .absent := by
  rw [Readout.sinkValue, getElem?_results_stepIn, Node.resultPorts, hsink, if_pos rfl]
  cases hport : n.inputs[i]? with
  | none =>
    have hi : n.inputs.length ≤ i := List.getElem?_eq_none_iff.1 hport
    rw [List.getD_eq_getElem?_getD, List.getElem?_eq_none (Nat.le_trans hm hi)]
    rfl
  | some port =>
    obtain ⟨hi, -⟩ := List.getElem?_eq_some_iff.1 hport
    have htail : (m.store ports n.inputs.length).values[ports.length + i]? =
        (m.results ++ List.replicate (n.inputs.length - m.results.length) .absent)[i]? := by
      rw [Memo.store, List.getElem?_append_right (by simp), List.length_map,
        Nat.add_sub_cancel_left]
    simp only [Option.map_some, if_true, htail, List.getD_eq_getElem?_getD]
    by_cases hresult : i < m.results.length
    · rw [List.getElem?_append_left hresult]
    · have hle : m.results.length ≤ i := Nat.le_of_not_lt hresult
      rw [List.getElem?_append_right hle, List.getElem?_eq_none hle, List.getElem?_replicate,
        if_pos (Nat.sub_lt_sub_right hle hi)]
      rfl

/-- The readout after a pass is the readout of the memo. -/
theorem read_store {p : Plan} (hp : p.sink? = some (g.stepIn ports n)) (hsink : n.op.isSink = true)
    (hm : m.results.length ≤ n.inputs.length) :
    Readout.read p (m.store ports n.inputs.length) = m.readout := by
  simp only [Readout.read, hp, sinkValue_store hsink hm, Memo.readout_eq]

/-- A pass starts in a frame of an empty memo. All its slots are empty, whatever was in the
store. -/
theorem prepare_planOn (g : Graph) (init : List Node) (sink : Node) (f : Frame) :
    (g.planOn init sink).prepare f =
      Memo.frame (g.portsOf (init ++ [sink])) sink.inputs.length f.scratch
        { context := f.context.beginPass } := by
  have hstore : ((g.planOn init sink).prepare f).store =
      Memo.store (g.portsOf (init ++ [sink])) sink.inputs.length
        { context := f.context.beginPass } := by
    rw [Plan.store_prepare]
    simp [planOn, Memo.store, SlotStore.ofSize, List.replicate_append_replicate]
  rw [Memo.frame, ← hstore]
  rfl

namespace Schedule

variable {init : List Node} {sink : Node}

/-- A pass of the plan of a schedule ends in a frame of the memo in which the schedule's nodes have
been evaluated in turn, whatever was in the slots and in the scratch lists before it. -/
theorem pass_planOn (h : g.Schedule init sink)
    (hbuild : ∀ n ∈ init ++ [sink], g.Buildable t.contains n) (f : Frame) :
    let run :=
      ((init ++ [sink]).map (·.id)).forM (g.evaluateNode t) { context := f.context.beginPass }
    (∃ scratch, (g.planOn init sink).pass t f =
      { result := none
        state := run.state.frame (g.portsOf (init ++ [sink])) sink.inputs.length scratch
        events := run.events }) ∧
      run.state.results.length ≤ sink.inputs.length := by
  rw [Plan.pass, prepare_planOn]
  exact executeAll_stepIn hbuild (fun n hn => h.node?_eq_some hn) (g.nodup_portsOf _)
    (fun n hn port hport => mem_portsOf.2 ⟨n, hn, hport⟩) h.not_isSink h.isSink rfl
    f.scratch

/-- In a graph with a schedule, the evaluation of the sink evaluates the nodes of the schedule in
turn. -/
theorem evaluate_eq (h : g.Schedule init sink) (c : Context) :
    let run := ((init ++ [sink]).map (·.id)).forM (g.evaluateNode t) { context := c.beginPass }
    let read := run.state.readout run.state.context
    g.evaluate t c = { read with events := run.events ++ read.events } := by
  have hfind : g.nodes.find? (·.op = ⟨1, 1⟩) = some sink := by
    show g.nodes.find? (·.op.isSink) = some sink
    rw [← List.head?_filter, h.only]
    rfl
  have horder := h.order
  rw [dependencyOrder_eq_postorder] at horder
  obtain ⟨listed, hlisted, hrun⟩ :=
    evaluateAll_eq_forM (t := t) (m := { context := c.beginPass }) horder rfl
  rw [List.nil_append] at hlisted
  -- The evaluation starts its count as a pass does.
  have hfresh : g.evaluateAll t [] [sink.id] { context := ⟨c.stream, ⟨c.tally.total, 0⟩⟩ } =
      listed.forM (g.evaluateNode t) { context := c.beginPass } := hrun
  rw [evaluate, hfind, hlisted]
  simp only [hfresh]

end Schedule

end Graph

/-- A pass of a graph's plan comes to its end, whatever operations the table has, whatever the slots
and the scratch lists held before, and in whatever context. With the readout after it, it comes to
what the evaluation of the graph comes to: the results, the context with its random stream and both
counts of fallbacks, and the events are the same. -/
theorem OpTable.pass_eq_evaluate {t : OpTable} {g : Graph} {p : Plan} (h : t.plan g = .ok p)
    (f : Frame) :
    let run := p.pass t f
    let read := Readout.read p run.state.store run.state.context
    run.result = none ∧
      { read with events := run.events ++ read.events } = g.evaluate t f.context := by
  obtain ⟨init, sink, hs, hbuild, rfl⟩ := Graph.plan_eq_ok_iff.1 h
  obtain ⟨⟨scratch, hpass⟩, hlength⟩ := hs.pass_planOn hbuild f
  have hsink : (g.planOn init sink).sink? = some (g.stepIn (g.portsOf (init ++ [sink])) sink) := by
    simp [Plan.sink?, Graph.planOn]
  rw [hpass, hs.evaluate_eq]
  dsimp only [Memo.frame]
  rw [Graph.read_store hsink hs.isSink hlength]
  exact ⟨rfl, rfl⟩

/-- A node on which the sink depends twice, once through another node. -/
def Graph.diamond : Graph where
  nodes :=
    [{ id := ⟨1⟩, op := ⟨1, 1⟩, ports := [.input 0 "a" .scalar, .input 1 "b" .vector2] },
     { id := ⟨2⟩, op := ⟨3, 1⟩, literals := [.bool true],
       ports := [.input 0 "a" .bool, .input 1 "b" .bool, .output 2 "x" .scalar] },
     { id := ⟨3⟩, op := ⟨5, 0⟩, ports := [.output 0 "x" .scalar, .output 1 "y" .bool] }]
  wires := [⟨⟨⟨2⟩, 2⟩, ⟨⟨1⟩, 0⟩⟩, ⟨⟨⟨3⟩, 0⟩, ⟨⟨1⟩, 1⟩⟩, ⟨⟨⟨3⟩, 1⟩, ⟨⟨2⟩, 1⟩⟩]

/-- The plan of `Graph.diamond`. The node on which the sink depends twice is its first step. -/
def Plan.diamond : Plan where
  steps :=
    [{ node := ⟨3⟩, op := ⟨5, 0⟩, operands := [], results := [⟨⟨0⟩, .scalar⟩, ⟨⟨1⟩, .bool⟩],
       parameter := none },
     { node := ⟨2⟩, op := ⟨3, 1⟩, operands := [.literal (.bool true), .slot ⟨1⟩],
       results := [⟨⟨2⟩, .scalar⟩], parameter := none },
     { node := ⟨1⟩, op := ⟨1, 1⟩, operands := [.slot ⟨2⟩, .slot ⟨0⟩],
       results := [⟨⟨3⟩, .scalar⟩, ⟨⟨4⟩, .vector2⟩], parameter := none }]
  parameters := []
  slotCount := 5
  nodeCount := 3

/-- The operations of `Graph.diamond`. One gives two values, the others give what they take. -/
def OpTable.diamond : OpTable where
  entries := [(⟨1, 1⟩, ⟨"sink", pure⟩), (⟨3, 1⟩, ⟨"first", pure⟩),
    (⟨5, 0⟩, ⟨"pair", fun _ => return [.bool true, .integer 7]⟩)]

/-- A frame that another plan has left: five slots with values in them, fallbacks on both counts,
and the operands and results of its last step. -/
def Frame.used : Frame where
  store := ⟨List.replicate 5 (.scalar 9)⟩
  context := ⟨.ofSeed 0, ⟨4, 3⟩⟩
  scratch := ⟨[.integer 5], [.bool false, .scalar 8]⟩

/-- The pass starts in a used frame, of which only the count of all fallbacks is left in the end.
The integer does not fit its port, and the scalar not the sink's second one. The node with the
integer is evaluated once, so there are two fallbacks in this pass. The truth value reads as a
scalar. -/
theorem OpTable.pass_eq_evaluate_diamond :
    let run := Plan.diamond.pass .diamond .used
    let read := Readout.read Plan.diamond run.state.store run.state.context
    OpTable.diamond.plan .diamond = .ok .diamond ∧ run.result = none ∧
      { read with events := run.events ++ read.events } =
        Graph.diamond.evaluate .diamond Frame.used.context ∧
      read.result = ⟨1, ⟨0, 0⟩, ⟨0, 0, 0⟩⟩ ∧ read.state = ⟨.ofSeed 0, ⟨6, 2⟩⟩ ∧
      run.events ++ read.events =
        [.fallback (some .integer) .bool, .fallback (some .scalar) .vector2] := by
  have hp : OpTable.diamond.plan .diamond = .ok .diamond := by decide +kernel
  obtain ⟨hrun, hread⟩ := OpTable.pass_eq_evaluate hp .used
  exact ⟨hp, hrun, hread, by decide +kernel⟩

end NodeGraph
