import NodeGraph.Proofs.Plan.Verdicts
import NodeGraph.Proofs.Plan.WellFormed

/-!
# What a defect says of its graph

The checks of a graph come in a fixed order, and every defect is the answer of one of them
(`Defect.check`). `Defect.Describes` says what a defect means: not only that there is something
wrong, but that what it names is the first of its kind in the graph's own lists, or for a node
without a step, in the order of the search. `OpTable.plan_error_describes` says that the defect that
planning ends with is such a first one, and that the graph passes every check that comes before.

For each check there is a lemma which says that the defect that it ends with describes the graph.
The main result goes through them in the order of planning.
-/

namespace NodeGraph

open Relation

variable {isKnown : OpCode → Bool} {g : Graph} {defect : Defect} {n sink : Node}

/-- The checks that planning makes, each of the whole graph or of its live part. -/
inductive Check where
  | ids
  | wires
  | targets
  | sink
  | cycles
  | steps
  deriving DecidableEq, Repr

namespace Check

/-- The checks in the order in which they are made. -/
def inOrder : List Check := [.ids, .wires, .targets, .sink, .cycles, .steps]

/-- The checks that are made before one. -/
def earlier (c : Check) : List Check :=
  inOrder.takeWhile (· ≠ c)

/-- What a graph is like that passes a check. Only the live nodes are searched for cycles and get
steps. -/
def Passed (isKnown : OpCode → Bool) (g : Graph) : Check → Prop
  | .ids => (g.nodes.map (·.id)).Nodup
  | .wires => ∀ w ∈ g.wires, g.Sound w
  | .targets => (g.wires.map (·.target)).Nodup
  | .sink => ∃ sink, g.nodes.filter (·.op.isSink) = [sink]
  | .cycles => ∀ id, g.Live id → ¬TransGen g.Needs id id
  | .steps => ∀ n ∈ g.nodes, g.Live n.id → g.Buildable isKnown n

end Check

/-- A node is reached if it is in the order of the search and all nodes before it have steps. -/
def Graph.Reached (isKnown : OpCode → Bool) (g : Graph) (n : Node) : Prop :=
  ∃ init sink before after, g.Schedule init sink ∧ init ++ [sink] = before ++ n :: after ∧
    ∀ m ∈ before, g.Buildable isKnown m

namespace Defect

/-- The check that finds a defect. Several kinds of defects can come from one check. -/
def check : Defect → Check
  | .duplicateNode _ => .ids
  | .badWire _ _ => .wires
  | .crowdedInput _ _ => .targets
  | .noSink => .sink
  | .severalSinks _ _ => .sink
  | .cycle _ => .cycles
  | .unknownOperation _ _ => .steps
  | .unknownParameter _ _ => .steps

/-- What a defect says of a graph: where in the graph it is, and that there is none of its kind
before it. -/
def Describes (isKnown : OpCode → Bool) (g : Graph) : Defect → Prop
  -- The node is the first that has the number of an earlier one.
  | .duplicateNode id => ∃ before n after, g.nodes = before ++ n :: after ∧ n.id = id ∧
      (before.map (·.id)).Nodup ∧ id ∈ before.map (·.id)
  | .badWire w flaw => ∃ before after, g.wires = before ++ w :: after ∧
      (∀ w' ∈ before, g.Sound w') ∧ g.Flawed w flaw
  -- The first wire that is not alone at its target arrives at this input.
  | .crowdedInput input count => (g.wires.map (·.target)).count input = count ∧ 1 < count ∧
      ∃ before w after, g.wires = before ++ w :: after ∧ w.target = input ∧
        ∀ w' ∈ before, (g.wires.map (·.target)).count w'.target = 1
  | .noSink => ∀ n ∈ g.nodes, ¬n.op.isSink
  | .severalSinks first second => ∃ before n between m after,
      g.nodes = before ++ n :: (between ++ m :: after) ∧ n.id = first ∧ m.id = second ∧
        n.op.isSink ∧ m.op.isSink ∧ ∀ k ∈ before ++ between, ¬k.op.isSink
  | .cycle id => g.Live id ∧ TransGen g.Needs id id
  | .unknownOperation id op => ∃ n, g.Reached isKnown n ∧ n.id = id ∧ n.op = op ∧ ¬isKnown op
  | .unknownParameter id parameter => ∃ n, g.Reached isKnown n ∧ n.id = id ∧ isKnown n.op ∧
      n.op.isParameter ∧ n.parameter = parameter ∧ ∀ p ∈ g.parameters, parameter ≠ some p.id

end Defect

namespace Graph

/-- The check of node numbers finds the first node with the number of an earlier one. -/
theorem describes_of_checkIds (h : checkIds [] g.nodes = .error defect) :
    defect.check = .ids ∧ defect.Describes isKnown g := by
  obtain ⟨before, n, after, hnodes, rfl, hbefore, hn⟩ := checkIds_eq_error h
  refine ⟨rfl, before, n, after, hnodes, rfl, (checkIds_eq_ok_iff.1 hbefore).1, ?_⟩
  exact hn.resolve_left List.not_mem_nil

/-- The check of the wires finds the first one that is not sound, and what is wrong with it. -/
theorem describes_of_checkWire (h : g.wires.forM g.checkWire = .error defect) :
    defect.check = .wires ∧ defect.Describes isKnown g := by
  obtain ⟨before, w, after, hwires, hbefore, hw⟩ := exists_first_of_forM_eq_error h
  obtain ⟨flaw, rfl, hflaw⟩ := checkWire_eq_error hw
  exact ⟨rfl, before, after, hwires, fun w' hw' => checkWire_eq_ok_iff.1 (hbefore w' hw'), hflaw⟩

/-- The check of the targets finds the first one that occurs again, and how often it does. -/
theorem describes_of_checkFanIn (h : g.wires.forM g.checkFanIn = .error defect) :
    defect.check = .targets ∧ defect.Describes isKnown g := by
  obtain ⟨before, w, after, hwires, hbefore, hw⟩ := exists_first_of_forM_eq_error h
  obtain ⟨rfl, hcount⟩ := checkFanIn_eq_error hw
  refine ⟨rfl, (fanIn_eq_count _).symm, hcount, before, w, after, hwires, rfl, fun w' hw' => ?_⟩
  have hle := checkFanIn_eq_ok_iff.1 (hbefore w' hw')
  have hmem : w'.target ∈ g.wires.map (·.target) :=
    List.mem_map_of_mem (hwires ▸ List.mem_append_left _ hw')
  have hpos := List.count_pos_iff.2 hmem
  omega

/-- If no sink or more than one is found, that is what the nodes are like. -/
theorem describes_of_sink (h : g.sink = .error defect) :
    defect.check = .sink ∧ defect.Describes isKnown g := by
  unfold sink at h
  split at h
  · rename_i hnone
    cases h
    exact ⟨rfl, fun n hn => List.filter_eq_nil_iff.1 hnone n hn⟩
  · cases h
  · rename_i n m _ hseveral
    cases h
    obtain ⟨before, rest, hnodes, hbefore, hn, hrest⟩ := List.filter_eq_cons_iff.1 hseveral
    obtain ⟨between, after, rfl, hbetween, hm, -⟩ := List.filter_eq_cons_iff.1 hrest
    refine ⟨rfl, before, n, between, m, after, hnodes, rfl, rfl, hn, hm, fun k hk => ?_⟩
    exact (List.mem_append.1 hk).elim (hbefore k) (hbetween k)

/-- The search finds a live node that depends on itself. -/
theorem Checked.describes_of_order (hg : g.Checked) (hsink : g.sink = .ok sink)
    (h : g.dependencyOrder sink.id = .error defect) :
    defect.check = .cycles ∧ defect.Describes isKnown g := by
  obtain ⟨v, rfl, hreach, hcycle⟩ := dependencyOrder_error h
  rw [hg.draws_eq_needs] at hreach hcycle
  have hmem : sink ∈ g.nodes.filter (·.op.isSink) :=
    sink_eq_ok_iff.1 hsink ▸ List.mem_singleton_self sink
  obtain ⟨hmem, hop⟩ := List.mem_filter.1 hmem
  exact ⟨rfl, ⟨sink, hmem, hop, hreach⟩, hcycle⟩

/-- The obstacle that a node meets is that its operation or its parameter is unknown. -/
theorem Reached.describes_of_obstacle (hn : g.Reached isKnown n)
    (h : g.obstacle isKnown n = some defect) :
    defect.check = .steps ∧ defect.Describes isKnown g := by
  unfold obstacle at h
  split at h
  · rename_i hknown
    split at h
    · rename_i hmissing
      obtain ⟨hop, hnone⟩ := Bool.and_eq_true_iff.1 hmissing
      cases h
      refine ⟨rfl, n, hn, rfl, hknown, hop, rfl, fun p hp heq => ?_⟩
      have hsome := (parameterRead_isSome_iff hop).2 ⟨p.id, heq, p, hp, rfl⟩
      rw [Option.isNone_iff_eq_none.1 hnone] at hsome
      cases hsome
    · cases h
  · rename_i hunknown
    cases h
    exact ⟨rfl, n, hn, rfl, rfl, hunknown⟩

/-- The steps are those of the schedule up to the first node that meets an obstacle, and that node
is reached. -/
theorem Schedule.describes_of_foldlM {init : List Node} (h : g.Schedule init sink)
    (hsteps : (init ++ [sink]).foldlM (Assembly.add isKnown g) {} = .error defect) :
    defect.check = .steps ∧ defect.Describes isKnown g := by
  rw [Assembly.foldlM_add_eq] at hsteps
  cases hfirst : (init ++ [sink]).findSome? (g.obstacle isKnown) with
  | none =>
    rw [hfirst] at hsteps
    cases hsteps
  | some found =>
    rw [hfirst] at hsteps
    cases hsteps
    obtain ⟨before, n, after, hsplit, hn, hbefore⟩ := List.findSome?_eq_some_iff.1 hfirst
    have hreached : g.Reached isKnown n := ⟨init, sink, before, after, h, hsplit, fun m hm =>
      obstacle_eq_none_iff.1 (hbefore m hm)⟩
    exact hreached.describes_of_obstacle hn

end Graph

namespace Defect

/-- A graph that a defect describes does not pass the defect's check. -/
theorem Describes.not_passed (h : defect.Describes isKnown g) :
    ¬defect.check.Passed isKnown g := by
  intro hpassed
  have hstuck : ∀ {n : Node}, g.Reached isKnown n → defect.check = .steps →
      g.Buildable isKnown n := by
    rintro n ⟨init, sink, before, after, hschedule, hsplit, -⟩ hcheck
    rw [hcheck] at hpassed
    have hn : n ∈ init ++ [sink] := by
      rw [hsplit]
      exact List.mem_append_right _ List.mem_cons_self
    obtain ⟨hmem, hlive⟩ := hschedule.mem_iff_live.1 hn
    exact hpassed n hmem hlive
  cases defect with
  | duplicateNode id =>
    obtain ⟨before, n, after, hnodes, rfl, -, hmem⟩ := h
    have hids : (g.nodes.map (·.id)).Nodup := hpassed
    rw [hnodes, List.map_append, List.map_cons] at hids
    exact (List.nodup_cons.1 (List.nodup_middle.1 hids)).1 (List.mem_append_left _ hmem)
  | badWire w flaw =>
    obtain ⟨before, after, hwires, -, hflaw⟩ := h
    exact hflaw.not_sound (hpassed w (hwires ▸ List.mem_append_right _ List.mem_cons_self))
  | crowdedInput input count =>
    obtain ⟨rfl, hcount, -⟩ := h
    exact absurd (List.nodup_iff_count_le_one.1 hpassed input) (by omega)
  | noSink =>
    obtain ⟨sink, hsink⟩ := hpassed
    exact absurd (List.filter_eq_nil_iff.2 h) (by simp [hsink])
  | severalSinks first second =>
    obtain ⟨before, n, between, m, after, hnodes, -, -, hn, hm, -⟩ := h
    obtain ⟨sink, hsink⟩ := hpassed
    rw [hnodes] at hsink
    have hlength := congrArg List.length hsink
    simp only [List.filter_append, List.filter_cons, hn, hm, ↓reduceIte, List.length_append,
      List.length_cons, List.length_nil] at hlength
    omega
  | cycle id => exact hpassed id h.1 h.2
  | unknownOperation id op =>
    obtain ⟨n, hn, -, rfl, hunknown⟩ := h
    exact hunknown (hstuck hn rfl).known
  | unknownParameter id parameter =>
    obtain ⟨n, hn, -, -, hop, rfl, hmissing⟩ := h
    obtain ⟨id, hid, p, hp, rfl⟩ :=
      (Graph.parameterRead_isSome_iff hop).1 ((hstuck hn rfl).parameter hop)
    exact hmissing p hp hid

end Defect

/-- Planning that fails ends with a defect that describes the graph: it names the first thing in the
graph that fails its check, and the graph passes all checks that come before. So what a report names
is there, and nothing that is looked for earlier was passed over. -/
theorem OpTable.plan_error_describes {t : OpTable} {g : Graph} {defect : Defect}
    (h : t.plan g = .error defect) :
    (∀ c ∈ defect.check.earlier, c.Passed t.contains g) ∧ ¬defect.check.Passed t.contains g ∧
      defect.Describes t.contains g := by
  have hfound : ∀ {c : Check}, (∀ c' ∈ c.earlier, c'.Passed t.contains g) →
      defect.check = c ∧ defect.Describes t.contains g →
      (∀ c' ∈ defect.check.earlier, c'.Passed t.contains g) ∧
        ¬defect.check.Passed t.contains g ∧ defect.Describes t.contains g := by
    rintro _ hearlier ⟨rfl, hdescribes⟩
    exact ⟨hearlier, hdescribes.not_passed, hdescribes⟩
  -- One check after the other: if it is the one that fails, those before it are passed.
  rw [plan, Graph.plan, bind_eq_error_iff] at h
  rcases h with h | ⟨_, hids, h⟩
  · exact hfound (by simp [Check.earlier, Check.inOrder]) (Graph.describes_of_checkIds h)
  have ids : Check.ids.Passed t.contains g := (Graph.checkIds_eq_ok_iff.1 hids).1
  rw [bind_eq_error_iff] at h
  rcases h with h | ⟨_, hwires, h⟩
  · exact hfound (by simp [Check.earlier, Check.inOrder, ids]) (Graph.describes_of_checkWire h)
  have wires : Check.wires.Passed t.contains g :=
    fun w hw => Graph.checkWire_eq_ok_iff.1 (forM_eq_ok_iff.1 hwires w hw)
  rw [bind_eq_error_iff] at h
  rcases h with h | ⟨_, hfan, h⟩
  · exact hfound (by simp [Check.earlier, Check.inOrder, ids, wires])
      (Graph.describes_of_checkFanIn h)
  have targets : Check.targets.Passed t.contains g := Graph.forM_checkFanIn_eq_ok_iff.1 hfan
  have hg : g.Checked := ⟨ids, wires, targets⟩
  rw [bind_eq_error_iff] at h
  rcases h with h | ⟨main, hmain, h⟩
  · exact hfound (by simp [Check.earlier, Check.inOrder, ids, wires, targets])
      (Graph.describes_of_sink h)
  have sink : Check.sink.Passed t.contains g := ⟨main, Graph.sink_eq_ok_iff.1 hmain⟩
  rw [bind_eq_error_iff] at h
  rcases h with h | ⟨order, horder, h⟩
  · exact hfound (by simp [Check.earlier, Check.inOrder, ids, wires, targets, sink])
      (hg.describes_of_order hmain h)
  obtain ⟨init, hschedule, rfl⟩ :=
    Graph.Schedule.of_order hg (Graph.sink_eq_ok_iff.1 hmain) horder
  have cycles : Check.cycles.Passed t.contains g := fun _ => hschedule.acyclic
  rw [bind_eq_error_iff, hschedule.filterMap_node?] at h
  rcases h with h | ⟨_, _, h⟩
  · exact hfound (by simp [Check.earlier, Check.inOrder, ids, wires, targets, sink, cycles])
      (hschedule.describes_of_foldlM h)
  · cases h

/-- The sink draws on a parameter that is there, on one that is not, and on an unknown operation. A
node with the same operation and a cycle is not live. -/
def Graph.misread : Graph where
  nodes :=
    [{ id := ⟨1⟩, op := ⟨1, 1⟩,
       ports := [.input 0 "a" .integer, .input 1 "b" .integer, .input 2 "c" .integer] },
     { id := ⟨2⟩, op := ⟨7, 1⟩, ports := [.output 0 "n" .integer] },
     { id := ⟨3⟩, op := ⟨6, 1⟩, ports := [.output 0 "n" .integer], parameter := some ⟨8⟩ },
     { id := ⟨4⟩, op := ⟨6, 1⟩, ports := [.output 0 "n" .integer], parameter := some ⟨9⟩ },
     { id := ⟨5⟩, op := ⟨7, 1⟩, ports := [.input 0 "x" .bool, .output 1 "y" .bool] }]
  wires := [⟨⟨⟨3⟩, 0⟩, ⟨⟨1⟩, 0⟩⟩, ⟨⟨⟨4⟩, 0⟩, ⟨⟨1⟩, 1⟩⟩, ⟨⟨⟨2⟩, 0⟩, ⟨⟨1⟩, 2⟩⟩, ⟨⟨⟨5⟩, 1⟩, ⟨⟨5⟩, 0⟩⟩]
  parameters := [⟨⟨8⟩, "size", .integer 3⟩]

/-- The operations of the sink and of a parameter read. -/
def OpTable.sinkAndParameter : OpTable where
  entries := [(⟨1, 1⟩, ⟨"sink", pure⟩), (⟨6, 1⟩, ⟨"parameter", pure⟩)]

/-- The parameter that is not there comes before the unknown operation, though not in the list of
nodes. The graph passes the checks before, also that for cycles. -/
theorem OpTable.plan_error_describes_misread :
    let defect := Defect.unknownParameter ⟨4⟩ (some ⟨9⟩)
    OpTable.sinkAndParameter.plan .misread = .error defect ∧
      (∀ c ∈ [Check.ids, .wires, .targets, .sink, .cycles],
        c.Passed OpTable.sinkAndParameter.contains .misread) ∧
      ¬Check.steps.Passed OpTable.sinkAndParameter.contains .misread ∧
      defect.Describes OpTable.sinkAndParameter.contains .misread := by
  intro defect
  have h : OpTable.sinkAndParameter.plan .misread = .error defect := by decide +kernel
  exact ⟨h, OpTable.plan_error_describes h⟩

end NodeGraph
