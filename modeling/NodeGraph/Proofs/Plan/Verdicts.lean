import NodeGraph.Proofs.Plan.Layout

/-!
# Where planning stops

Planning stops at the first check that fails. Here each check is taken in turn: if the ones before
it find no defect and it finds one, then that is what planning comes to. In a graph with a schedule,
planning comes to the first obstacle that a node of the schedule meets, or to the plan
(`Graph.plan_of_schedule`).

What a check finds is said about the graph and not about the check. For wires there is a list of
what can be wrong, in the order in which it is looked for (`Graph.Flawed`).
-/

namespace NodeGraph

variable {g : Graph} {isKnown : OpCode → Bool} {init : List Node} {sink : Node} {defect : Defect}

/-- A check that does not succeed ends with a defect. -/
theorem exists_error_of_ne_ok {ε : Type} {x : Except ε Unit} (h : x ≠ .ok ()) :
    ∃ e, x = .error e := by
  cases x with
  | error e => exact ⟨e, rfl⟩
  | ok _ => exact absurd rfl h

/-- The defect of a check of all members of a list is that of the first one that has any. -/
theorem exists_first_of_forM_eq_error {ε α : Type} {f : α → Except ε Unit} {l : List α} {e : ε}
    (h : l.forM f = .error e) :
    ∃ before a after, l = before ++ a :: after ∧ (∀ b ∈ before, f b = .ok ()) ∧ f a = .error e := by
  induction l with
  | nil => cases h
  | cons a l ih =>
    rw [List.forM] at h
    cases ha : f a with
    | error e' =>
      rw [ha] at h
      cases h
      exact ⟨[], a, l, rfl, List.forall_mem_nil _, ha⟩
    | ok _ =>
      rw [ha] at h
      obtain ⟨before, b, after, rfl, hbefore, hb⟩ := ih h
      exact ⟨a :: before, b, after, rfl, List.forall_mem_cons.2 ⟨ha, hbefore⟩, hb⟩

namespace Graph

/-- Why a node has no step, if it has none: its operation is not known, or else its parameter is not
there. -/
def obstacle (isKnown : OpCode → Bool) (g : Graph) (n : Node) : Option Defect :=
  if isKnown n.op then
    if n.op.isParameter && (g.parameterRead n).isNone then
      some (.unknownParameter n.id n.parameter)
    else none
  else some (.unknownOperation n.id n.op)

/-- A node without an obstacle has a step. -/
theorem obstacle_eq_none_iff {n : Node} : g.obstacle isKnown n = none ↔ g.Buildable isKnown n := by
  unfold obstacle
  constructor
  · intro h
    split at h
    · rename_i hknown
      refine ⟨hknown, fun hparameter => ?_⟩
      rw [hparameter] at h
      cases hread : g.parameterRead n with
      | none => simp [hread] at h
      | some p => rfl
    · cases h
  · rintro ⟨hknown, hparameter⟩
    rw [if_pos hknown, if_neg]
    intro hmissing
    obtain ⟨hop, hnone⟩ := Bool.and_eq_true_iff.1 hmissing
    have hsome := hparameter hop
    rw [Option.isNone_iff_eq_none.1 hnone] at hsome
    cases hsome

end Graph

namespace Assembly

/-- A node that meets an obstacle stops the assembly with it, whatever has been assembled before. -/
theorem add_of_obstacle {n : Node} {defect : Defect} (h : g.obstacle isKnown n = some defect)
    (a : Assembly) : add isKnown g a n = .error defect := by
  unfold Graph.obstacle at h
  split at h
  · rename_i hknown
    split at h
    · rename_i hmissing
      obtain ⟨hop, hnone⟩ := Bool.and_eq_true_iff.1 hmissing
      cases h
      rw [Graph.parameterRead, if_pos hop, Option.isNone_iff_eq_none] at hnone
      have hof : g.parameterOf n = .error (.unknownParameter n.id n.parameter) := by
        rw [Graph.parameterOf, if_pos hop, hnone]
      rw [add, hknown, hof]
      rfl
    · cases h
  · rename_i hknown
    cases h
    simp [add, hknown]

/-- The steps of nodes are added up to the first one that meets an obstacle. -/
theorem foldlM_add_eq (nodes : List Node) (a : Assembly) :
    nodes.foldlM (add isKnown g) a =
      match nodes.findSome? (g.obstacle isKnown) with
      | some defect => .error defect
      | none => .ok (nodes.foldl (put g) a) := by
  induction nodes generalizing a with
  | nil => rfl
  | cons n nodes ih =>
    rw [List.foldlM_cons, List.findSome?_cons]
    cases hn : g.obstacle isKnown n with
    | some defect =>
      rw [add_of_obstacle hn]
      rfl
    | none =>
      rw [add_eq_ok_iff.2 ⟨Graph.obstacle_eq_none_iff.1 hn, rfl⟩]
      exact ih (a.put g n)

end Assembly

namespace Graph

/-- The check of node numbers finds the first node whose number is not new. -/
theorem checkIds_eq_error {seen : List NodeId} {nodes : List Node}
    (h : checkIds seen nodes = .error defect) :
    ∃ before n after, nodes = before ++ n :: after ∧ defect = .duplicateNode n.id ∧
      checkIds seen before = .ok () ∧ (n.id ∈ seen ∨ n.id ∈ before.map (·.id)) := by
  induction nodes generalizing seen with
  | nil => cases h
  | cons m nodes ih =>
    rw [checkIds] at h
    split at h
    · rename_i hm
      cases h
      exact ⟨[], m, nodes, rfl, rfl, rfl, .inl hm⟩
    · rename_i hm
      obtain ⟨before, n, after, rfl, hdefect, hbefore, hn⟩ := ih h
      refine ⟨m :: before, n, after, rfl, hdefect, by rw [checkIds, if_neg hm, hbefore], ?_⟩
      rcases hn with hn | hn
      · rcases List.mem_cons.1 hn with heq | hn
        · exact .inr (List.mem_map.2 ⟨m, List.mem_cons_self, heq.symm⟩)
        · exact .inl hn
      · exact .inr (List.mem_cons_of_mem _ hn)

/-- What is wrong with a wire is what the first check of it that fails says. The checks are of its
source node, its target node, its source port, its target port, and then of the two directions. -/
inductive Flawed (g : Graph) (w : Wire) : WireFlaw → Prop
  | noSource (source : ∀ n ∈ g.nodes, n.id ≠ w.source.node) :
      Flawed g w (.unknownNode w.source.node)
  | noTarget {n : Node} (source : g.node? w.source.node = some n)
      (target : ∀ m ∈ g.nodes, m.id ≠ w.target.node) : Flawed g w (.unknownNode w.target.node)
  | noSourcePort {n m : Node} (source : g.node? w.source.node = some n)
      (target : g.node? w.target.node = some m) (sourcePort : ∀ p ∈ n.ports, p.id ≠ w.source.port) :
      Flawed g w (.missingPort w.source)
  | noTargetPort {n m : Node} {p : Port} (source : g.node? w.source.node = some n)
      (target : g.node? w.target.node = some m) (sourcePort : n.port? w.source.port = some p)
      (targetPort : ∀ q ∈ m.ports, q.id ≠ w.target.port) : Flawed g w (.missingPort w.target)
  | fromInput {n m : Node} {p q : Port} (source : g.node? w.source.node = some n)
      (target : g.node? w.target.node = some m) (sourcePort : n.port? w.source.port = some p)
      (targetPort : m.port? w.target.port = some q) (notOutput : ¬p.isOutput) :
      Flawed g w .sourceNotOutput
  | toOutput {n m : Node} {p q : Port} (source : g.node? w.source.node = some n)
      (target : g.node? w.target.node = some m) (sourcePort : n.port? w.source.port = some p)
      (targetPort : m.port? w.target.port = some q) (output : p.isOutput) (notInput : ¬q.isInput) :
      Flawed g w .targetNotInput

/-- A sound wire has no flaw. -/
theorem Flawed.not_sound {w : Wire} {flaw : WireFlaw} (h : g.Flawed w flaw) : ¬g.Sound w := by
  rintro ⟨⟨n', p', hn', hp', hout'⟩, m', q', hm', hq', hin'⟩
  cases h with
  | noSource hsource =>
    exact hsource n' (List.mem_of_find?_eq_some hn') (by simpa using List.find?_some hn')
  | noTarget hn htarget =>
    exact htarget m' (List.mem_of_find?_eq_some hm') (by simpa using List.find?_some hm')
  | noSourcePort hn hm hport =>
    cases hn.symm.trans hn'
    exact hport p' (List.mem_of_find?_eq_some hp') (by simpa using List.find?_some hp')
  | noTargetPort hn hm hp hport =>
    cases hm.symm.trans hm'
    exact hport q' (List.mem_of_find?_eq_some hq') (by simpa using List.find?_some hq')
  | fromInput hn hm hp hq hout =>
    cases hn.symm.trans hn'
    cases hp.symm.trans hp'
    exact hout hout'
  | toOutput hn hm hp hq hout hin =>
    cases hm.symm.trans hm'
    cases hq.symm.trans hq'
    exact hin hin'

/-- The check of a wire finds what is wrong with it, and the first thing if there are several. -/
theorem checkWire_eq_error {w : Wire} (h : g.checkWire w = .error defect) :
    ∃ flaw, defect = .badWire w flaw ∧ g.Flawed w flaw := by
  have hmissing : ∀ {α κ : Type} [DecidableEq κ] {key : α → κ} {l : List α} {k : κ},
      l.find? (key · = k) = none → ∀ a ∈ l, key a ≠ k := by
    intro α κ _ key l k hnone a ha
    simpa using List.find?_eq_none.1 hnone a ha
  cases hn : g.node? w.source.node with
  | none => exact ⟨_, by simpa [checkWire, hn] using h.symm, .noSource (hmissing hn)⟩
  | some n =>
  cases hm : g.node? w.target.node with
  | none => exact ⟨_, by simpa [checkWire, hn, hm] using h.symm, .noTarget hn (hmissing hm)⟩
  | some m =>
  cases hp : n.port? w.source.port with
  | none =>
    exact ⟨_, by simpa [checkWire, hn, hm, hp] using h.symm, .noSourcePort hn hm (hmissing hp)⟩
  | some p =>
  cases hq : m.port? w.target.port with
  | none =>
    exact ⟨_, by simpa [checkWire, hn, hm, hp, hq] using h.symm,
      .noTargetPort hn hm hp (hmissing hq)⟩
  | some q =>
  by_cases hout : p.isOutput
  · by_cases hin : q.isInput
    · simp [checkWire, hn, hm, hp, hq, hout, hin] at h
    · exact ⟨_, by simpa [checkWire, hn, hm, hp, hq, hout, hin] using h.symm,
        .toOutput hn hm hp hq hout hin⟩
  · exact ⟨_, by simpa [checkWire, hn, hm, hp, hq, hout] using h.symm,
      .fromInput hn hm hp hq hout⟩

/-- The check of a wire's target finds other wires there, and how many there are in all. -/
theorem checkFanIn_eq_error {w : Wire} (h : g.checkFanIn w = .error defect) :
    defect = .crowdedInput w.target (g.fanIn w.target) ∧ 1 < g.fanIn w.target := by
  unfold checkFanIn at h
  split at h
  · cases h
    exact ⟨rfl, ‹_›⟩
  · cases h

/-- Two nodes with one number are the first thing to be found. -/
theorem plan_of_not_nodup (isKnown : OpCode → Bool) (hids : ¬(g.nodes.map (·.id)).Nodup) :
    ∃ id, g.plan isKnown = .error (.duplicateNode id) := by
  obtain ⟨defect, hcheck⟩ := exists_error_of_ne_ok fun h => hids (checkIds_eq_ok_iff.1 h).1
  obtain ⟨_, n, _, -, rfl, -⟩ := checkIds_eq_error hcheck
  refine ⟨n.id, ?_⟩
  rw [plan, hcheck]
  rfl

/-- An unsound wire is found next, if node numbers are distinct. -/
theorem plan_of_not_sound (isKnown : OpCode → Bool) (hids : (g.nodes.map (·.id)).Nodup)
    (hwires : ¬∀ w ∈ g.wires, g.Sound w) :
    ∃ w flaw, g.plan isKnown = .error (.badWire w flaw) := by
  have hfirst : checkIds [] g.nodes = .ok () :=
    checkIds_eq_ok_iff.2 ⟨hids, fun _ _ => List.not_mem_nil⟩
  obtain ⟨defect, hcheck⟩ : ∃ e, g.wires.forM g.checkWire = .error e :=
    exists_error_of_ne_ok fun h =>
      hwires fun w hw => checkWire_eq_ok_iff.1 (forM_eq_ok_iff.1 h w hw)
  obtain ⟨_, w, _, -, -, hw⟩ := exists_first_of_forM_eq_error hcheck
  obtain ⟨flaw, rfl, -⟩ := checkWire_eq_error hw
  refine ⟨w, flaw, ?_⟩
  rw [plan, hfirst, hcheck]
  rfl

/-- Two wires with one target are found next, if all wires are sound. -/
theorem plan_of_crowded (isKnown : OpCode → Bool) (hids : (g.nodes.map (·.id)).Nodup)
    (hwires : ∀ w ∈ g.wires, g.Sound w) (htargets : ¬(g.wires.map (·.target)).Nodup) :
    ∃ input count, g.plan isKnown = .error (.crowdedInput input count) := by
  have hfirst : checkIds [] g.nodes = .ok () :=
    checkIds_eq_ok_iff.2 ⟨hids, fun _ _ => List.not_mem_nil⟩
  have hsecond : g.wires.forM g.checkWire = .ok () :=
    forM_eq_ok_iff.2 fun w hw => checkWire_eq_ok_iff.2 (hwires w hw)
  obtain ⟨defect, hcheck⟩ : ∃ e, g.wires.forM g.checkFanIn = .error e :=
    exists_error_of_ne_ok fun h => htargets (forM_checkFanIn_eq_ok_iff.1 h)
  obtain ⟨_, w, _, -, -, hw⟩ := exists_first_of_forM_eq_error hcheck
  obtain ⟨rfl, -⟩ := checkFanIn_eq_error hw
  refine ⟨w.target, g.fanIn w.target, ?_⟩
  rw [plan, hfirst, hsecond, hcheck]
  rfl

/-- In a checked graph, planning goes on with the sink, the order and the steps. -/
theorem Checked.plan_eq (hg : g.Checked) (isKnown : OpCode → Bool) :
    g.plan isKnown = g.sink >>= fun sink => g.dependencyOrder sink.id >>= fun order =>
      (order.filterMap g.node?).foldlM (Assembly.add isKnown g) {} >>= fun a =>
        .ok ⟨a.steps, a.parameters, a.pool.slotCount, g.nodes.length⟩ := by
  obtain ⟨hids, hwires, hfan⟩ := checks_eq_ok_iff.2 hg
  rw [plan, hids, hwires, hfan]
  rfl

/-- If there is not one sink, that is found next. -/
theorem Checked.plan_of_sink (hg : g.Checked) (hsink : g.sink = .error defect) :
    g.plan isKnown = .error defect := by
  rw [hg.plan_eq, hsink]
  rfl

/-- A cycle is found next, if the graph has one sink. -/
theorem Checked.plan_of_order (hg : g.Checked) (honly : g.nodes.filter (·.op.isSink) = [sink])
    (horder : g.dependencyOrder sink.id = .error defect) : g.plan isKnown = .error defect := by
  rw [hg.plan_eq, sink_eq_ok_iff.2 honly]
  show (g.dependencyOrder sink.id >>= _) = _
  rw [horder]
  rfl

/-- A graph with a schedule has a plan, unless a node of the schedule meets an obstacle. The first
one that does is what planning stops at. -/
theorem plan_of_schedule (h : g.Schedule init sink) :
    g.plan isKnown =
      match (init ++ [sink]).findSome? (g.obstacle isKnown) with
      | some defect => .error defect
      | none => .ok (g.planOn init sink) := by
  rw [h.checked.plan_eq, sink_eq_ok_iff.2 h.only]
  show (g.dependencyOrder sink.id >>= _) = _
  rw [h.order]
  show ((List.filterMap g.node? ((init ++ [sink]).map (·.id))).foldlM
    (Assembly.add isKnown g) {} >>= _) = _
  rw [h.filterMap_node?, Assembly.foldlM_add_eq]
  cases (init ++ [sink]).findSome? (g.obstacle isKnown) with
  | some defect => rfl
  | none =>
    obtain ⟨hsteps, hparameters, hcount⟩ := foldl_put_eq_planOn (g := g) h.not_isSink h.isSink
    show Except.ok _ = Except.ok _
    rw [hsteps, hparameters, hcount]
    rfl

end Graph

end NodeGraph
