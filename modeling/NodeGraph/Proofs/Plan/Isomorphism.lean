import NodeGraph.Proofs.Plan.Renaming

/-!
# Graphs that differ in numbers and listing

Two graphs are isomorphic if the nodes of the one are those of the other under other numbers, and
nodes and wires are listed in any order (`Graph.Isomorphic`). `OpTable.plan_isomorphic` says that
isomorphic graphs have the same plan up to the numbers, or both have none for the same kind of
reason.

The checks of nodes and wires and the search for the sink go through lists in their order, so the
defect that they find may be another one of its kind. From there on everything starts at the sink
and follows the ports, and the outcomes are the same up to the numbers.

Parameters keep their numbers and their order, since of several with one number the first one
counts.
-/

namespace NodeGraph

/-- Defects that isomorphic graphs may have. They are of the same kind, and those that come after
the sink is found concern the same node. -/
inductive Defect.Corresponds (f : NodeId → NodeId) : Defect → Defect → Prop
  | duplicateNode (id id' : NodeId) : Corresponds f (.duplicateNode id) (.duplicateNode id')
  | badWire (w w' : Wire) (flaw flaw' : WireFlaw) :
    Corresponds f (.badWire w flaw) (.badWire w' flaw')
  | crowdedInput (input input' : PortRef) (count count' : Nat) :
    Corresponds f (.crowdedInput input count) (.crowdedInput input' count')
  | noSink : Corresponds f .noSink .noSink
  | severalSinks (first second first' second' : NodeId) :
    Corresponds f (.severalSinks first second) (.severalSinks first' second')
  | cycle (node : NodeId) : Corresponds f (.cycle node) (.cycle (f node))
  | unknownOperation (node : NodeId) (op : OpCode) :
    Corresponds f (.unknownOperation node op) (.unknownOperation (f node) op)
  | unknownParameter (node : NodeId) (parameter : Option ParameterId) :
    Corresponds f (.unknownParameter node parameter) (.unknownParameter (f node) parameter)

/-- A defect with all its numbers changed corresponds to it. -/
theorem Defect.corresponds_rename (f : NodeId → NodeId) (defect : Defect) :
    defect.Corresponds f (defect.rename f) := by
  cases defect <;> constructor

namespace Graph

/-- Distinct members stay so under a function that tells them apart, in any order. -/
theorem nodup_iff_of_perm_map {α β : Type} {f : α → β} {s : Set α} {l : List α} {l' : List β}
    (hperm : l'.Perm (l.map f)) (hf : Set.InjOn f s) (hl : ∀ a ∈ l, a ∈ s) :
    l'.Nodup ↔ l.Nodup := by
  rw [hperm.nodup_iff]
  exact ⟨.of_map f, .map_on fun a ha b hb => hf (hl a ha) (hl b hb)⟩

/-- Under distinct keys the entry of a key is the same one in any order. -/
theorem find?_eq_map_of_perm {α β κ κ' : Type} [DecidableEq κ] [DecidableEq κ'] {key : α → κ}
    {key' : β → κ'} {f : κ → κ'} {r : α → β} {s : Set κ} {l : List α} {l' : List β} {k : κ}
    (hperm : l'.Perm (l.map r)) (hkey : ∀ a, key' (r a) = f (key a)) (hf : Set.InjOn f s)
    (hl : ∀ a ∈ l, key a ∈ s) (hk : k ∈ s) (hnodup : (l.map key).Nodup)
    (hnodup' : (l'.map key').Nodup) :
    l'.find? (key' · = f k) = (l.find? (key · = k)).map r := by
  refine Option.ext fun b => ?_
  rw [find?_eq_some_iff_of_nodup hnodup', hperm.mem_iff, List.mem_map, Option.map_eq_some_iff]
  constructor
  · rintro ⟨⟨a, ha, rfl⟩, hb⟩
    have heq : key a = k := hf (hl a ha) hk ((hkey a).symm.trans hb)
    exact ⟨a, (find?_eq_some_iff_of_nodup hnodup).2 ⟨ha, heq⟩, rfl⟩
  · rintro ⟨a, ha, rfl⟩
    obtain ⟨hmem, rfl⟩ := (find?_eq_some_iff_of_nodup hnodup).1 ha
    exact ⟨⟨a, hmem, rfl⟩, hkey a⟩

/-- The numbers that stand in a graph, at its nodes or at the ends of its wires. A wire may name a
node that is not there. -/
def mentioned (g : Graph) : Set NodeId :=
  {id | (∃ n ∈ g.nodes, n.id = id) ∨ ∃ w ∈ g.wires, w.source.node = id ∨ w.target.node = id}

/-- A graph is another one with the nodes under other numbers and the nodes and the wires in any
order. -/
structure Isomorphic (f : NodeId → NodeId) (g g' : Graph) : Prop where
  /-- The other numbers tell apart what the numbers do. Numbers that are not in the graph do not
  matter. -/
  inj : Set.InjOn f g.mentioned
  nodes : g'.nodes.Perm (g.nodes.map (Node.rename f))
  wires : g'.wires.Perm (g.wires.map (Wire.rename f))
  parameters : g'.parameters = g.parameters

variable {f : NodeId → NodeId} {g g' : Graph} {isKnown : OpCode → Bool}

/-- The number of a node is mentioned. -/
theorem mentioned_of_mem {n : Node} (h : n ∈ g.nodes) : n.id ∈ g.mentioned :=
  .inl ⟨n, h, rfl⟩

/-- The node at which a wire starts is mentioned. -/
theorem mentioned_source {w : Wire} (h : w ∈ g.wires) : w.source.node ∈ g.mentioned :=
  .inr ⟨w, h, .inl rfl⟩

/-- The node at which a wire arrives is mentioned. -/
theorem mentioned_target {w : Wire} (h : w ∈ g.wires) : w.target.node ∈ g.mentioned :=
  .inr ⟨w, h, .inr rfl⟩

namespace Isomorphic

/-- The numbers of nodes are distinct in both graphs or in neither. -/
theorem nodup_ids_iff (h : g.Isomorphic f g') :
    (g'.nodes.map (·.id)).Nodup ↔ (g.nodes.map (·.id)).Nodup := by
  have hperm : (g'.nodes.map (·.id)).Perm ((g.nodes.map (·.id)).map f) := by
    have := h.nodes.map (·.id)
    rwa [List.map_map] at this ⊢
  refine nodup_iff_of_perm_map hperm h.inj fun id hid => ?_
  obtain ⟨n, hn, rfl⟩ := List.mem_map.1 hid
  exact mentioned_of_mem hn

/-- The targets of wires are distinct in both graphs or in neither. -/
theorem nodup_targets_iff (h : g.Isomorphic f g') :
    (g'.wires.map (·.target)).Nodup ↔ (g.wires.map (·.target)).Nodup := by
  have hperm :
      (g'.wires.map (·.target)).Perm ((g.wires.map (·.target)).map (PortRef.rename f)) := by
    have := h.wires.map (·.target)
    rwa [List.map_map] at this ⊢
  refine nodup_iff_of_perm_map hperm (PortRef.rename_injOn h.inj) fun target htarget => ?_
  obtain ⟨w, hw, rfl⟩ := List.mem_map.1 htarget
  exact mentioned_target hw

/-- A number stands for the same node, where numbers are distinct. -/
theorem node?_eq (h : g.Isomorphic f g') (hids : (g.nodes.map (·.id)).Nodup) {id : NodeId}
    (hid : id ∈ g.mentioned) : g'.node? (f id) = (g.node? id).map (Node.rename f) :=
  find?_eq_map_of_perm h.nodes (fun _ => rfl) h.inj (fun _ => mentioned_of_mem) hid hids
    (h.nodup_ids_iff.2 hids)

/-- The wire into a port comes from the same port, where targets are distinct. -/
theorem source?_eq (h : g.Isomorphic f g') (htargets : (g.wires.map (·.target)).Nodup)
    {target : PortRef} (htarget : target.node ∈ g.mentioned) :
    g'.source? (target.rename f) = (g.source? target).map (PortRef.rename f) := by
  have hfind : g'.wires.find? (·.target = target.rename f) =
      (g.wires.find? (·.target = target)).map (Wire.rename f) :=
    find?_eq_map_of_perm h.wires (fun _ => rfl) (PortRef.rename_injOn h.inj)
      (fun _ => mentioned_target) htarget htargets (h.nodup_targets_iff.2 htargets)
  rw [source?, source?, hfind, Option.map_map, Option.map_map]
  rfl

/-- A node has the same ports under its other number. -/
theorem exists_port_iff (h : g.Isomorphic f g') (hids : (g.nodes.map (·.id)).Nodup) {id : NodeId}
    (hid : id ∈ g.mentioned) (port : PortId) (P : Port → Prop) :
    (∃ n p, g'.node? (f id) = some n ∧ n.port? port = some p ∧ P p) ↔
      ∃ n p, g.node? id = some n ∧ n.port? port = some p ∧ P p := by
  rw [h.node?_eq hids hid]
  constructor
  · rintro ⟨_, p, hrenamed, hp⟩
    obtain ⟨n, hn, rfl⟩ := Option.map_eq_some_iff.1 hrenamed
    exact ⟨n, p, hn, hp⟩
  · rintro ⟨n, p, hn, hp⟩
    exact ⟨n.rename f, p, Option.map_eq_some_iff.2 ⟨n, hn, rfl⟩, hp⟩

/-- The wires are sound in both graphs or in neither. -/
theorem sound_iff (h : g.Isomorphic f g') (hids : (g.nodes.map (·.id)).Nodup) :
    (∀ w ∈ g'.wires, g'.Sound w) ↔ ∀ w ∈ g.wires, g.Sound w := by
  have hwire : ∀ w ∈ g.wires, g'.Sound (w.rename f) ↔ g.Sound w := by
    intro w hw
    have hsource := h.exists_port_iff hids (mentioned_source hw) w.source.port (·.isOutput)
    have htarget := h.exists_port_iff hids (mentioned_target hw) w.target.port (·.isInput)
    exact ⟨fun ⟨hs, ht⟩ => ⟨hsource.1 hs, htarget.1 ht⟩,
      fun ⟨hs, ht⟩ => ⟨hsource.2 hs, htarget.2 ht⟩⟩
  simp only [h.wires.mem_iff, List.forall_mem_map]
  exact forall₂_congr hwire

/-- The sinks are the same ones, perhaps in another order. -/
theorem sinks_perm (h : g.Isomorphic f g') :
    (g'.nodes.filter (·.op.isSink)).Perm
      ((g.nodes.filter (·.op.isSink)).map (Node.rename f)) := by
  have hfilter := h.nodes.filter (·.op.isSink)
  rwa [List.filter_map] at hfilter

/-- A checked graph is found as a whole in one that is isomorphic to it. -/
theorem toMatches (h : g.Isomorphic f g') (hg : g.Checked) : Matches f g.mentioned g g' where
  inj := h.inj
  node _ := h.node?_eq hg.ids
  source _ := h.source?_eq hg.targets
  closed target source _ hsource := by
    obtain ⟨w, hw, -, rfl⟩ := hg.source?_eq_some_iff.1 hsource
    exact mentioned_source hw
  parameter n _ _ := by
    have hparameter : g'.parameter? = g.parameter? := by
      funext id
      rw [parameter?, h.parameters, parameter?]
    rw [parameterRead, parameterRead, hparameter]
    rfl

/-- Isomorphic graphs both have a plan or both have none. The plans have the same steps up to the
numbers of nodes, and the same parameters, slots and statistics. The defects correspond. So how a
graph is numbered and listed bears on names, and on which of several defects of one kind is
reported, and on nothing else. -/
theorem plan_eq_of_sink (h : g.Isomorphic f g') (hg : g.Checked) (hg' : g'.Checked) {sink : Node}
    (honly : g.nodes.filter (·.op.isSink) = [sink]) (isKnown : OpCode → Bool) :
    g'.plan isKnown = ((g.plan isKnown).map (Plan.rename f)).mapError (Defect.rename f) := by
  have hm := h.toMatches hg
  have honly' : g'.nodes.filter (·.op.isSink) = [sink.rename f] := by
    have hperm := h.sinks_perm
    rw [honly] at hperm
    exact List.perm_singleton.1 hperm
  have hsink : sink ∈ g.nodes :=
    (List.mem_filter.1 (honly ▸ List.mem_singleton_self sink)).1
  have horder := hm.dependencyOrder_eq (mentioned_of_mem hsink)
  cases ho : g.dependencyOrder sink.id with
  | error defect =>
    rw [ho] at horder
    rw [hg.plan_of_order honly ho, hg'.plan_of_order honly' horder]
    rfl
  | ok order =>
    obtain ⟨init, hs, -⟩ := Schedule.of_order hg honly ho
    have hpart : ∀ n ∈ init ++ [sink], n.id ∈ g.mentioned :=
      fun n hn => mentioned_of_mem (hs.mem n hn)
    have hs' := hm.schedule hs hpart hg' honly'
    have hlength : g'.nodes.length = g.nodes.length := by
      rw [h.nodes.length_eq, List.length_map]
    rw [plan_of_schedule hs, plan_of_schedule hs', map_rename_concat,
      hm.findSome?_obstacle_eq hs.mem hpart]
    cases (init ++ [sink]).findSome? (g.obstacle isKnown) with
    | some defect => rfl
    | none =>
      show Except.ok _ = Except.ok _
      rw [hm.planOn_eq hs.mem hpart, hlength]
      rfl

/-- Isomorphic graphs that are checked have the same plan up to the numbers, or corresponding
defects. -/
theorem plan_cases_of_checked (h : g.Isomorphic f g') (hg : g.Checked) (hg' : g'.Checked)
    (isKnown : OpCode → Bool) :
    (∃ p, g.plan isKnown = .ok p ∧ g'.plan isKnown = .ok (p.rename f)) ∨
      ∃ defect defect', g.plan isKnown = .error defect ∧ g'.plan isKnown = .error defect' ∧
        defect.Corresponds f defect' := by
  have hperm := h.sinks_perm
  match hsinks : g.nodes.filter (·.op.isSink), hsinks' : g'.nodes.filter (·.op.isSink) with
  | [], [] =>
    have hplan : g.plan isKnown = .error .noSink := hg.plan_of_sink (by rw [sink, hsinks])
    have hplan' : g'.plan isKnown = .error .noSink := hg'.plan_of_sink (by rw [sink, hsinks'])
    exact .inr ⟨_, _, hplan, hplan', .noSink⟩
  | [sink], _ =>
    have hplan' := h.plan_eq_of_sink hg hg' hsinks isKnown
    cases hplan : g.plan isKnown with
    | ok p =>
      rw [hplan] at hplan'
      exact .inl ⟨p, rfl, hplan'⟩
    | error defect =>
      rw [hplan] at hplan'
      exact .inr ⟨defect, _, rfl, hplan', defect.corresponds_rename f⟩
  | n :: m :: _, n' :: m' :: _ =>
    have hplan : g.plan isKnown = .error (.severalSinks n.id m.id) :=
      hg.plan_of_sink (by rw [sink, hsinks])
    have hplan' : g'.plan isKnown = .error (.severalSinks n'.id m'.id) :=
      hg'.plan_of_sink (by rw [sink, hsinks'])
    exact .inr ⟨_, _, hplan, hplan', .severalSinks ..⟩
  | [], _ :: _ | _ :: _ :: _, [] | _ :: _ :: _, [_] =>
    rw [hsinks, hsinks'] at hperm
    simpa using hperm.length_eq

/-- Isomorphic graphs have the same plan up to the numbers, or corresponding defects. The checks are
taken in turn, and each fails in both graphs or in neither. -/
theorem plan_cases (h : g.Isomorphic f g') (isKnown : OpCode → Bool) :
    (∃ p, g.plan isKnown = .ok p ∧ g'.plan isKnown = .ok (p.rename f)) ∨
      ∃ defect defect', g.plan isKnown = .error defect ∧ g'.plan isKnown = .error defect' ∧
        defect.Corresponds f defect' := by
  -- The checks are taken in their order. Each finds something in both graphs or in neither.
  by_cases hids : (g.nodes.map (·.id)).Nodup
  case neg =>
    obtain ⟨id, hplan⟩ := plan_of_not_nodup isKnown hids
    obtain ⟨id', hplan'⟩ := plan_of_not_nodup isKnown (mt h.nodup_ids_iff.1 hids)
    exact .inr ⟨_, _, hplan, hplan', .duplicateNode id id'⟩
  have hids' := h.nodup_ids_iff.2 hids
  by_cases hwires : ∀ w ∈ g.wires, g.Sound w
  case neg =>
    obtain ⟨w, flaw, hplan⟩ := plan_of_not_sound isKnown hids hwires
    obtain ⟨w', flaw', hplan'⟩ :=
      plan_of_not_sound isKnown hids' (mt (h.sound_iff hids).1 hwires)
    exact .inr ⟨_, _, hplan, hplan', .badWire w w' flaw flaw'⟩
  have hwires' := (h.sound_iff hids).2 hwires
  by_cases htargets : (g.wires.map (·.target)).Nodup
  case neg =>
    obtain ⟨input, count, hplan⟩ := plan_of_crowded isKnown hids hwires htargets
    obtain ⟨input', count', hplan'⟩ :=
      plan_of_crowded isKnown hids' hwires' (mt h.nodup_targets_iff.1 htargets)
    exact .inr ⟨_, _, hplan, hplan', .crowdedInput input input' count count'⟩
  have hg : g.Checked := ⟨hids, hwires, htargets⟩
  have hg' : g'.Checked := ⟨hids', hwires', h.nodup_targets_iff.2 htargets⟩
  exact h.plan_cases_of_checked hg hg' isKnown

end Isomorphic

end Graph

/-- Isomorphic graphs both have a plan or both have none. The plans have the same steps up to the
numbers of nodes, and the same parameters, slots and statistics. The defects correspond. -/
theorem OpTable.plan_isomorphic (t : OpTable) {f : NodeId → NodeId} {g g' : Graph}
    (h : g.Isomorphic f g') :
    ((∃ p, t.plan g = .ok p) ↔ ∃ p', t.plan g' = .ok p') ∧
      (∀ p p', t.plan g = .ok p → t.plan g' = .ok p' →
        p'.steps = p.steps.map (Step.rename f) ∧ p'.parameters = p.parameters ∧
          p'.slotCount = p.slotCount ∧ p'.stats = p.stats) ∧
      ∀ defect defect', t.plan g = .error defect → t.plan g' = .error defect' →
        defect.Corresponds f defect' := by
  unfold OpTable.plan
  obtain ⟨p, hp, hp'⟩ | ⟨defect, defect', hd, hd', hcorresponds⟩ := h.plan_cases t.contains
  · rw [hp, hp']
    refine ⟨⟨fun _ => ⟨_, rfl⟩, fun _ => ⟨_, rfl⟩⟩, ?_, nofun⟩
    rintro _ _ ⟨⟩ ⟨⟩
    exact ⟨rfl, rfl, rfl, p.stats_rename f⟩
  · rw [hd, hd']
    refine ⟨⟨nofun, nofun⟩, nofun, ?_⟩
    rintro _ _ ⟨⟩ ⟨⟩
    exact hcorresponds

/-- Numbers in reverse, from ten on down. -/
def NodeId.mirror (id : NodeId) : NodeId :=
  ⟨10 - id.value⟩

/-- `Graph.branching` with its nodes and wires in reverse, and their numbers as well. -/
def Graph.mirrored : Graph where
  nodes := (Graph.branching.nodes.map (Node.rename .mirror)).reverse
  wires := (Graph.branching.wires.map (Wire.rename .mirror)).reverse
  parameters := Graph.branching.parameters

/-- The steps are in the same order, although all nodes and their numbers are in reverse. -/
theorem OpTable.plan_isomorphic_mirrored :
    Graph.branching.Isomorphic .mirror .mirrored ∧
      OpTable.branching.plan .branching = .ok .branching ∧
      ∃ p, OpTable.branching.plan .mirrored = .ok p ∧
        p.steps = Plan.branching.steps.map (Step.rename .mirror) ∧
        p.steps.map (·.node) = [⟨8⟩, ⟨7⟩, ⟨6⟩, ⟨9⟩] := by
  have hinj : Function.Injective NodeId.mirror := by
    rintro ⟨u⟩ ⟨v⟩ heq
    exact congrArg NodeId.mk ((UInt32.sub_right_inj 10).1 (NodeId.mk.inj heq))
  have h : Graph.branching.Isomorphic .mirror .mirrored :=
    ⟨hinj.injOn, List.reverse_perm _, List.reverse_perm _, rfl⟩
  have hplan : OpTable.branching.plan .branching = .ok .branching := by decide +kernel
  obtain ⟨hiff, hplans, -⟩ := OpTable.plan_isomorphic .branching h
  obtain ⟨p, hp⟩ := hiff.1 ⟨_, hplan⟩
  obtain ⟨hsteps, -⟩ := hplans _ _ hplan hp
  refine ⟨h, hplan, p, hp, hsteps, ?_⟩
  rw [hsteps]
  decide +kernel

end NodeGraph
