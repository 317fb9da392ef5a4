import NodeGraph.Graph.Draft
import NodeGraph.Operation.Builtin
import NodeGraph.Proofs.Plan.Reports

/-!
# The numbers of a draft

A draft numbers its nodes above all that are there, whoever chose their numbers, and its parameters
one by one (`Draft.Numbered`). The count of nodes goes on twice for a node that the draft numbers
itself, once when the number is taken and once when the node is added, but the second time finds it
where it has to be (`Draft.node_freshNode`).

So two nodes of a draft have one number only if a node is added under a number that is already
taken, and the defect that planning finds then is the first such number (`Draft.numbering`). All
this is so as long as the greatest number is not used, since none is left above it.

What is done with a draft is a list of `Draft.Step`s. One step keeps a draft numbered
(`Draft.Numbered.perform`), and hence all steps do (`Draft.Numbered.play`). The guard on the
greatest number is stated about the graph in the end. Nodes are never removed, so that it holds of
every draft on the way (`Draft.ne_last_of_play`).
-/

namespace NodeGraph

/-- The greatest node number, above which there is none. -/
def NodeId.last : NodeId := ⟨4294967295⟩

/-- The greatest parameter number. It has 32 bits like that of nodes. -/
def ParameterId.last : ParameterId := ⟨4294967295⟩

namespace Draft

/-- What can be done with a draft. Nodes are added by kind, with a number from the draft, or as they
are; further there are parameters and wires. -/
inductive Step where
  | sink
  | randomVector3
  | constant (v : Value)
  | binary (op : OpCode) (a b : Float32)
  | parameterRead (id : ParameterId)
  | node (n : Node)
  | parameter (name : String) (value : Value)
  | connect (source target : PortRef)

namespace Step

/-- The draft after a step. The number that the step gives is left out here. -/
def perform : Step → Draft → Draft
  | .sink, d => d.sink.2
  | .randomVector3, d => d.randomVector3.2
  | .constant v, d => (d.constant v).2
  | .binary op a b, d => (d.binary op a b).2
  | .parameterRead id, d => (d.parameterRead id).2
  | .node n, d => (d.node n).2
  | .parameter name value, d => (d.parameter name value).2
  | .connect source target, d => d.connect source target

/-- The number that the draft assigns to the node that a step adds, unless the step comes with the
number. -/
def assigned? : Step → Draft → Option NodeId
  | .sink, d => some d.sink.1
  | .randomVector3, d => some d.randomVector3.1
  | .constant v, d => some (d.constant v).1
  | .binary op a b, d => some (d.binary op a b).1
  | .parameterRead id, d => some (d.parameterRead id).1
  | .node _, _ | .parameter .., _ | .connect .., _ => none

/-- The number that the draft gives to the parameter that a step declares. -/
def declared? : Step → Draft → Option ParameterId
  | .parameter name value, d => some (d.parameter name value).1
  | .sink, _ | .randomVector3, _ | .constant _, _ | .binary .., _ | .parameterRead _, _
  | .node _, _ | .connect .., _ => none

end Step

/-- The draft after steps in turn, each in the draft that the one before has left. -/
def play (d : Draft) (steps : List Step) : Draft :=
  steps.foldl (fun d s => s.perform d) d

/-- The numbers of the nodes so far, in the order in which the nodes were added. -/
def ids (d : Draft) : List NodeId :=
  d.graph.nodes.map (·.id)

/-- The numbers that the draft assigns to nodes in steps in turn, the first one first. Those with
which nodes come are not among them. -/
def assigned (d : Draft) : List Step → List NodeId
  | [] => []
  | s :: steps => (s.assigned? d).toList ++ assigned (s.perform d) steps

/-- The first node that is added under a number that is taken at that moment has the number `id`.
Nodes that the draft numbers itself do not count, whatever number they get. -/
inductive FirstRepeat (id : NodeId) : Draft → List Step → Prop
  | here {d : Draft} {n : Node} (steps : List Step) (hid : n.id = id) (h : id ∈ d.ids) :
      FirstRepeat id d (.node n :: steps)
  | later {d : Draft} {s : Step} {steps : List Step} (hnew : ∀ n, s = .node n → n.id ∉ d.ids)
      (h : FirstRepeat id (s.perform d) steps) : FirstRepeat id d (s :: steps)

/-! ## What the steps do -/

variable {d : Draft} {id : NodeId}

/-- A step takes the next number and adds a node under it, or adds a node under a number of its own,
or a parameter, or a wire. All kinds of nodes that the draft numbers are one case here. -/
theorem Step.perform_cases (s : Step) (d : Draft) :
    (∃ n, n.id = d.freshNode.1 ∧ s.perform d = (d.freshNode.2.node n).2 ∧
      s.assigned? d = some n.id ∧ s.declared? d = none) ∨
    (∃ n, s = .node n) ∨ (∃ name value, s = .parameter name value) ∨
    ∃ source target, s = .connect source target := by
  cases s with
  | sink | randomVector3 | constant | binary | parameterRead =>
    exact .inl ⟨_, rfl, rfl, rfl, rfl⟩
  | node n => exact .inr (.inl ⟨n, rfl⟩)
  | parameter name value => exact .inr (.inr (.inl ⟨name, value, rfl⟩))
  | connect source target => exact .inr (.inr (.inr ⟨source, target, rfl⟩))

/-- The count goes on when the next number is taken, and to add the node under that number raises it
no further: the draft is the one that has only had the node added. -/
theorem node_freshNode {n : Node} (hid : n.id = d.freshNode.1)
    (hnext : d.freshNode.1.value.toNat = d.nextNode) :
    (d.freshNode.2.node n).2 = (d.node n).2 := by
  have hcount : max (d.nextNode + 1) (n.id.value.toNat + 1) =
      max d.nextNode (n.id.value.toNat + 1) := by
    rw [hid, hnext, Nat.max_self, Nat.max_eq_right (Nat.le_succ _)]
  simp only [node, freshNode, hcount]

/-- Nodes are numbered below the next number, which is right above one of them or the first.
Parameters are numbered from one. This is the invariant of drafts. -/
structure Numbered (d : Draft) : Prop where
  lt_next : ∀ n ∈ d.graph.nodes, n.id.value.toNat < d.nextNode
  next : d.nextNode = 1 ∨ ∃ n ∈ d.graph.nodes, d.nextNode = n.id.value.toNat + 1
  parameters : d.graph.parameters.map (·.id) =
    (List.range' 1 d.graph.parameters.length).map fun i => ⟨i.toUInt32⟩
  nextParameter : d.nextParameter = d.graph.parameters.length + 1

namespace Numbered

/-- A draft without nodes and parameters is numbered, with one as the next number of both. -/
theorem empty : Numbered {} :=
  ⟨fun _ hn => absurd hn List.not_mem_nil, .inl rfl, rfl, rfl⟩

/-- A node keeps a draft numbered, under whatever number it is added. If the number is above all
others, the next number moves up to right above it. -/
theorem node (h : d.Numbered) (n : Node) : (d.node n).2.Numbered where
  lt_next m hm := by
    show m.id.value.toNat < max d.nextNode (n.id.value.toNat + 1)
    rcases List.mem_append.1 hm with hm | hm
    · exact Nat.lt_of_lt_of_le (h.lt_next m hm) (Nat.le_max_left ..)
    · cases List.mem_singleton.1 hm
      exact Nat.lt_of_lt_of_le (Nat.lt_succ_self _) (Nat.le_max_right ..)
  next := by
    have hmem : n ∈ d.graph.nodes ++ [n] := List.mem_append_right _ (List.mem_singleton_self n)
    show max d.nextNode (n.id.value.toNat + 1) = 1 ∨
      ∃ m ∈ d.graph.nodes ++ [n], max d.nextNode (n.id.value.toNat + 1) = m.id.value.toNat + 1
    rcases Nat.le_total d.nextNode (n.id.value.toNat + 1) with hle | hle
    · exact .inr ⟨n, hmem, Nat.max_eq_right hle⟩
    · rw [Nat.max_eq_left hle]
      rcases h.next with hfirst | ⟨m, hm, hnext⟩
      · exact .inl hfirst
      · exact .inr ⟨m, List.mem_append_left _ hm, hnext⟩
  parameters := h.parameters
  nextParameter := h.nextParameter

/-- A parameter keeps a draft numbered. It gets a number that is one more than that of the parameter
before it. -/
theorem parameter (h : d.Numbered) (name : String) (value : Value) :
    (d.parameter name value).2.Numbered where
  lt_next := h.lt_next
  next := h.next
  parameters := by
    show (d.graph.parameters ++ [_]).map _ =
      (List.range' 1 (d.graph.parameters ++ [_]).length).map _
    rw [List.map_append, h.parameters, List.length_append, List.length_singleton,
      List.range'_1_concat, List.map_append, List.map_singleton, List.map_singleton,
      h.nextParameter, Nat.add_comm 1]
  nextParameter := by
    show d.nextParameter + 1 = (d.graph.parameters ++ [_]).length + 1
    rw [h.nextParameter, List.length_append, List.length_singleton]

/-- Unless the greatest number is used, the next number is a number that a node can have. Otherwise
the next number would not fit in 32 bits. -/
theorem toNat_freshNode (h : d.Numbered) (hlast : ∀ n ∈ d.graph.nodes, n.id ≠ .last) :
    d.freshNode.1.value.toNat = d.nextNode := by
  refine UInt32.toNat_ofNat_of_lt' ?_
  rcases h.next with hnext | ⟨n, hn, hnext⟩
  · rw [hnext]
    decide
  · have hlt : n.id.value.toNat < UInt32.size := n.id.value.toNat_lt
    have hne : n.id.value.toNat ≠ 4294967295 := fun heq =>
      hlast n hn (congrArg NodeId.mk (UInt32.toNat_inj.1 heq))
    have hsize : UInt32.size = 4294967296 := rfl
    omega

/-- The next number is above those of all nodes, also above those with which nodes came. -/
theorem lt_freshNode (h : d.Numbered) (hlast : ∀ n ∈ d.graph.nodes, n.id ≠ .last) :
    ∀ n ∈ d.graph.nodes, n.id.value < d.freshNode.1.value := by
  intro n hn
  rw [UInt32.lt_iff_toNat_lt, h.toNat_freshNode hlast]
  exact h.lt_next n hn

/-- Every step keeps a draft numbered. A node under the next number is added like any other, by
`node_freshNode`. -/
theorem perform (h : d.Numbered) (hlast : ∀ n ∈ d.graph.nodes, n.id ≠ .last) (s : Step) :
    (s.perform d).Numbered := by
  rcases s.perform_cases d with ⟨n, hid, hs, -⟩ | ⟨n, rfl⟩ | ⟨name, value, rfl⟩ |
    ⟨source, target, rfl⟩
  · rw [hs, node_freshNode hid (h.toNat_freshNode hlast)]
    exact h.node n
  · exact h.node n
  · exact h.parameter name value
  · exact ⟨h.lt_next, h.next, h.parameters, h.nextParameter⟩

/-- Unless the greatest number is used, no two parameters have one number. Their numbers count up
from one, and fit in 32 bits. -/
theorem nodup_parameters (h : d.Numbered) (hlast : ∀ p ∈ d.graph.parameters, p.id ≠ .last) :
    (d.graph.parameters.map (·.id)).Nodup := by
  have hfew : d.graph.parameters.length < 4294967295 := by
    refine Nat.lt_of_not_le fun hle => ?_
    have hmem : ParameterId.last ∈ d.graph.parameters.map (·.id) := by
      rw [h.parameters]
      exact List.mem_map.2 ⟨4294967295, List.mem_range'_1.2 ⟨by omega, by omega⟩, rfl⟩
    obtain ⟨p, hp, heq⟩ := List.mem_map.1 hmem
    exact hlast p hp heq
  rw [h.parameters]
  refine List.Nodup.map_on (fun i hi j hj heq => ?_) (List.nodup_range' ..)
  have hi := (List.mem_range'_1.1 hi).2
  have hj := (List.mem_range'_1.1 hj).2
  have hvalue := congrArg (fun id : ParameterId => id.value.toNat) heq
  have hsize : UInt32.size = 4294967296 := rfl
  rwa [UInt32.toNat_ofNat_of_lt' (by omega), UInt32.toNat_ofNat_of_lt' (by omega)] at hvalue

end Numbered

/-! ## Repeated numbers -/

/-- The node that the draft numbers itself is added at the end, under the number that was
assigned. -/
theorem nodes_perform_of_assigned {s : Step} (h : s.assigned? d = some id) :
    id = d.freshNode.1 ∧ ∃ n, n.id = id ∧ (s.perform d).graph.nodes = d.graph.nodes ++ [n] := by
  rcases s.perform_cases d with ⟨n, hid, hs, hn, -⟩ | ⟨n, rfl⟩ | ⟨name, value, rfl⟩ |
    ⟨source, target, rfl⟩
  · cases hn.symm.trans h
    exact ⟨hid, n, rfl, by rw [hs]; rfl⟩
  all_goals cases h

/-- The parameter that a step declares is added at the end, under the number that was given. So the
number can be used to read the parameter. -/
theorem parameters_perform_of_declared {s : Step} {id : ParameterId} (h : s.declared? d = some id) :
    ∃ p, p.id = id ∧ (s.perform d).graph.parameters = d.graph.parameters ++ [p] := by
  rcases s.perform_cases d with ⟨n, -, -, -, hn⟩ | ⟨n, rfl⟩ | ⟨name, value, rfl⟩ |
    ⟨source, target, rfl⟩
  · cases hn.symm.trans h
  · cases h
  · cases h
    exact ⟨_, rfl, rfl⟩
  · cases h

/-- A step adds nodes at the end, if any. It never removes or changes one. -/
theorem nodes_perform (s : Step) (d : Draft) :
    ∃ added, (s.perform d).graph.nodes = d.graph.nodes ++ added := by
  rcases s.perform_cases d with ⟨n, -, hs, -⟩ | ⟨n, rfl⟩ | ⟨name, value, rfl⟩ |
    ⟨source, target, rfl⟩
  · exact ⟨[n], by rw [hs]; rfl⟩
  · exact ⟨[n], rfl⟩
  · exact ⟨[], (List.append_nil _).symm⟩
  · exact ⟨[], (List.append_nil _).symm⟩

/-- Steps add nodes at the end, so that the nodes at any time come first in all later drafts. -/
theorem nodes_play (d : Draft) (steps : List Step) :
    ∃ added, (d.play steps).graph.nodes = d.graph.nodes ++ added := by
  induction steps generalizing d with
  | nil => exact ⟨[], (List.append_nil _).symm⟩
  | cons s steps ih =>
    obtain ⟨first, hfirst⟩ := nodes_perform s d
    obtain ⟨later, hlater⟩ := ih (s.perform d)
    refine ⟨first ++ later, ?_⟩
    rw [← List.append_assoc, ← hfirst]
    exact hlater

/-- Steps keep all nodes that are there before them. -/
theorem mem_nodes_play {n : Node} (hn : n ∈ d.graph.nodes) (steps : List Step) :
    n ∈ (d.play steps).graph.nodes := by
  obtain ⟨added, hadded⟩ := d.nodes_play steps
  exact hadded ▸ List.mem_append_left _ hn

/-- If the greatest number is not used after steps, it is not used before them. -/
theorem ne_last_of_play {steps : List Step} (h : ∀ n ∈ (d.play steps).graph.nodes, n.id ≠ .last) :
    ∀ n ∈ d.graph.nodes, n.id ≠ .last :=
  fun n hn => h n (mem_nodes_play hn steps)

/-- All steps keep a draft numbered, unless the greatest number is used in the end. -/
theorem Numbered.play (h : d.Numbered) {steps : List Step}
    (hlast : ∀ n ∈ (d.play steps).graph.nodes, n.id ≠ .last) : (d.play steps).Numbered := by
  induction steps generalizing d with
  | nil => exact h
  | cons s steps ih => exact ih (h.perform (ne_last_of_play hlast) s) hlast

/-- The numbers that a draft assigns are above those of the nodes that are there, and each one is
above those before it, since these have become numbers of nodes. -/
theorem Numbered.pairwise_assigned (h : d.Numbered) {steps : List Step}
    (hlast : ∀ n ∈ (d.play steps).graph.nodes, n.id ≠ .last) :
    (∀ id ∈ d.assigned steps, ∀ n ∈ d.graph.nodes, n.id.value < id.value) ∧
      (d.assigned steps).Pairwise fun id id' => id.value < id'.value := by
  induction steps generalizing d with
  | nil => exact ⟨fun _ hid => absurd hid List.not_mem_nil, .nil⟩
  | cons s steps ih =>
    have hbefore := ne_last_of_play hlast
    obtain ⟨habove, hpairwise⟩ := ih (h.perform hbefore s) hlast
    have hkeeps : ∀ id ∈ (s.perform d).assigned steps, ∀ n ∈ d.graph.nodes, n.id.value < id.value :=
      fun id hid n hn => habove id hid n (mem_nodes_play hn [s])
    rw [assigned]
    cases hs : s.assigned? d with
    | none => exact ⟨hkeeps, hpairwise⟩
    | some first =>
      obtain ⟨rfl, n, hn, hnodes⟩ := nodes_perform_of_assigned hs
      refine ⟨List.forall_mem_cons.2 ⟨h.lt_freshNode hbefore, hkeeps⟩,
        List.pairwise_cons.2 ⟨fun id hid => ?_, hpairwise⟩⟩
      exact hn ▸ habove id hid n (hnodes ▸ List.mem_append_right _ (List.mem_singleton_self n))

/-- Unless a step comes with a number that is taken, it keeps the numbers distinct. The draft's own
numbers are new. -/
theorem Numbered.nodup_perform (h : d.Numbered) (hlast : ∀ n ∈ d.graph.nodes, n.id ≠ .last)
    (hids : d.ids.Nodup) {s : Step} (hnew : ∀ n, s = .node n → n.id ∉ d.ids) :
    (s.perform d).ids.Nodup := by
  have hnode : ∀ n : Node, n.id ∉ d.ids → (d.node n).2.ids.Nodup := by
    intro n hn
    show ((d.graph.nodes ++ [n]).map (·.id)).Nodup
    rw [List.map_append, List.map_singleton]
    exact List.nodup_append.2 ⟨hids, List.nodup_singleton _, fun _ ha _ hb heq =>
      hn (List.mem_singleton.1 hb ▸ heq ▸ ha)⟩
  rcases s.perform_cases d with ⟨n, hid, hs, -⟩ | ⟨n, rfl⟩ | ⟨name, value, rfl⟩ |
    ⟨source, target, rfl⟩
  · rw [hs, node_freshNode hid (h.toNat_freshNode hlast)]
    refine hnode n fun hmem => ?_
    obtain ⟨m, hm, heq⟩ := List.mem_map.1 hmem
    have hlt := h.lt_freshNode hlast m hm
    rw [show m.id = d.freshNode.1 from heq.trans hid] at hlt
    exact absurd hlt (UInt32.lt_irrefl _)
  · exact hnode n (hnew n rfl)
  · exact hids
  · exact hids

end Draft

namespace Graph

variable {g : Graph} {id : NodeId}

/-- The check of node numbers stops at a number that is not new, whatever comes after. -/
theorem checkIds_append_cons {seen : List NodeId} {before : List Node} {n : Node}
    (after : List Node) (hbefore : checkIds seen before = .ok ())
    (hn : n.id ∈ seen ∨ n.id ∈ before.map (·.id)) :
    checkIds seen (before ++ n :: after) = .error (.duplicateNode n.id) := by
  induction before generalizing seen with
  | nil => rw [List.nil_append, checkIds, if_pos (hn.resolve_right List.not_mem_nil)]
  | cons m before ih =>
    rw [checkIds] at hbefore
    split at hbefore
    · cases hbefore
    · rename_i hm
      rw [List.cons_append, checkIds, if_neg hm]
      refine ih hbefore ?_
      rcases hn with hn | hn
      · exact .inl (List.mem_cons_of_mem _ hn)
      · rcases List.mem_cons.1 hn with heq | hn
        · exact .inl (List.mem_cons.2 (.inl heq))
        · exact .inr hn

/-- Where node numbers are distinct, planning does not find two nodes with one number, though it may
find another defect. -/
theorem plan_ne_duplicateNode (isKnown : OpCode → Bool) (hids : (g.nodes.map (·.id)).Nodup) :
    g.plan isKnown ≠ .error (.duplicateNode id) := by
  intro h
  by_cases hwires : ∀ w ∈ g.wires, g.Sound w
  · by_cases htargets : (g.wires.map (·.target)).Nodup
    · have hg : g.Checked := ⟨hids, hwires, htargets⟩
      have hother : ∀ {c : Check}, c ≠ .ids →
          ¬((Defect.duplicateNode id).check = c ∧ (Defect.duplicateNode id).Describes isKnown g) :=
        fun hne hfound => hne hfound.1.symm
      rw [hg.plan_eq, bind_eq_error_iff] at h
      rcases h with h | ⟨sink, hsink, h⟩
      · exact hother (by decide) (describes_of_sink h)
      rw [bind_eq_error_iff] at h
      rcases h with h | ⟨order, horder, h⟩
      · exact hother (by decide) (hg.describes_of_order hsink h)
      obtain ⟨init, hschedule, rfl⟩ := Schedule.of_order hg (sink_eq_ok_iff.1 hsink) horder
      rw [bind_eq_error_iff, hschedule.filterMap_node?] at h
      rcases h with h | ⟨_, _, h⟩
      · exact hother (by decide) (hschedule.describes_of_foldlM h)
      · cases h
    · obtain ⟨input, count, hplan⟩ := plan_of_crowded isKnown hids hwires htargets
      cases hplan.symm.trans h
  · obtain ⟨w, flaw, hplan⟩ := plan_of_not_sound isKnown hids hwires
    cases hplan.symm.trans h

end Graph

namespace Draft

variable {d : Draft} {id : NodeId} {steps : List Step}

/-- Planning finds the first number under which a node was added while it was taken. No other defect
is found before it, since node numbers are checked first. -/
theorem FirstRepeat.plan (h : FirstRepeat id d steps) (hd : d.Numbered)
    (hlast : ∀ n ∈ (d.play steps).graph.nodes, n.id ≠ .last) (hids : d.ids.Nodup)
    (isKnown : OpCode → Bool) :
    (d.play steps).graph.plan isKnown = .error (.duplicateNode id) := by
  induction h with
  | @here d n steps hid hmem =>
    subst hid
    obtain ⟨added, hadded⟩ := (d.node n).2.nodes_play steps
    have hnodes : (d.play (.node n :: steps)).graph.nodes = d.graph.nodes ++ n :: added := by
      rw [List.append_cons]
      exact hadded
    have hbefore : Graph.checkIds [] d.graph.nodes = .ok () :=
      Graph.checkIds_eq_ok_iff.2 ⟨hids, fun _ _ => List.not_mem_nil⟩
    rw [Graph.plan, hnodes, Graph.checkIds_append_cons added hbefore (.inr hmem)]
    rfl
  | @later d s steps hnew h ih =>
    have hbefore := ne_last_of_play hlast
    exact ih (hd.perform hbefore s) hlast (hd.nodup_perform hbefore hids hnew)

/-- If two nodes come to have one number, a node was added under a number that was taken. By
induction on the steps: as long as this has not happened the numbers are distinct. -/
theorem exists_firstRepeat (hd : d.Numbered)
    (hlast : ∀ n ∈ (d.play steps).graph.nodes, n.id ≠ .last) (hids : d.ids.Nodup)
    (hrepeated : ¬(d.play steps).ids.Nodup) : ∃ id, FirstRepeat id d steps := by
  induction steps generalizing d with
  | nil => exact absurd hids hrepeated
  | cons s steps ih =>
    by_cases hnew : ∀ n, s = .node n → n.id ∉ d.ids
    · have hbefore := ne_last_of_play hlast
      obtain ⟨id, h⟩ :=
        ih (hd.perform hbefore s) hlast (hd.nodup_perform hbefore hids hnew) hrepeated
      exact ⟨id, .later hnew h⟩
    · obtain ⟨n, hn⟩ := Classical.not_forall.1 hnew
      obtain ⟨rfl, hmem⟩ := Classical.not_imp.1 hn
      exact ⟨n.id, .here steps rfl (Classical.not_not.1 hmem)⟩

/-- Planning finds two nodes with one number exactly if a node was added under a number that was
taken, and it finds the first such number. -/
theorem plan_eq_duplicateNode_iff (hd : d.Numbered)
    (hlast : ∀ n ∈ (d.play steps).graph.nodes, n.id ≠ .last) (hids : d.ids.Nodup)
    (isKnown : OpCode → Bool) :
    (d.play steps).graph.plan isKnown = .error (.duplicateNode id) ↔ FirstRepeat id d steps := by
  refine ⟨fun hplan => ?_, fun h => h.plan hd hlast hids isKnown⟩
  by_cases hfinal : (d.play steps).ids.Nodup
  · exact absurd hplan (Graph.plan_ne_duplicateNode isKnown hfinal)
  · obtain ⟨id', h⟩ := exists_firstRepeat hd hlast hids hfinal
    cases (h.plan hd hlast hids isKnown).symm.trans hplan
    exact h

/-- However a graph is drafted, if the greatest numbers are not used: a number that the draft
assigns is above those of all nodes so far, and a node is added under it, so that of all the numbers
that are assigned each is above the ones before it. A number that is given to a parameter is that of
a parameter which is added, and no two parameters have one number. Planning with whatever operations
finds two nodes with one number exactly if a node was added under a number that was taken at that
moment, and it finds the first such number. -/
theorem numbering {steps : List Step}
    (hnodes : ∀ n ∈ (play {} steps).graph.nodes, n.id ≠ .last)
    (hparameters : ∀ p ∈ (play {} steps).graph.parameters, p.id ≠ .last) :
    (∀ before step after id, steps = before ++ step :: after →
      step.assigned? (play {} before) = some id →
        (∀ n ∈ (play {} before).graph.nodes, n.id.value < id.value) ∧
        ∃ n, n.id = id ∧ (play {} (before ++ [step])).graph.nodes =
          (play {} before).graph.nodes ++ [n]) ∧
    ((assigned {} steps).Pairwise fun id id' => id.value < id'.value) ∧
    (∀ before step after id, steps = before ++ step :: after →
      step.declared? (play {} before) = some id →
        ∃ p, p.id = id ∧ (play {} (before ++ [step])).graph.parameters =
          (play {} before).graph.parameters ++ [p]) ∧
    ((play {} steps).graph.parameters.map (·.id)).Nodup ∧
    ∀ (t : OpTable) (id : NodeId),
      t.plan (play {} steps).graph = .error (.duplicateNode id) ↔ FirstRepeat id {} steps := by
  have hplay (before : List Step) (step : Step) :
      play {} (before ++ [step]) = step.perform (play {} before) := by
    rw [play, List.foldl_concat, play]
  refine ⟨?_, (Numbered.empty.pairwise_assigned hnodes).2, ?_,
    (Numbered.empty.play hnodes).nodup_parameters hparameters, fun t id =>
    plan_eq_duplicateNode_iff .empty hnodes List.nodup_nil t.contains⟩
  · rintro before step after id rfl hassigned
    have hbefore : ∀ n ∈ (play {} before).graph.nodes, n.id ≠ .last := by
      rw [play, List.foldl_append] at hnodes
      exact ne_last_of_play hnodes
    obtain ⟨rfl, hadded⟩ := nodes_perform_of_assigned hassigned
    rw [hplay]
    exact ⟨(Numbered.empty.play hbefore).lt_freshNode hbefore, hadded⟩
  · rintro before step after id - hdeclared
    rw [hplay]
    exact parameters_perform_of_declared hdeclared

/-- The sink gets number 1, a node comes with number 10, a source of random vectors gets 11, a node
comes with number 5 and a constant gets 12. Then the numbers 11 and 1 are used again. -/
def reused : List Step :=
  [.sink, .parameter "size" .absent, .node { id := ⟨10⟩, op := .randomVector3 }, .randomVector3,
    .node { id := ⟨5⟩, op := .randomVector3 }, .constant .absent, .parameter "seed" .absent,
    .node { id := ⟨11⟩, op := .randomVector3 }, .node { id := ⟨1⟩, op := .sink }]

/-- The draft assigns 1, 11 and 12, each above all numbers at that moment: when 12 is assigned, the
nodes have the numbers 1, 10, 11 and 5, and the constant is added to them. Of the two numbers that
are used again planning finds 11, which is the first one. -/
theorem numbering_reused :
    (∀ n ∈ (play {} reused).graph.nodes, n.id ≠ .last) ∧
    (∀ p ∈ (play {} reused).graph.parameters, p.id ≠ .last) ∧
    assigned {} reused = [⟨1⟩, ⟨11⟩, ⟨12⟩] ∧
    ((assigned {} reused).Pairwise fun id id' => id.value < id'.value) ∧
    (play {} (reused.take 5)).ids = [⟨1⟩, ⟨10⟩, ⟨11⟩, ⟨5⟩] ∧
    (∀ n ∈ (play {} (reused.take 5)).graph.nodes, n.id.value < 12) ∧
    (∃ n, n.id = ⟨12⟩ ∧ (play {} (reused.take 6)).graph.nodes =
      (play {} (reused.take 5)).graph.nodes ++ [n]) ∧
    (∃ p, p.id = ⟨2⟩ ∧ (play {} (reused.take 7)).graph.parameters =
      (play {} (reused.take 6)).graph.parameters ++ [p]) ∧
    ((play {} reused).graph.parameters.map (·.id)).Nodup ∧
    OpTable.builtin.plan (play {} reused).graph = .error (.duplicateNode ⟨11⟩) := by
  have hnodes : ∀ n ∈ (play {} reused).graph.nodes, n.id ≠ .last := by decide +kernel
  have hparameters : ∀ p ∈ (play {} reused).graph.parameters, p.id ≠ .last := by decide +kernel
  obtain ⟨hassigned, hpairwise, hdeclared, hdistinct, hplan⟩ := numbering hnodes hparameters
  obtain ⟨habove, hadded⟩ :=
    hassigned (reused.take 5) (.constant .absent) (reused.drop 6) ⟨12⟩ rfl rfl
  refine ⟨hnodes, hparameters, by decide +kernel, hpairwise, by decide +kernel, habove, hadded,
    hdeclared (reused.take 6) (.parameter "seed" .absent) (reused.drop 7) ⟨2⟩ rfl rfl, hdistinct,
    (hplan OpTable.builtin ⟨11⟩).2 ?_⟩
  have hnew : ∀ {d : Draft} {n : Node}, n.id ∉ d.ids →
      ∀ m, Step.node n = .node m → m.id ∉ d.ids := by
    rintro d n hn m ⟨⟩
    exact hn
  refine .later (fun _ => Step.noConfusion) (.later (fun _ => Step.noConfusion) ?_)
  refine .later (hnew (by decide)) (.later (fun _ => Step.noConfusion) ?_)
  refine .later (hnew (by decide)) (.later (fun _ => Step.noConfusion) ?_)
  exact .later (fun _ => Step.noConfusion) (.here _ rfl (by decide))

end Draft

end NodeGraph
