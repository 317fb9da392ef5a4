import NodeGraph.Plan.Defect

/-!
# The order of a plan's steps

The nodes that the sink depends on are listed in depth-first post-order: each after its producers,
and the producers of a node in the order of its input ports. The search keeps its own stack. A node
can stand on the stack several times, since every node that is visited puts its producers there; the
`path` holds the nodes that are visited and not yet listed, which are those from the sink down to
the present node. A wire from a node of the path closes a cycle.

The search ends because of `Search.work`, which counts what is on the stack, what of it is not
visited, and the wires into nodes that are not visited. Listing a node takes it off the stack.
Visiting a node puts its producers on the stack, which is paid for by the wires that lead from them.
-/

namespace NodeGraph

/-- The producers of a node: the nodes whose wires arrive at its input ports, in port order. A node
from which several wires come is there several times. -/
def Graph.producers (g : Graph) (id : NodeId) : List NodeId :=
  match g.node? id with
  | none => []
  | some n => n.inputs.filterMap fun p => (g.source? (n.ref p)).map (·.node)

/-- The state of the search. A node is put on the stack, is visited, and is listed when it is met a
second time. -/
structure Search where
  /-- The nodes still to be handled, the next one first. -/
  stack : List NodeId
  /-- The nodes whose producers have been put on the stack. -/
  visited : List NodeId := []
  /-- The visited nodes that are not listed yet. -/
  path : List NodeId := []
  /-- The nodes listed so far, in the order in which their steps will be. -/
  order : List NodeId := []

namespace Search

/-- Twice the number of wires into nodes that are not visited. Each of these wires can add an entry
to the stack, which counts twice in `work` as long as it is not visited. -/
def pending (g : Graph) (visited : List NodeId) : Nat :=
  2 * ((g.nodes.filter (·.id ∉ visited)).flatMap fun n => g.producers n.id).length

/-- What is left to do. Every turn of the search makes it smaller. -/
def work (g : Graph) (s : Search) : Nat :=
  s.stack.length + (s.stack.filter (· ∉ s.visited)).length + pending g s.visited

/-- The search after its next node, which is visited, has been listed. A node that is listed already
is only taken off the stack. -/
def list (s : Search) (id : NodeId) (rest : List NodeId) : Search :=
  { s with
    stack := rest
    path := s.path.erase id
    order := if id ∈ s.order then s.order else s.order ++ [id] }

/-- The search after its next node has been visited. The node stays on the stack below its
producers, and is listed when these are. -/
def visit (g : Graph) (s : Search) (id : NodeId) (rest : List NodeId) : Search :=
  { s with
    stack := (g.producers id).filter (· ∉ id :: s.visited) ++ id :: rest
    visited := id :: s.visited
    path := id :: s.path }

/-- Members that are left out of a list add nothing to what its members have together. -/
theorem length_flatMap_filter_le {α β : Type} (f : α → List β) (p : α → Bool) (l : List α) :
    ((l.filter p).flatMap f).length ≤ (l.flatMap f).length := by
  induction l with
  | nil => simp
  | cons a l ih =>
    by_cases hp : p a
    · simpa [hp] using ih
    · simpa [hp] using Nat.le_add_left_of_le ih

/-- The nodes that are not visited after a visit are those before it, but for the visited one. -/
theorem filter_notMem_cons (g : Graph) (visited : List NodeId) (id : NodeId) :
    g.nodes.filter (·.id ∉ id :: visited) =
      (g.nodes.filter (·.id ∉ visited)).filter (·.id ≠ id) := by
  rw [List.filter_filter]
  exact List.filter_congr fun n _ => by simp

/-- A visit pays for the stack entries that it adds: they are the producers of the node, and the
wires from these are not pending any more. Nodes with the same number are visited together. -/
theorem pending_visit (g : Graph) {visited : List NodeId} {id : NodeId} (h : id ∉ visited) :
    2 * (g.producers id).length + pending g (id :: visited) ≤ pending g visited := by
  unfold pending
  rw [filter_notMem_cons]
  cases hn : g.node? id with
  | none =>
    have hle := length_flatMap_filter_le (fun n : Node => g.producers n.id) (·.id ≠ id)
      (g.nodes.filter (·.id ∉ visited))
    have hnone : g.producers id = [] := by simp [Graph.producers, hn]
    rw [hnone, List.length_nil]
    omega
  | some n =>
    have hid : n.id = id := by simpa using List.find?_some hn
    have hmem : n ∈ g.nodes.filter (·.id ∉ visited) :=
      List.mem_filter.2 ⟨List.mem_of_find?_eq_some hn, by simpa [hid] using h⟩
    -- The node is taken out of its place among those that are not visited.
    obtain ⟨before, after, hsplit⟩ := List.append_of_mem hmem
    have hbefore := length_flatMap_filter_le (fun n : Node => g.producers n.id) (·.id ≠ id) before
    have hafter := length_flatMap_filter_le (fun n : Node => g.producers n.id) (·.id ≠ id) after
    have hfilter : (n :: after).filter (·.id ≠ id) = after.filter (·.id ≠ id) :=
      List.filter_cons_of_neg (by simp [hid])
    rw [hsplit, List.filter_append, hfilter, List.flatMap_append, List.flatMap_append,
      List.flatMap_cons, List.length_append, List.length_append, List.length_append, hid]
    omega

/-- Listing a node leaves less to do, since the stack gets shorter. -/
theorem work_list (g : Graph) {s : Search} {id : NodeId} {rest : List NodeId}
    (h : s.stack = id :: rest) : work g (s.list id rest) < work g s := by
  have : (rest.filter (· ∉ s.visited)).length ≤ ((id :: rest).filter (· ∉ s.visited)).length := by
    grind
  unfold work list
  rw [h]
  simp only [List.length_cons]
  omega

/-- Visiting a node leaves less to do. Its producers come on the stack, but their wires were
pending, and the node itself is visited now. -/
theorem work_visit (g : Graph) {s : Search} {id : NodeId} {rest : List NodeId}
    (h : s.stack = id :: rest) (hv : id ∉ s.visited) : work g (s.visit g id rest) < work g s := by
  have paid := pending_visit g hv
  have pushed : ((g.producers id).filter (· ∉ id :: s.visited)).length ≤ (g.producers id).length :=
    List.length_filter_le ..
  have again (l : List NodeId) :
      (l.filter (· ∉ id :: s.visited)).length ≤ (l.filter (· ∉ s.visited)).length := by
    induction l with
    | nil => simp
    | cons a l ih => grind
  have := again rest
  simp only [work, visit, h, List.length_append, List.length_cons, List.filter_append,
    List.filter_filter, List.filter_cons, List.mem_cons, true_or, not_true_eq_false, decide_false,
    Bool.false_eq_true, if_false, hv, not_false_eq_true, decide_true, if_true, Bool.and_self] at *
  omega

/-- Runs the search to its end. A node that is visited is listed, and another one is visited, unless
one of its producers is on the path. -/
def run (g : Graph) (s : Search) : Except Defect (List NodeId) :=
  match h : s.stack with
  | [] => .ok s.order
  | id :: rest =>
    if hv : id ∈ s.visited then
      have := work_list g h
      run g (s.list id rest)
    else
      have := work_visit g h hv
      match (g.producers id).find? (· ∈ id :: s.path) with
      | some producer => .error (.cycle producer)
      | none => run g (s.visit g id rest)
termination_by work g s
decreasing_by
  · exact this
  · exact this

end Search

/-- The nodes that a node depends on, itself last, each after its producers. -/
def Graph.dependencyOrder (g : Graph) (sink : NodeId) : Except Defect (List NodeId) :=
  Search.run g { stack := [sink] }

end NodeGraph
