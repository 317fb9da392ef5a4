import Mathlib.Data.List.Basic
import NodeGraph.Plan.Order

/-!
# The order of a plan as a recursion

`Search.run` keeps a stack of its own. `Graph.postorder` is the same search by recursion: it goes
through a list of nodes and lists each one after its producers. A node is visited once it is on the
path or listed, so the recursion carries no marks.

`Search.run_eq_postorder` says that the two agree, defects included. What is then known of an order
follows the cases of the recursion. The invariant under which they agree is `Search.Consistent`: a
node has a mark if it is on the path or listed, and not both.

The recursion ends since the path gets longer when it goes to the producers of a node, and the path
has only nodes of the graph on it, each once.
-/

namespace NodeGraph

namespace Graph

/-- The number of nodes that are not on a path. It is what makes the recursion end. -/
def offPath (g : Graph) (path : List NodeId) : Nat :=
  (g.nodes.filter (·.id ∉ path)).length

/-- A longer path leaves no more nodes off it. -/
theorem offPath_cons_le (g : Graph) (path : List NodeId) (id : NodeId) :
    g.offPath (id :: path) ≤ g.offPath path := by
  rw [offPath, Search.filter_notMem_cons]
  exact List.length_filter_le ..

/-- A node of the graph that joins the path was off it before. -/
theorem offPath_cons_lt (g : Graph) {path : List NodeId} {id : NodeId} (hp : id ∉ path)
    (hn : (g.node? id).isSome) : g.offPath (id :: path) < g.offPath path := by
  obtain ⟨n, hn⟩ := Option.isSome_iff_exists.1 hn
  have hid : n.id = id := by simpa using List.find?_some hn
  rw [offPath, Search.filter_notMem_cons]
  exact List.length_filter_lt_length_iff_exists.2
    ⟨n, List.mem_filter.2 ⟨List.mem_of_find?_eq_some hn, by simpa [hid] using hp⟩, by simp [hid]⟩

/-- A node that is not in the graph has no producers, although wires may lead to its number. -/
theorem producers_of_node?_none {g : Graph} {id : NodeId} (h : g.node? id = none) :
    g.producers id = [] := by
  simp [producers, h]

/-- The step from a node to its producers ends. A node without producers leaves nothing to go
through, and any other one is a node of the graph that joins the path. -/
theorem offPath_producers_lt (g : Graph) {path : List NodeId} {id : NodeId} (hp : id ∉ path)
    (ids : List NodeId) :
    Prod.Lex (· < ·) (· < ·) (g.offPath (id :: path), (g.producers id).length)
      (g.offPath path, (id :: ids).length) := by
  cases hn : g.node? id with
  | none =>
    rw [producers_of_node?_none hn]
    exact Prod.Lex.right' _ (g.offPath_cons_le path id) (by simp)
  | some n => exact Prod.Lex.left _ _ (g.offPath_cons_lt hp (by simp [hn]))

/-- The nodes that a node takes its inputs from, said of the graph as it is written down. For each
port of the node that takes a value, in the order in which the ports are declared, it is the node at
the other end of the wire that arrives at the port, or nothing if none arrives. -/
def suppliers (g : Graph) (id : NodeId) : List NodeId :=
  ((g.nodes.filter (·.id = id)).take 1).flatMap fun n =>
    (n.ports.filter (·.direction = .input)).flatMap fun port =>
      ((g.wires.filter (·.target = ⟨id, port.id⟩)).take 1).map (·.source.node)

/-- The search goes to the nodes that a node takes its inputs from, in the order of its ports. -/
theorem producers_eq_suppliers (g : Graph) (id : NodeId) : g.producers id = g.suppliers id := by
  have hsource (target : PortRef) : ((g.source? target).map (·.node)).toList =
      ((g.wires.filter (·.target = target)).take 1).map (·.source.node) := by
    rw [source?, List.take_one, List.head?_filter]
    cases g.wires.find? (·.target = target) <;> rfl
  unfold producers suppliers
  rw [List.take_one, List.head?_filter]
  show _ = ((g.node? id).toList).flatMap _
  cases hn : g.node? id with
  | none => rfl
  | some n =>
    have hid : n.id = id := by simpa using List.find?_some hn
    subst hid
    rw [Option.toList_some, List.flatMap_singleton]
    dsimp only
    rw [List.filterMap_eq_flatMap_toList]
    exact List.flatMap_congr fun port _ => hsource (n.ref port)

/-- The step from a node to those that it takes its inputs from ends as well. -/
theorem offPath_suppliers_lt (g : Graph) {path : List NodeId} {id : NodeId} (hp : id ∉ path)
    (ids : List NodeId) :
    Prod.Lex (· < ·) (· < ·) (g.offPath (id :: path), (g.suppliers id).length)
      (g.offPath path, (id :: ids).length) := by
  rw [← producers_eq_suppliers]
  exact g.offPath_producers_lt hp ids

/-- Lists the given nodes in turn behind the order so far, each after its producers. The path holds
the nodes that wait for the present ones to be listed. -/
def postorder (g : Graph) (path : List NodeId) :
    List NodeId → List NodeId → Except Defect (List NodeId)
  | [], order => .ok order
  | id :: ids, order =>
    if _ : id ∈ path ∨ id ∈ order then postorder g path ids order
    else
      match (g.producers id).find? (· ∈ id :: path) with
      | some producer => .error (.cycle producer)
      | none =>
        match postorder g (id :: path) (g.producers id) order with
        | .error defect => .error defect
        | .ok listed => postorder g path ids (listed ++ [id])
termination_by ids => (g.offPath path, ids.length)
decreasing_by
  · exact Prod.Lex.right _ (by simp)
  · exact g.offPath_producers_lt (not_or.1 ‹_›).1 ids
  · exact Prod.Lex.right _ (by simp)

/-- At a new node without a wire from the path, the search goes to the producers and then on. -/
theorem postorder_visit {g : Graph} {path ids order : List NodeId} {id : NodeId}
    (hnew : ¬(id ∈ path ∨ id ∈ order)) (hfind : (g.producers id).find? (· ∈ id :: path) = none) :
    g.postorder path (id :: ids) order =
      (g.postorder (id :: path) (g.producers id) order).bind fun listed =>
        g.postorder path ids (listed ++ [id]) := by
  rw [postorder, dif_neg hnew, hfind]
  cases g.postorder (id :: path) (g.producers id) order <;> rfl

/-- A node that is not on the path may be listed without a node of the path being listed. -/
theorem not_mem_concat {path order : List NodeId} {id : NodeId} (h : ∀ x ∈ path, x ∉ order)
    (hid : id ∉ path) : ∀ x ∈ path, x ∉ order ++ [id] := by
  intro x hx hmem
  rcases List.mem_append.1 hmem with hmem | hmem
  · exact h x hx hmem
  · exact hid (List.mem_singleton.1 hmem ▸ hx)

/-- The search only adds to the order. What has been listed stays so. -/
theorem postorder_extends {g : Graph} {path ids order order' : List NodeId}
    (h : g.postorder path ids order = .ok order') : ∀ x ∈ order, x ∈ order' := by
  fun_induction postorder g path ids order generalizing order' with
  | case1 path order => cases h; exact fun _ hx => hx
  | case2 path id ids order _ ih => exact ih h
  | case3 => cases h
  | case4 => cases h
  | case5 path id ids order _ _ listed hl ihl ih =>
    intro x hx
    exact ih h x (List.mem_append_left _ (ihl hl x hx))

/-- What is on the path is not listed meanwhile. It is listed only after what it waits for. -/
theorem postorder_disjoint {g : Graph} {path ids order order' : List NodeId}
    (h : g.postorder path ids order = .ok order') (hp : ∀ x ∈ path, x ∉ order) :
    ∀ x ∈ path, x ∉ order' := by
  fun_induction postorder g path ids order generalizing order' with
  | case1 path order => cases h; exact hp
  | case2 path id ids order _ ih => exact ih h hp
  | case3 => cases h
  | case4 => cases h
  | case5 path id ids order hv _ listed hl ihl ih =>
    obtain ⟨hpath, horder⟩ := not_or.1 hv
    have hlisted : ∀ x ∈ id :: path, x ∉ listed :=
      ihl hl (List.forall_mem_cons.2 ⟨horder, hp⟩)
    exact ih h (not_mem_concat (fun x hx => hlisted x (List.mem_cons_of_mem _ hx)) hpath)

/-- Every node asked for is listed in the end, unless it is on the path. -/
theorem postorder_covers {g : Graph} {path ids order order' : List NodeId}
    (h : g.postorder path ids order = .ok order') : ∀ id ∈ ids, id ∈ path ∨ id ∈ order' := by
  fun_induction postorder g path ids order generalizing order' with
  | case1 => exact fun _ hx => nomatch hx
  | case2 path id ids order hv ih =>
    exact List.forall_mem_cons.2 ⟨hv.imp_right (postorder_extends h id), ih h⟩
  | case3 => cases h
  | case4 => cases h
  | case5 path id ids order _ _ listed _ _ ih =>
    exact List.forall_mem_cons.2 ⟨.inr (postorder_extends h id (by simp)), ih h⟩

end Graph

namespace Search

variable {g : Graph} {id : NodeId} {rest visited path order : List NodeId}

/-- The marks of a search tell the nodes that are on the path or listed, and no node is both. -/
structure Consistent (visited path order : List NodeId) : Prop where
  mem_visited : ∀ x, x ∈ visited ↔ x ∈ path ∨ x ∈ order
  not_listed : ∀ x ∈ path, x ∉ order

/-- A turn at a visited node lists it, and takes it off the path if it is there. -/
theorem run_visited (h : id ∈ visited) :
    run g ⟨id :: rest, visited, path, order⟩ =
      run g ⟨rest, visited, path.erase id, if id ∈ order then order else order ++ [id]⟩ := by
  rw [run]
  simp [h, list]

/-- A turn at a listed node does nothing else than take it off the stack. It has been put there by
several wires. -/
theorem run_listed (hc : Consistent visited path order) (h : id ∈ order) :
    run g ⟨id :: rest, visited, path, order⟩ = run g ⟨rest, visited, path, order⟩ := by
  have hp : id ∉ path := fun hp => hc.not_listed id hp h
  rw [run_visited ((hc.mem_visited id).2 (.inr h)), if_pos h, List.erase_of_not_mem hp]

/-- A turn at the last node of the path lists it. -/
theorem run_return (hc : Consistent visited (id :: path) order) :
    run g ⟨id :: rest, visited, id :: path, order⟩ =
      run g ⟨rest, visited, path, order ++ [id]⟩ := by
  have hv : id ∈ visited := (hc.mem_visited id).2 (.inl (List.mem_cons_self ..))
  have ho : id ∉ order := hc.not_listed id (List.mem_cons_self ..)
  rw [run_visited hv, if_neg ho, List.erase_cons_head]

/-- A turn at a node with a producer on the path finds a cycle, and names the producer. -/
theorem run_cycle {producer : NodeId} (h : id ∉ visited)
    (hp : (g.producers id).find? (· ∈ id :: path) = some producer) :
    run g ⟨id :: rest, visited, path, order⟩ = .error (.cycle producer) := by
  rw [run]
  simp only [h, dite_false, hp]

/-- A turn at any other node puts its producers on the stack, but not those that are visited. -/
theorem run_visit (h : id ∉ visited) (hp : (g.producers id).find? (· ∈ id :: path) = none) :
    run g ⟨id :: rest, visited, path, order⟩ =
      run g ⟨(g.producers id).filter (· ∉ id :: visited) ++ id :: rest, id :: visited, id :: path,
        order⟩ := by
  rw [run]
  simp only [h, dite_false, hp, visit]

/-- A node off the path and not listed has no mark. -/
theorem Consistent.not_mem_visited (hc : Consistent visited path order)
    (h : ¬(id ∈ path ∨ id ∈ order)) : id ∉ visited :=
  fun hmem => h ((hc.mem_visited id).1 hmem)

/-- A visited node joins both the marks and the path. -/
theorem Consistent.visit (hc : Consistent visited path order) (h : id ∉ visited) :
    Consistent (id :: visited) (id :: path) order where
  mem_visited x := by
    rw [List.mem_cons, List.mem_cons, hc.mem_visited, or_assoc]
  not_listed := List.forall_mem_cons.2
    ⟨fun ho => h ((hc.mem_visited id).2 (.inr ho)), hc.not_listed⟩

/-- The last node of the path leaves it to be listed. Its mark stays. -/
theorem Consistent.return (hc : Consistent visited (id :: path) order) (hp : id ∉ path) :
    Consistent visited path (order ++ [id]) where
  mem_visited x := by
    rw [hc.mem_visited, List.mem_cons, List.mem_append, List.mem_singleton, or_comm (a := x = id),
      or_assoc, or_comm (a := x = id)]
  not_listed :=
    Graph.not_mem_concat (fun x hx => hc.not_listed x (List.mem_cons_of_mem _ hx)) hp

/-- Marks last while the path and the order grow. -/
theorem Consistent.mono {visited' order' : List NodeId} (hc : Consistent visited path order)
    (hc' : Consistent visited' (id :: path) order') (h : ∀ x ∈ order, x ∈ order') :
    ∀ x ∈ visited, x ∈ visited' := by
  intro x hx
  rw [hc'.mem_visited, List.mem_cons]
  rcases (hc.mem_visited x).1 hx with hp | ho
  · exact .inl (.inr hp)
  · exact .inr (h x ho)

/-- The search handles nodes at the top of its stack as the recursion does, and then goes on with
the rest. Nodes that were visited before, those in `seen`, may be left out of the stack. -/
theorem run_eq_postorder (ids seen rest : List NodeId)
    (hc : Consistent visited path order) (hids : ∀ x ∈ ids, x ∉ path)
    (hseen : ∀ x ∈ seen, x ∈ visited) :
    ∃ visited', (∀ order', g.postorder path ids order = .ok order' →
        Consistent visited' path order') ∧
      run g ⟨ids.filter (· ∉ seen) ++ rest, visited, path, order⟩ =
        (g.postorder path ids order).bind fun order' => run g ⟨rest, visited', path, order'⟩ := by
  fun_induction Graph.postorder g path ids order generalizing visited seen rest with
  | case1 path order =>
    exact ⟨visited, fun order' h => by cases h; exact hc, rfl⟩
  | case2 path id ids order hv ih =>
    obtain ⟨hid, hids⟩ := List.forall_mem_cons.1 hids
    obtain ⟨visited', hc', hrun⟩ := ih seen rest hc hids hseen
    refine ⟨visited', hc', ?_⟩
    by_cases hs : id ∈ seen
    · rw [List.filter_cons_of_neg (by simpa using hs), hrun]
    · rw [List.filter_cons_of_pos (by simpa using hs), List.cons_append,
        run_listed hc (hv.resolve_left hid), hrun]
  | case3 path id ids order hv producer hfind =>
    have hnew := hc.not_mem_visited hv
    have hs : id ∉ seen := fun hmem => hnew (hseen id hmem)
    refine ⟨visited, nofun, ?_⟩
    rw [List.filter_cons_of_pos (by simpa using hs), List.cons_append, run_cycle hnew hfind]
    rfl
  | case4 path id ids order hv hfind defect hl ihl =>
    have hnew := hc.not_mem_visited hv
    have hs : id ∉ seen := fun hmem => hnew (hseen id hmem)
    have hproducers : ∀ x ∈ g.producers id, x ∉ id :: path := by
      simpa [List.find?_eq_none] using hfind
    obtain ⟨_, -, hrun⟩ := ihl (id :: visited) (id :: (ids.filter (· ∉ seen) ++ rest))
      (hc.visit hnew) hproducers (fun _ hx => hx)
    refine ⟨visited, nofun, ?_⟩
    rw [List.filter_cons_of_pos (by simpa using hs), List.cons_append, run_visit hnew hfind, hrun,
      hl]
    rfl
  | case5 path id ids order hv hfind listed hl ihl ih =>
    obtain ⟨hid, hids⟩ := List.forall_mem_cons.1 hids
    have hnew := hc.not_mem_visited hv
    have hs : id ∉ seen := fun hmem => hnew (hseen id hmem)
    have hproducers : ∀ x ∈ g.producers id, x ∉ id :: path := by
      simpa [List.find?_eq_none] using hfind
    -- The producers are handled on top of the node itself, which is met again after them.
    obtain ⟨visited₁, hc₁, hrun₁⟩ := ihl (id :: visited) (id :: (ids.filter (· ∉ seen) ++ rest))
      (hc.visit hnew) hproducers (fun _ hx => hx)
    have hc₁ := hc₁ listed hl
    have hseen₁ : ∀ x ∈ seen, x ∈ visited₁ := fun x hx =>
      hc.mono hc₁ (Graph.postorder_extends hl) x (hseen x hx)
    obtain ⟨visited₂, hc₂, hrun₂⟩ := ih seen rest (hc₁.return hid) hids hseen₁
    refine ⟨visited₂, hc₂, ?_⟩
    rw [List.filter_cons_of_pos (by simpa using hs), List.cons_append, run_visit hnew hfind, hrun₁,
      hl, Except.bind, run_return hc₁, hrun₂]

end Search

/-- The order of a plan's steps is the recursive one, and so is the defect if there is a cycle. -/
theorem Graph.dependencyOrder_eq_postorder (g : Graph) (sink : NodeId) :
    g.dependencyOrder sink = g.postorder [] [sink] [] := by
  have hc : Search.Consistent [] [] [] := ⟨by simp, by simp⟩
  obtain ⟨visited, -, hrun⟩ :=
    Search.run_eq_postorder (g := g) [sink] [] [] hc (by simp) (by simp)
  have hend : ∀ order, Search.run g ⟨[], visited, [], order⟩ = .ok order := fun order => by
    rw [Search.run]
  simp only [hend] at hrun
  calc g.dependencyOrder sink
      = (g.postorder [] [sink] []).bind .ok := hrun
    _ = g.postorder [] [sink] [] := by cases g.postorder [] [sink] [] <;> rfl

end NodeGraph
