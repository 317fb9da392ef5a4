import Mathlib.Logic.Relation
import NodeGraph.Proofs.Order.Postorder

/-!
# The search as a loop and as a recursion

The search is a loop that takes turns on its stack (`Search.Turns`) until there is nothing left on
it, or until it meets a cycle (`Search.Ends`). `Graph.explore` is the depth-first search as one
would write it down without a stack: it visits a node, then the nodes that this one takes its inputs
from and that have not been visited, and then lists the node. It finds these nodes by the wires of
the graph (`Graph.suppliers`) and not as the search does.

`Graph.dependencyOrder_eq_explore` says that the loop takes finitely many turns, whatever the graph
is like, and that it ends with what the recursion gives. Between the two stands `Graph.postorder`,
with which the loop was shown to agree; `Graph.explore` carries marks, which it needs no more than
the former (`Graph.explore_eq_postorder`).
-/

namespace NodeGraph

open Relation

/-- What a search by recursion has done so far, its marks and its results. -/
structure Survey where
  /-- The nodes that have been visited, in the reverse order of the visits. -/
  visited : List NodeId := []
  /-- The nodes that have been listed, each after those that it takes its inputs from. -/
  order : List NodeId := []

namespace Survey

/-- The survey with one more node visited. -/
def mark (r : Survey) (id : NodeId) : Survey :=
  { r with visited := id :: r.visited }

/-- The survey with one more node listed, behind the others. -/
def list (r : Survey) (id : NodeId) : Survey :=
  { r with order := r.order ++ [id] }

end Survey

namespace Graph

/-- Visits nodes in turn, but not those that have been visited. A visit marks the node and puts it
on the path. If the node takes an input from a node that is on the path then, be it the node itself,
the search stops at the first of these. Otherwise it visits the nodes that the inputs come from in
turn, lists the node and takes it off the path. -/
def explore (g : Graph) (path : List NodeId) :
    (ids : List NodeId) → (∀ id ∈ ids, id ∉ path) → Survey → Except Defect Survey
  | [], _, r => .ok r
  | id :: ids, off, r =>
    if id ∈ r.visited then explore g path ids (List.forall_mem_cons.1 off).2 r
    else
      match hfind : (g.suppliers id).find? (· ∈ id :: path) with
      | some supplier => .error (.cycle supplier)
      | none =>
        match explore g (id :: path) (g.suppliers id) (by simpa using hfind) (r.mark id) with
        | .error defect => .error defect
        | .ok r => explore g path ids (List.forall_mem_cons.1 off).2 (r.list id)
termination_by ids => (g.offPath path, ids.length)
decreasing_by
  · exact Prod.Lex.right _ (by simp)
  · exact g.offPath_suppliers_lt (List.forall_mem_cons.1 off).1 ids
  · exact Prod.Lex.right _ (by simp)

/-- The nodes that a node depends on, as the recursion lists them. The path is empty at first. -/
def exploreFrom (g : Graph) (sink : NodeId) : Except Defect (List NodeId) :=
  (g.explore [] [sink] (by simp) {}).map (·.order)

/-- The recursion needs no marks, since what it has visited is on the path or listed. -/
theorem explore_eq_postorder {g : Graph} {path ids : List NodeId} {off : ∀ id ∈ ids, id ∉ path}
    {r : Survey} (hc : Search.Consistent r.visited path r.order) :
    (g.explore path ids off r).map (·.order) = g.postorder path ids r.order ∧
      ∀ r', g.explore path ids off r = .ok r' → Search.Consistent r'.visited path r'.order := by
  fun_induction explore g path ids off r with
  | case1 path off r =>
    rw [postorder]
    refine ⟨rfl, fun r' h => ?_⟩
    cases h
    exact hc
  | case2 path id ids off r hv _ ih =>
    rw [postorder, dif_pos ((hc.mem_visited id).1 hv)]
    exact ih hc
  | case3 path id ids off r hv supplier hfind =>
    rw [← producers_eq_suppliers] at hfind
    rw [postorder, dif_neg (mt (hc.mem_visited id).2 hv), hfind]
    refine ⟨rfl, fun r' h => ?_⟩
    cases h
  | case4 path id ids off r hv hfind defect hfail _ ih =>
    have hinner : _ = g.postorder (id :: path) (g.suppliers id) r.order := (ih (hc.visit hv)).1
    rw [hfail, ← producers_eq_suppliers] at hinner
    rw [← producers_eq_suppliers] at hfind
    rw [postorder_visit (mt (hc.mem_visited id).2 hv) hfind, ← hinner]
    refine ⟨rfl, fun r' h => ?_⟩
    cases h
  | case5 path id ids off r hv hfind r₁ hok _ ih₁ ih =>
    obtain ⟨hinner, hc₁⟩ := ih₁ (hc.visit hv)
    change _ = g.postorder (id :: path) (g.suppliers id) r.order at hinner
    rw [hok, ← producers_eq_suppliers] at hinner
    rw [← producers_eq_suppliers] at hfind
    rw [postorder_visit (mt (hc.mem_visited id).2 hv) hfind, ← hinner]
    exact ih ((hc₁ r₁ hok).return (List.forall_mem_cons.1 off).1)

end Graph

namespace Search

variable {g : Graph} {s s' : Search} {result : Except Defect (List NodeId)}

/-- A turn after which the search goes on. Which one it is depends on the mark of the node at the
top. -/
inductive Turns (g : Graph) (s : Search) : Search → Prop
  /-- A node that has been visited is taken off the stack and listed, unless it has been listed. -/
  | list {id : NodeId} {rest : List NodeId} (next : s.stack = id :: rest) (old : id ∈ s.visited) :
      Turns g s (s.list id rest)
  /-- Any other node is visited, and its producers that have not been visited are put on the
  stack. -/
  | visit {id : NodeId} {rest : List NodeId} (next : s.stack = id :: rest) (new : id ∉ s.visited)
      (off : ∀ v ∈ g.producers id, v ∉ id :: s.path) : Turns g s (s.visit g id rest)

/-- How the search ends, and with what. -/
inductive Ends (g : Graph) (s : Search) : Except Defect (List NodeId) → Prop
  /-- There is nothing left on the stack, and the order is complete. -/
  | empty (done : s.stack = []) : Ends g s (.ok s.order)
  /-- A producer of the next node is on the path. The first one of them is the one that is named. -/
  | cycle {id producer : NodeId} {rest before after : List NodeId} (next : s.stack = id :: rest)
      (new : id ∉ s.visited) (producers : g.producers id = before ++ producer :: after)
      (off : ∀ v ∈ before, v ∉ id :: s.path) (on : producer ∈ id :: s.path) :
      Ends g s (.error (.cycle producer))

/-- Every turn leaves less to do, so there is no endless sequence of turns. What is left to do is
`Search.work`. -/
theorem wellFounded_turns (g : Graph) : WellFounded fun s' s => Turns g s s' := by
  refine Subrelation.wf (r := InvImage (· < ·) (work g)) ?_ (InvImage.wf _ Nat.lt_wfRel.wf)
  intro s' s h
  cases h with
  | list next _ => exact work_list g next
  | visit next new _ => exact work_visit g next new

/-- A turn does not change what the search comes to. -/
theorem Turns.run_eq (h : Turns g s s') : run g s = run g s' := by
  obtain ⟨stack, visited, path, order⟩ := s
  cases h with
  | @list id rest next old =>
    cases next
    exact run_visited old
  | @visit id rest next new off =>
    cases next
    exact run_visit new (List.find?_eq_none.2 fun v hv => by simpa using off v hv)

/-- Turns do not change what the search comes to, however many they are. -/
theorem run_eq_of_turns (h : ReflTransGen (Turns g) s s') : run g s = run g s' := by
  induction h with
  | refl => rfl
  | tail _ hturn ih => rw [ih, hturn.run_eq]

/-- The search comes to what it ends with. -/
theorem Ends.run_eq (h : Ends g s result) : run g s = result := by
  obtain ⟨stack, visited, path, order⟩ := s
  cases h with
  | empty done =>
    cases done
    rw [run]
  | @cycle id producer rest before after next new producers off on =>
    cases next
    refine run_cycle new ?_
    rw [producers, List.find?_append, List.find?_eq_none.2 fun v hv => by simpa using off v hv,
      Option.none_or, List.find?_cons_of_pos (by simpa using on)]

/-- The search takes turns until it ends. By induction on what is left to do. -/
theorem exists_turns_ends (g : Graph) (s : Search) :
    ∃ s', ReflTransGen (Turns g) s s' ∧ Ends g s' (run g s) := by
  induction s using (wellFounded_turns g).induction with
  | _ s ih =>
    have hstep : ∀ s', Turns g s s' → ∃ s', ReflTransGen (Turns g) s s' ∧ Ends g s' (run g s) := by
      intro s' hturn
      obtain ⟨s'', hturns, hends⟩ := ih s' hturn
      exact ⟨s'', .head hturn hturns, hturn.run_eq ▸ hends⟩
    cases hstack : s.stack with
    | nil =>
      have hends : Ends g s (.ok s.order) := .empty hstack
      exact ⟨s, .refl, hends.run_eq ▸ hends⟩
    | cons id rest =>
      by_cases hv : id ∈ s.visited
      · exact hstep _ (.list hstack hv)
      · cases hfind : (g.producers id).find? (· ∈ id :: s.path) with
        | none => exact hstep _ (.visit hstack hv (by simpa using hfind))
        | some producer =>
          obtain ⟨hon, before, after, hproducers, hoff⟩ := List.find?_eq_some_iff_append.1 hfind
          have hends : Ends g s (.error (.cycle producer)) :=
            .cycle hstack hv hproducers (by simpa using hoff) (by simpa using hon)
          exact ⟨s, .refl, hends.run_eq ▸ hends⟩

end Search

/-- The search from a sink, in whatever graph, comes to its end: there is no endless sequence of
turns. What it ends with, after whatever turns, is what the recursion gives, which is the order in
which the nodes are listed, or the cycle that is met first. -/
theorem Graph.dependencyOrder_eq_explore (g : Graph) (sink : NodeId) :
    (WellFounded fun s' s => Search.Turns g s s') ∧
      (∀ result, (∃ s, ReflTransGen (Search.Turns g) { stack := [sink] } s ∧
        Search.Ends g s result) ↔ result = g.exploreFrom sink) ∧
      g.dependencyOrder sink = g.exploreFrom sink := by
  have hexplore : g.dependencyOrder sink = g.exploreFrom sink := by
    rw [dependencyOrder_eq_postorder]
    exact (explore_eq_postorder (r := {}) ⟨by simp, by simp⟩).1.symm
  refine ⟨Search.wellFounded_turns g, fun result => ⟨?_, ?_⟩, hexplore⟩
  · rintro ⟨s, hturns, hends⟩
    rw [← hexplore, dependencyOrder, Search.run_eq_of_turns hturns, hends.run_eq]
  · rintro rfl
    rw [← hexplore]
    exact Search.exists_turns_ends g _

/-- Four nodes of one kind, with wires between them. Node 1 takes its inputs from 2 and 3, and 2
takes one from 3 as well. The last of the wires leads from 2 back to 3. -/
def Graph.looped : Graph where
  nodes := [1, 2, 3, 4].map fun id =>
    { id := ⟨id⟩, op := .add,
      ports := [.output 2 "r" .scalar, .input 0 "a" .scalar, .input 1 "b" .scalar] }
  wires := [⟨⟨⟨3⟩, 2⟩, ⟨⟨1⟩, 1⟩⟩, ⟨⟨⟨2⟩, 2⟩, ⟨⟨1⟩, 0⟩⟩, ⟨⟨⟨3⟩, 2⟩, ⟨⟨2⟩, 1⟩⟩, ⟨⟨⟨2⟩, 2⟩, ⟨⟨3⟩, 0⟩⟩]

/-- Without the last wire, 3 is listed once, before 2 which needs it, though 1 takes from 2 first by
the order of its ports. With this wire there is a cycle, which is found at 3 while 2 waits. -/
theorem Graph.dependencyOrder_eq_explore_looped :
    let straight := { looped with wires := looped.wires.dropLast }
    straight.exploreFrom ⟨1⟩ = .ok [⟨3⟩, ⟨2⟩, ⟨1⟩] ∧
      looped.exploreFrom ⟨1⟩ = .error (.cycle ⟨2⟩) := by
  intro straight
  rw [← (straight.dependencyOrder_eq_explore ⟨1⟩).2.2,
    ← (looped.dependencyOrder_eq_explore ⟨1⟩).2.2]
  decide +kernel

end NodeGraph
