import Mathlib.Data.List.Nodup
import Mathlib.Logic.Relation
import NodeGraph.Proofs.Order.Postorder

/-!
# Dependencies and their order

A node draws on its producers. An order is settled if each of its nodes comes once, and after the
nodes that it draws on. The order that the search from a sink ends with is settled, holds exactly
the nodes that the sink depends on, and ends with the sink (`Graph.dependencyOrder_ok`). The search
finds no order exactly if one of these nodes depends on itself (`Graph.dependencyOrder_error`,
`Graph.Settled.not_transGen`).

All lemmas here are by induction along `Graph.postorder`, the search as a recursion. To depend on a
node is `ReflTransGen g.Draws`, and to depend on it by at least one wire is `TransGen g.Draws`.
-/

namespace NodeGraph

open Relation

namespace Graph

variable {g : Graph} {id : NodeId} {path ids order order' : List NodeId}

/-- Whether the search goes from a node to a producer of it. Each such step is along a wire, against
its direction. -/
def Draws (g : Graph) (consumer producer : NodeId) : Prop :=
  producer ∈ g.producers consumer

/-- A list of nodes that has each node once, and after the nodes that it draws on. -/
inductive Settled (g : Graph) : List NodeId → Prop
  | nil : Settled g []
  | snoc {order : List NodeId} {id : NodeId} (init : Settled g order) (fresh : id ∉ order)
      (ready : ∀ v, g.Draws id v → v ∈ order) : Settled g (order ++ [id])

namespace Settled

/-- A settled order has each node once. -/
theorem nodup (h : g.Settled order) : order.Nodup := by
  induction h with
  | nil => exact .nil
  | @snoc order id _ fresh _ ih =>
    rw [← List.concat_eq_append, List.nodup_concat]
    exact ⟨fresh, ih⟩

/-- A settled order has what its nodes depend on, however far away. -/
theorem mem_of_reflTransGen {u v : NodeId} (h : g.Settled order) (hu : u ∈ order)
    (huv : ReflTransGen g.Draws u v) : v ∈ order := by
  induction h generalizing u with
  | nil => cases hu
  | @snoc order id init fresh ready ih =>
    rcases List.mem_append.1 hu with hu | hu
    · exact List.mem_append_left _ (ih hu huv)
    · obtain rfl := List.mem_singleton.1 hu
      rcases huv.cases_head with rfl | ⟨w, huw, hwv⟩
      · exact List.mem_append_right _ hu
      · exact List.mem_append_left _ (ih (ready w huw) hwv)

/-- No node of a settled order depends on itself. A cycle would have a node that comes last, and
this node would draw on another one that comes later or is the node itself. -/
theorem not_transGen {v : NodeId} (h : g.Settled order) (hv : v ∈ order) :
    ¬TransGen g.Draws v v := by
  induction h with
  | nil => cases hv
  | @snoc order id init fresh ready ih =>
    rcases List.mem_append.1 hv with hv | hv
    · exact ih hv
    · obtain rfl := List.mem_singleton.1 hv
      intro hcycle
      obtain ⟨w, hvw, hwv⟩ := TransGen.head'_iff.1 hcycle
      exact fresh (init.mem_of_reflTransGen (ready w hvw) hwv)

/-- What a node of a settled order draws on stands before it. -/
theorem mem_of_draws {before after : List NodeId} {u v : NodeId}
    (h : g.Settled (before ++ u :: after)) (huv : g.Draws u v) : v ∈ before := by
  generalize hl : before ++ u :: after = order at h
  induction h generalizing after with
  | nil => simp at hl
  | @snoc order id init fresh ready ih =>
    rcases List.eq_nil_or_concat after with rfl | ⟨after, x, rfl⟩
    · obtain ⟨rfl, hu⟩ := List.append_inj' hl rfl
      cases hu
      exact ready v huv
    · rw [List.concat_eq_append, ← List.cons_append, ← List.append_assoc] at hl
      exact ih (List.append_inj' hl rfl).1

end Settled

/-- The search from nodes off the path adds to a settled order and leaves it settled. A node is
listed when its producers are, since none of these is on the path. -/
theorem postorder_settled (h : g.postorder path ids order = .ok order')
    (hp : ∀ x ∈ path, x ∉ order) (hs : g.Settled order) : g.Settled order' := by
  fun_induction postorder g path ids order generalizing order' with
  | case1 => cases h; exact hs
  | case2 path id ids order _ ih => exact ih h hp hs
  | case3 => cases h
  | case4 => cases h
  | case5 path id ids order hv hfind listed hl ihl ih =>
    obtain ⟨hpath, horder⟩ := not_or.1 hv
    have hp' : ∀ x ∈ id :: path, x ∉ order := List.forall_mem_cons.2 ⟨horder, hp⟩
    have hlisted := postorder_disjoint hl hp'
    have hready : ∀ v, g.Draws id v → v ∈ listed := by
      intro v hv
      have hoff : v ∉ id :: path := by simpa using List.find?_eq_none.1 hfind v hv
      exact (postorder_covers hl v hv).resolve_left hoff
    refine ih h (not_mem_concat (fun x hx => ?_) hpath)
      (.snoc (ihl hl hp' hs) (hlisted id (by simp)) hready)
    exact hlisted x (List.mem_cons_of_mem _ hx)

/-- The search lists only what the nodes it starts from depend on. -/
theorem postorder_reaches (h : g.postorder path ids order = .ok order') :
    ∀ x ∈ order', x ∈ order ∨ ∃ i ∈ ids, ReflTransGen g.Draws i x := by
  fun_induction postorder g path ids order generalizing order' with
  | case1 => cases h; exact fun _ hx => .inl hx
  | case2 path id ids order _ ih =>
    intro x hx
    rcases ih h x hx with hx | ⟨i, hi, hix⟩
    · exact .inl hx
    · exact .inr ⟨i, List.mem_cons_of_mem _ hi, hix⟩
  | case3 => cases h
  | case4 => cases h
  | case5 path id ids order _ _ listed hl ihl ih =>
    intro x hx
    rcases ih h x hx with hx | ⟨i, hi, hix⟩
    · rcases List.mem_append.1 hx with hx | hx
      · rcases ihl hl x hx with hx | ⟨v, hv, hvx⟩
        · exact .inl hx
        · exact .inr ⟨id, List.mem_cons_self .., .head hv hvx⟩
      · exact .inr ⟨id, List.mem_cons_self .., List.mem_singleton.1 hx ▸ .refl⟩
    · exact .inr ⟨i, List.mem_cons_of_mem _ hi, hix⟩

/-- The search stops only at a node that depends on itself. The nodes of the path have to depend on
all nodes that it starts from, which is what makes them a path. -/
theorem postorder_error {defect : Defect} (h : g.postorder path ids order = .error defect)
    (hp : ∀ x ∈ path, ∀ i ∈ ids, TransGen g.Draws x i) :
    ∃ v, defect = .cycle v ∧ (∃ i ∈ ids, ReflTransGen g.Draws i v) ∧ TransGen g.Draws v v := by
  fun_induction postorder g path ids order with
  | case1 => cases h
  | case2 path id ids order _ ih =>
    obtain ⟨v, hd, ⟨i, hi, hiv⟩, hcycle⟩ := ih h fun x hx i hi => hp x hx i (.tail _ hi)
    exact ⟨v, hd, ⟨i, .tail _ hi, hiv⟩, hcycle⟩
  | case3 path id ids order _ v hfind =>
    cases h
    have hdraws : g.Draws id v := List.mem_of_find?_eq_some hfind
    have hon : v ∈ id :: path := by simpa using List.find?_some hfind
    refine ⟨v, rfl, ⟨id, .head _, .single hdraws⟩, ?_⟩
    rcases List.mem_cons.1 hon with rfl | hon
    · exact .single hdraws
    · exact (hp v hon id (.head _)).tail hdraws
  | case4 path id ids order _ _ _ hl ihl =>
    cases h
    have hp' : ∀ x ∈ id :: path, ∀ i ∈ g.producers id, TransGen g.Draws x i :=
      List.forall_mem_cons.2
        ⟨fun i hi => .single hi, fun x hx i hi => (hp x hx id (.head _)).tail hi⟩
    obtain ⟨v, hd, ⟨i, hi, hiv⟩, hcycle⟩ := ihl hl hp'
    exact ⟨v, hd, ⟨id, .head _, .head hi hiv⟩, hcycle⟩
  | case5 path id ids order _ _ listed _ _ ih =>
    obtain ⟨v, hd, ⟨i, hi, hiv⟩, hcycle⟩ := ih h fun x hx i hi => hp x hx i (.tail _ hi)
    exact ⟨v, hd, ⟨i, .tail _ hi, hiv⟩, hcycle⟩

/-- The search from one node ends with it. -/
theorem postorder_singleton (h : g.postorder [] [id] [] = .ok order) :
    ∃ init, order = init ++ [id] := by
  rw [postorder] at h
  simp only [List.not_mem_nil, or_self, dite_false] at h
  split at h
  · cases h
  · split at h
    · cases h
    · rename_i listed _
      rw [postorder] at h
      cases h
      exact ⟨listed, rfl⟩

/-- An order holds each node that the sink depends on once and after its producers, and the sink at
its end. -/
theorem dependencyOrder_ok {sink : NodeId} (h : g.dependencyOrder sink = .ok order) :
    g.Settled order ∧ (∀ x, x ∈ order ↔ ReflTransGen g.Draws sink x) ∧
      ∃ init, order = init ++ [sink] := by
  rw [dependencyOrder_eq_postorder] at h
  have hs : g.Settled order := postorder_settled h (by simp) .nil
  obtain ⟨init, rfl⟩ := postorder_singleton h
  refine ⟨hs, fun x => ⟨fun hx => ?_, fun hx => ?_⟩, init, rfl⟩
  · rcases postorder_reaches h x hx with hx | ⟨i, hi, hix⟩
    · cases hx
    · obtain rfl := List.mem_singleton.1 hi
      exact hix
  · exact hs.mem_of_reflTransGen (by simp) hx

/-- Without an order there is a node that the sink depends on and that depends on itself, and the
defect names it. -/
theorem dependencyOrder_error {sink : NodeId} {defect : Defect}
    (h : g.dependencyOrder sink = .error defect) :
    ∃ v, defect = .cycle v ∧ ReflTransGen g.Draws sink v ∧ TransGen g.Draws v v := by
  rw [dependencyOrder_eq_postorder] at h
  obtain ⟨v, hd, ⟨i, hi, hiv⟩, hcycle⟩ := postorder_error h (by simp)
  obtain rfl := List.mem_singleton.1 hi
  exact ⟨v, hd, hiv, hcycle⟩

end Graph

end NodeGraph
