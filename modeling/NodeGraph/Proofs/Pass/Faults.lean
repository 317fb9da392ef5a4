import NodeGraph.Proofs.Pass.Steps
import NodeGraph.Proofs.Plan.Layout

/-!
# The faults of a plan

The slots of a plan's steps are all within the store that the plan asks for (`Graph.plan_fits`). A
pass of a plan, with whatever table, therefore stops only at a step whose operation the table does
not have, and at the first of these (`Plan.pass_result`).

The table with which a plan is run need not be the one with which it was made. With the latter no
pass of the plan stops, since all operations are known to it (`Graph.plan_known`).
-/

namespace NodeGraph

open SlotPool

namespace Graph

variable {g : Graph} {isKnown : OpCode → Bool} {p : Plan}

/-- The slots of a step are within a store that has a slot for each port that owns one, and for the
sink's step one for each of its results besides. -/
theorem fits_stepIn {n : Node} {ports : List PortRef} {extra : Nat}
    (hports : ∀ port, port ∈ g.sources n ∨ port ∈ n.targets → port ∈ ports)
    (hextra : n.op.isSink = true → extra = n.inputs.length) :
    (g.stepIn ports n).Fits (ports.length + extra) := by
  have hslot : ∀ port ∈ ports, (slotIn ports port).index < ports.length + extra :=
    fun port hport => Nat.lt_add_right extra (List.idxOf_lt_length_of_mem hport)
  constructor
  · rw [reads_stepIn, List.forall_mem_map]
    exact fun port hsource => hslot port (hports port (.inl hsource))
  · cases hsink : n.op.isSink with
    | false =>
      rw [writes_stepIn g _ hsink, List.forall_mem_map]
      exact fun port htarget => hslot port (hports port (.inr htarget))
    | true =>
      rw [writes_stepIn_of_isSink g _ hsink, List.forall_mem_map, hextra hsink]
      exact fun i hi => Nat.add_lt_add_left (List.mem_range.1 hi) _

/-- The slots of a plan's steps are within the store that the plan asks for. The plan is written out
in terms of the ports that own slots. -/
theorem plan_fits (h : g.plan isKnown = .ok p) : ∀ s ∈ p.steps, s.Fits p.slotCount := by
  obtain ⟨init, sink, hs, -, rfl⟩ := plan_eq_ok_iff.1 h
  intro s hmem
  obtain ⟨n, hn, rfl⟩ := List.mem_map.1 hmem
  refine fits_stepIn (fun port hport => mem_portsOf.2 ⟨n, hn, hport⟩) fun hsink => ?_
  rw [hs.eq_sink hn hsink]

/-- The operations of a plan's steps are known to those who made the plan. -/
theorem plan_known (h : g.plan isKnown = .ok p) : ∀ s ∈ p.steps, isKnown s.op := by
  obtain ⟨init, sink, -, hbuild, rfl⟩ := plan_eq_ok_iff.1 h
  intro s hmem
  obtain ⟨n, hn, rfl⟩ := List.mem_map.1 hmem
  exact (hbuild n hn).known

end Graph

namespace Plan

variable {t : OpTable} {p : Plan}

/-- A pass of a plan whose slots fit stops at the first step with an unknown operation. Nothing else
can stop it. -/
theorem pass_result (h : ∀ s ∈ p.steps, s.Fits p.slotCount) (f : Frame) :
    (p.pass t f).result =
      (p.steps.find? fun s => !t.contains s.op).map fun s => .unknownOperation s.op := by
  exact Step.executeAll_result (by rwa [p.size_prepare])

/-- A pass of a plan whose slots fit comes to its end if and only if all operations are known. -/
theorem pass_result_eq_none_iff (h : ∀ s ∈ p.steps, s.Fits p.slotCount) (f : Frame) :
    (p.pass t f).result = none ↔ ∀ s ∈ p.steps, t.contains s.op := by
  simp [pass_result h]

/-- A pass of a plan whose slots fit stops where the first unknown operation is. -/
theorem pass_result_of_not_contains {before after : List Step} {s : Step}
    (h : ∀ s ∈ p.steps, s.Fits p.slotCount) (f : Frame) (hsteps : p.steps = before ++ s :: after)
    (hbefore : ∀ s' ∈ before, t.contains s'.op) (hs : ¬t.contains s.op) :
    (p.pass t f).result = some (.unknownOperation s.op) := by
  have hnone : (before.find? fun s => !t.contains s.op) = none :=
    List.find?_eq_none.2 fun s' hs' => by simp [hbefore s' hs']
  rw [pass_result h, hsteps, List.find?_append, hnone, Option.none_or,
    List.find?_cons_of_pos (by simp [hs]), Option.map_some]

/-- A pass of a plan whose slots fit never asks for another slot, with whatever table and from
whatever frame. -/
theorem pass_result_ne_slotOutOfBounds (h : ∀ s ∈ p.steps, s.Fits p.slotCount) (f : Frame)
    (slot : Slot) (size : Nat) : (p.pass t f).result ≠ some (.slotOutOfBounds slot size) := by
  rw [pass_result h]
  intro hslot
  obtain ⟨s, -, hs⟩ := Option.map_eq_some_iff.1 hslot
  cases hs

end Plan

end NodeGraph
