import Mathlib.Data.List.Count
import Mathlib.Data.List.Nodup
import NodeGraph.Plan.OfGraph
import NodeGraph.Proofs.Order.Dependency

/-!
# What the checks of a graph say

Planning a graph begins with checks, each of which stops at the first defect. This module says what
a check comes to when it finds none: node numbers are distinct, every wire is sound (`Graph.Sound`),
no two wires have the same target, and there is one sink. What they find otherwise is said in the
module on verdicts.

In a graph that passes them, the search follows the wires: a node draws on another one exactly if a
wire from there arrives at one of its input ports (`Graph.Checked.draws_eq_needs`). Before that, the
search looks up nodes and wires by number, and would find the first of several.
-/

namespace NodeGraph

/-- A computation that may fail and then another one succeed exactly if both do. -/
theorem bind_eq_ok_iff {ε α β : Type} {x : Except ε α} {f : α → Except ε β} {b : β} :
    (x >>= f) = .ok b ↔ ∃ a, x = .ok a ∧ f a = .ok b := by
  cases x with
  | error e => exact ⟨nofun, fun ⟨_, h, _⟩ => nomatch h⟩
  | ok a => exact ⟨fun h => ⟨a, rfl, h⟩, fun ⟨_, h, hf⟩ => by cases h; exact hf⟩

/-- A computation that may fail and then another one end with a defect if one of them does. -/
theorem bind_eq_error_iff {ε α β : Type} {x : Except ε α} {f : α → Except ε β} {e : ε} :
    (x >>= f) = .error e ↔ x = .error e ∨ ∃ a, x = .ok a ∧ f a = .error e := by
  cases x with
  | error e' => exact ⟨fun h => .inl (by cases h; rfl), by rintro (h | ⟨_, h, _⟩) <;> cases h; rfl⟩
  | ok a => exact ⟨fun h => .inr ⟨a, rfl, h⟩, by rintro (h | ⟨_, h, hf⟩) <;> cases h; exact hf⟩

/-- A check of all members of a list succeeds exactly if the check of each does. -/
theorem forM_eq_ok_iff {ε α : Type} {f : α → Except ε Unit} {l : List α} :
    l.forM f = .ok () ↔ ∀ a ∈ l, f a = .ok () := by
  induction l with
  | nil => exact ⟨fun _ => nofun, fun _ => rfl⟩
  | cons a l ih =>
    rw [List.forM, bind_eq_ok_iff, List.forall_mem_cons, ← ih]
    exact ⟨fun ⟨_, ha, hl⟩ => ⟨ha, hl⟩, fun ⟨ha, hl⟩ => ⟨(), ha, hl⟩⟩

namespace Graph

variable {g : Graph}

/-- A wire is sound if it leads from an output port to an input port of nodes in the graph. A port
number that a node has twice means the first of the two. -/
structure Sound (g : Graph) (w : Wire) : Prop where
  source : ∃ n p, g.node? w.source.node = some n ∧ n.port? w.source.port = some p ∧ p.isOutput
  target : ∃ n p, g.node? w.target.node = some n ∧ n.port? w.target.port = some p ∧ p.isInput

/-- What holds in a graph before its sink is looked for: nodes have distinct numbers, wires are
sound, and targets are distinct. -/
structure Checked (g : Graph) : Prop where
  ids : (g.nodes.map (·.id)).Nodup
  wires : ∀ w ∈ g.wires, g.Sound w
  targets : (g.wires.map (·.target)).Nodup

/-- A consumer needs a producer if a wire leads from there to one of its input ports. This is said
of the wires as they are listed, without looking anything up. -/
def Needs (g : Graph) (consumer producer : NodeId) : Prop :=
  ∃ n ∈ g.nodes, n.id = consumer ∧
    ∃ p ∈ n.inputs, ∃ w ∈ g.wires, w.target = n.ref p ∧ w.source.node = producer

/-- The check of node numbers finds no defect exactly if they are distinct and new. -/
theorem checkIds_eq_ok_iff {seen : List NodeId} {nodes : List Node} :
    checkIds seen nodes = .ok () ↔ (nodes.map (·.id)).Nodup ∧ ∀ n ∈ nodes, n.id ∉ seen := by
  induction nodes generalizing seen with
  | nil => simp [checkIds]
  | cons n nodes ih =>
    rw [checkIds]
    split
    · rename_i hn
      exact ⟨nofun, fun ⟨_, h⟩ => absurd hn (h n (List.mem_cons_self ..))⟩
    · rename_i hn
      simp only [ih, List.map_cons, List.nodup_cons, List.mem_map, List.mem_cons,
        forall_eq_or_imp]
      grind

/-- The check of a wire finds no defect exactly if the wire is sound. -/
theorem checkWire_eq_ok_iff {w : Wire} : g.checkWire w = .ok () ↔ g.Sound w := by
  constructor
  · intro h
    cases hn : g.node? w.source.node with
    | none => simp [checkWire, hn] at h
    | some n =>
    cases hm : g.node? w.target.node with
    | none => simp [checkWire, hn, hm] at h
    | some m =>
    cases hp : n.port? w.source.port with
    | none => simp [checkWire, hn, hm, hp] at h
    | some p =>
    cases hq : m.port? w.target.port with
    | none => simp [checkWire, hn, hm, hp, hq] at h
    | some q =>
    simp only [checkWire, hn, hm, hp, hq] at h
    split at h
    · cases h
    split at h
    · cases h
    exact ⟨⟨n, p, hn, hp, by simp_all⟩, m, q, hm, hq, by simp_all⟩
  · rintro ⟨⟨n, p, hn, hp, hout⟩, m, q, hm, hq, hin⟩
    simp [checkWire, hn, hm, hp, hq, hout, hin]

/-- The number of wires that arrive at a port is how often it is a target. -/
theorem fanIn_eq_count (target : PortRef) :
    g.fanIn target = (g.wires.map (·.target)).count target := by
  rw [fanIn, List.count, List.countP_map, List.countP_eq_length_filter]
  congr 2

/-- The check of a wire's target finds no defect exactly if no other wire has this target. -/
theorem checkFanIn_eq_ok_iff {w : Wire} :
    g.checkFanIn w = .ok () ↔ (g.wires.map (·.target)).count w.target ≤ 1 := by
  rw [← fanIn_eq_count]
  unfold checkFanIn
  split
  · exact ⟨nofun, by omega⟩
  · exact ⟨fun _ => by omega, fun _ => rfl⟩

/-- The checks of all wires' targets find no defect exactly if the targets are distinct. -/
theorem forM_checkFanIn_eq_ok_iff :
    g.wires.forM g.checkFanIn = .ok () ↔ (g.wires.map (·.target)).Nodup := by
  rw [forM_eq_ok_iff, List.nodup_iff_count_le_one]
  refine ⟨fun h r => ?_, fun h w _ => checkFanIn_eq_ok_iff.2 (h w.target)⟩
  by_cases hr : r ∈ g.wires.map (·.target)
  · obtain ⟨w, hw, rfl⟩ := List.mem_map.1 hr
    exact checkFanIn_eq_ok_iff.1 (h w hw)
  · rw [List.count_eq_zero_of_not_mem hr]
    exact Nat.zero_le 1

/-- In a list without two entries of one key, the first entry of a key is the one that has it. All
look-ups by number are of this kind. -/
theorem find?_eq_some_iff_of_nodup {α κ : Type} [DecidableEq κ] {key : α → κ} {l : List α} {a : α}
    {k : κ} (h : (l.map key).Nodup) : l.find? (key · = k) = some a ↔ a ∈ l ∧ key a = k := by
  refine ⟨fun hf => ⟨List.mem_of_find?_eq_some hf, by simpa using List.find?_some hf⟩, ?_⟩
  rintro ⟨ha, rfl⟩
  induction l with
  | nil => cases ha
  | cons b l ih =>
    obtain ⟨hb, hl⟩ := List.nodup_cons.1 h
    rcases List.mem_cons.1 ha with rfl | ha
    · simp
    · have hne : key b ≠ key a := fun he => hb (he ▸ List.mem_map_of_mem ha)
      rw [List.find?_cons_of_neg (by simpa using hne)]
      exact ih hl ha

namespace Checked

/-- A number belongs to the node that has it. -/
theorem node?_eq_some_iff (hg : g.Checked) {id : NodeId} {n : Node} :
    g.node? id = some n ↔ n ∈ g.nodes ∧ n.id = id :=
  find?_eq_some_iff_of_nodup hg.ids

/-- A port is the source of an input port exactly if a wire leads from the one to the other. -/
theorem source?_eq_some_iff (hg : g.Checked) {target source : PortRef} :
    g.source? target = some source ↔ ∃ w ∈ g.wires, w.target = target ∧ w.source = source := by
  simp only [source?, Option.map_eq_some_iff, find?_eq_some_iff_of_nodup hg.targets, and_assoc]

/-- The search follows exactly the wires. -/
theorem draws_eq_needs (hg : g.Checked) : g.Draws = g.Needs := by
  funext u v
  apply propext
  unfold Draws Needs producers
  constructor
  · intro h
    split at h
    · cases h
    · rename_i n hn
      obtain ⟨hmem, rfl⟩ := hg.node?_eq_some_iff.1 hn
      obtain ⟨p, hp, hsource⟩ := List.mem_filterMap.1 h
      obtain ⟨s, hs, rfl⟩ := Option.map_eq_some_iff.1 hsource
      obtain ⟨w, hw, htarget, rfl⟩ := hg.source?_eq_some_iff.1 hs
      exact ⟨n, hmem, rfl, p, hp, w, hw, htarget, rfl⟩
  · rintro ⟨n, hmem, rfl, p, hp, w, hw, htarget, rfl⟩
    rw [hg.node?_eq_some_iff.2 ⟨hmem, rfl⟩]
    refine List.mem_filterMap.2 ⟨p, hp, ?_⟩
    rw [hg.source?_eq_some_iff.2 ⟨w, hw, htarget, rfl⟩]
    rfl

/-- What a node of the graph depends on is in the graph, since wires are sound. -/
theorem exists_node (hg : g.Checked) {u v : NodeId} (hu : ∃ n ∈ g.nodes, n.id = u)
    (huv : Relation.ReflTransGen g.Draws u v) : ∃ n ∈ g.nodes, n.id = v := by
  induction huv with
  | refl => exact hu
  | @tail x y _ hdraws _ =>
    rw [hg.draws_eq_needs] at hdraws
    obtain ⟨_, _, _, _, _, w, hw, _, rfl⟩ := hdraws
    obtain ⟨n, _, hn, _⟩ := (hg.wires w hw).source
    exact ⟨n, hg.node?_eq_some_iff.1 hn⟩

end Checked

/-- The first three checks find no defect exactly if the graph is checked. -/
theorem checks_eq_ok_iff :
    checkIds [] g.nodes = .ok () ∧ g.wires.forM g.checkWire = .ok () ∧
      g.wires.forM g.checkFanIn = .ok () ↔ g.Checked := by
  rw [checkIds_eq_ok_iff, forM_eq_ok_iff, forM_checkFanIn_eq_ok_iff]
  simp only [checkWire_eq_ok_iff]
  exact ⟨fun ⟨⟨hids, _⟩, hwires, htargets⟩ => ⟨hids, hwires, htargets⟩,
    fun h => ⟨⟨h.ids, fun _ _ => List.not_mem_nil⟩, h.wires, h.targets⟩⟩

/-- The sink is found exactly if it is the only node that invokes the sink's operation. -/
theorem sink_eq_ok_iff {n : Node} : g.sink = .ok n ↔ g.nodes.filter (·.op.isSink) = [n] := by
  unfold sink
  split
  · simp [*]
  · simp [*]
  · simp [*]

end Graph

end NodeGraph
