import Mathlib.Algebra.BigOperators.Group.List.Basic
import Mathlib.Algebra.GroupWithZero.Nat
import Mathlib.Data.List.DropRight
import NodeGraph.Proofs.Pass.Faults
import NodeGraph.Proofs.Pass.Procedures
import NodeGraph.Proofs.Session.History

/-!
# What the counts of fallbacks account for

The fallbacks of a pass that is attempted are the lossy coercions of its operations, of the values
that they give, and of what is read of the sink if the pass comes to its end (`Session.fallbacks`).
They are what the pass adds to the counts (`Session.tally_runOnce`), so along a history the counts
are the fallbacks of the latest pass and of all passes since a plan was installed
(`Context.Becomes.tally`). `Host.accounts_for_fallbacks` says so of the runs of a host.

The counts are numbers without a bound, and a counter of 64 bits agrees with them as long as there
have been fewer coercions than such a counter can count (`Host.New.tally_lt_size`).
-/

namespace NodeGraph

open Coercion

namespace Session

variable {procedures : Procedures}

/-- The coercions of what is read of the sink, if the pass that the session runs comes to its
end. -/
def readings (s : Session) : List Coercion :=
  match s.plan with
  | none => []
  | some p => if (runOnce s).result then Readout.coercions p (runOnce s).state.store else []

/-- The number of lossy coercions in the pass that a session runs. -/
def fallbacks (procedures : Procedures) (s : Session) : Nat :=
  Invocation.fallbacks procedures s.invocations + losses s.readings

/-- The coercions in the pass that a session runs, lossy or not. The operations' own come first,
then those of what they give, and then the readings. -/
def coercions (procedures : Procedures) (s : Session) : List Coercion :=
  s.invocations.flatMap (Invocation.coercions procedures) ++
    s.invocations.flatMap Invocation.writes ++ s.readings

/-- The fallbacks in a pass are the lossy ones among its coercions. -/
theorem fallbacks_eq_losses (procedures : Procedures) (s : Session) :
    s.fallbacks procedures = losses (s.coercions procedures) := by
  rw [coercions, losses_append, losses_append]
  rfl

/-- A pass that is attempted counts its fallbacks, from zero in the count of the latest pass. -/
theorem tally_runOnce {s : Session} (ht : s.table.Follows procedures) (hready : ¬s.Idle) :
    (runOnce s).state.context.tally =
      ⟨s.context.tally.total + s.fallbacks procedures, s.fallbacks procedures⟩ := by
  obtain ⟨p, hplan, hresult, hstore, hcontext⟩ := runOnce_of_ready hready
  have hsteps := Invocation.tally_executeAll ht p.steps (p.prepare s.frame)
  have hreadings : s.readings =
      if (runOnce s).result then Readout.coercions p (runOnce s).state.store else [] := by
    rw [readings, hplan]
  have htally : (runOnce s).state.context.tally =
      (p.prepare s.frame).context.tally.add (s.fallbacks procedures) := by
    rw [fallbacks, ← Tally.add_add, invocations_of_plan hplan, ← hsteps, hreadings, hresult, hstore,
      hcontext]
    split
    · rw [Readout.state_read]
      rfl
    · rfl
  rw [htally]
  show Tally.mk (s.context.tally.total + _) (0 + _) = _
  rw [Nat.zero_add]

end Session

namespace Occurrence

/-- The sessions of the passes that have been attempted since a plan was installed. -/
def recent (history : List Occurrence) : List Session :=
  (history.rtakeWhile (·.attempted?.isSome)).filterMap attempted?

/-- Right after a plan is installed, no pass is recent. -/
theorem recent_installed (history : List Occurrence) (p : Plan) :
    recent (history ++ [.installed p]) = [] := by
  rw [recent, List.rtakeWhile_concat_neg _ _ _ Bool.false_ne_true]
  rfl

/-- A pass that is attempted is recent, as are those before it. -/
theorem recent_attempted (history : List Occurrence) (s : Session) :
    recent (history ++ [.attempted s]) = recent history ++ [s] := by
  rw [recent, List.rtakeWhile_concat_pos _ _ _ rfl, List.filterMap_append]
  rfl

end Occurrence

/-- Along a history, the total is the sum of the fallbacks of recent passes, and the other count
those of the last one. By induction on the history. -/
theorem Context.Becomes.tally {t : OpTable} {procedures : Procedures} {c c' : Context}
    {history : List Occurrence} (h : c.Becomes t history c') (ht : t.Follows procedures)
    (hempty : c.tally = {}) :
    let counts := (Occurrence.recent history).map (Session.fallbacks procedures)
    c'.tally = ⟨counts.sum, counts.getLast?.getD 0⟩ := by
  induction h with
  | nothing => exact hempty
  | installed _ p ih =>
    rw [Occurrence.recent_installed]
    rfl
  | @attempted history s _ table ready ih =>
    dsimp only at ih ⊢
    subst table
    rw [Session.tally_runOnce ht ready, ih, Occurrence.recent_attempted, List.map_append,
      List.sum_append, List.map_singleton, List.sum_singleton, List.getLast?_concat,
      Option.getD_some]

/-- Along a history, the total is never less than the count of the latest pass. -/
theorem Context.Becomes.lastPass_le {t : OpTable} {procedures : Procedures} {c c' : Context}
    {history : List Occurrence} (h : c.Becomes t history c') (ht : t.Follows procedures)
    (hempty : c.tally = {}) : c'.tally.lastPass ≤ c'.tally.total := by
  -- Only what occurs last matters, since a pass starts its count from zero.
  cases h with
  | nothing => rw [hempty]
  | installed _ p => exact Nat.le_refl 0
  | attempted _ table ready =>
    subst table
    rw [Session.tally_runOnce ht ready]
    exact Nat.le_add_left ..

/-- With slots for all that is written, every value that has a destination is coerced to its
type. -/
theorem Session.writes_eq_zipWith {s : Session} {p : Plan} (hplan : s.plan = some p)
    (hfits : ∀ step ∈ p.steps, step.Fits p.slotCount) {i : Invocation} (hi : i ∈ s.invocations) :
    i.writes = List.zipWith (fun d v => ⟨v, d.type⟩) i.step.results i.outcome.result := by
  rw [invocations_of_plan hplan] at hi
  have hsize : i.frame.store.size = p.slotCount :=
    (Step.size_of_mem_invocations hi).trans (p.size_prepare s.frame)
  have hstep : i.step ∈ p.steps :=
    (Step.map_step_invocations _ _).1.subset (List.mem_map_of_mem hi)
  refine Destination.coercions_eq_zipWith (fun d hd => ?_) _
  rw [hsize]
  exact (hfits i.step hstep).writes d.slot (List.mem_map_of_mem hd)

/-- A new session has counted nothing. -/
theorem Session.New.tally {t : OpTable} {s : Session} (h : s.New t) : s.context.tally = {} := by
  obtain ⟨stream, pacer, logStats, rfl⟩ := h.eq_start
  rfl

namespace Host

/-- The context of a new session has become in moves what the history says, from empty counts. -/
theorem New.becomes {t : OpTable} {h : Host} (hnew : h.New t) (moves : List Move) :
    ∃ c c' : Context, c.tally = {} ∧ c.Becomes t (h.history moves) c' ∧
      ∀ s, (h.play moves).session = some s → s.context = c' := by
  obtain ⟨s₀, hs₀, hnew⟩ := hnew
  obtain ⟨c, hbecomes, hend⟩ := becomes_play hs₀ moves
  rw [hnew.sane.table] at hbecomes
  exact ⟨s₀.context, c, hnew.tally, hbecomes, fun s hs => (hend s hs).2⟩

/-- Both counts of fallbacks are the ones that counters of 64 bits have, as long as there have been
fewer than `UInt64.size` coercions in the passes since a plan was installed. -/
theorem New.tally_lt_size {t : OpTable} {procedures : Procedures} (ht : t.Follows procedures)
    {h : Host} (hnew : h.New t) {moves : List Move}
    (hfew : ((Occurrence.recent (h.history moves)).flatMap
      (Session.coercions procedures)).length < UInt64.size)
    {s : Session} (hs : (h.play moves).session = some s) :
    s.context.tally.total < UInt64.size ∧ s.context.tally.lastPass < UInt64.size := by
  obtain ⟨c, c', hempty, hbecomes, hend⟩ := hnew.becomes moves
  have htotal : c'.tally.total =
      losses ((Occurrence.recent (h.history moves)).flatMap (Session.coercions procedures)) := by
    rw [hbecomes.tally ht hempty, losses, List.countP_flatMap]
    exact congrArg List.sum (List.map_congr_left fun a _ => a.fallbacks_eq_losses procedures)
  have hlt : c'.tally.total < UInt64.size := by
    rw [htotal]
    exact Nat.lt_of_le_of_lt List.countP_le_length hfew
  rw [hend s hs]
  exact ⟨hlt, Nat.lt_of_le_of_lt (hbecomes.lastPass_le ht hempty) hlt⟩

/-- What the counts of fallbacks account for in moves of a host. -/
structure AccountsForFallbacks (procedures : Procedures) (h : Host) (moves : List Move) : Prop where
  /-- A pass that is attempted ends with the number of lossy coercions of its operations, of the
  values that they give, and of what is read of the sink. -/
  passes : ∀ a ∈ h.attempts moves, (Session.runOnce a).state.context.tally.lastPass =
    losses (a.invocations.flatMap (Invocation.coercions procedures)) +
      losses (a.invocations.flatMap Invocation.writes) + losses a.readings
  /-- If the plan is that of a graph, all values that have a destination are among them. -/
  written : ∀ a ∈ h.attempts moves, ∀ (g : Graph) (isKnown : OpCode → Bool) (p : Plan),
    g.plan isKnown = .ok p → a.plan = some p → ∀ i ∈ a.invocations,
      i.writes = List.zipWith (fun d v => ⟨v, d.type⟩) i.step.results i.outcome.result
  /-- The counts are those of all passes since a plan was installed, and of the latest of them. -/
  counts : ∀ s, (h.play moves).session = some s →
    let recent := Occurrence.recent (h.history moves)
    s.context.tally.total = (recent.map (Session.fallbacks procedures)).sum ∧
      s.context.tally.lastPass = (recent.getLast?.map (Session.fallbacks procedures)).getD 0
  /-- The latest pass is among those that make up the total. -/
  le_total : ∀ s, (h.play moves).session = some s →
    s.context.tally.lastPass ≤ s.context.tally.total
  /-- To remove the plan, by a call or by a command, changes neither count. -/
  clear : ∀ s, (h.play moves).session = some s →
    (∀ s', (Move.clear.perform (h.play moves)).session = some s' →
      s'.context.tally = s.context.tally) ∧
    (Session.obey .clear s).state.context.tally = s.context.tally

/-- If operations count only by coercing, then whatever is done to a new session, its counts account
for exactly the lossy coercions: those of the latest pass, and those of all passes since a plan was
installed. -/
theorem accounts_for_fallbacks {t : OpTable} {procedures : Procedures} (ht : t.Follows procedures)
    {h : Host} (hnew : h.New t) (moves : List Move) : h.AccountsForFallbacks procedures moves := by
  obtain ⟨c, c', hempty, hbecomes, hend⟩ := hnew.becomes moves
  have htally := hbecomes.tally ht hempty
  constructor
  case passes =>
    intro a ha
    obtain ⟨htable', hready⟩ := hbecomes.of_mem ha
    subst htable'
    rw [Session.tally_runOnce ht hready]
    rfl
  case written =>
    intro a _ g isKnown p hplan hp i hi
    exact Session.writes_eq_zipWith hp (Graph.plan_fits hplan) hi
  case counts =>
    intro s hs
    rw [hend s hs, htally, List.getLast?_map]
    exact ⟨rfl, rfl⟩
  case le_total =>
    intro s hs
    rw [hend s hs]
    exact hbecomes.lastPass_le ht hempty
  case clear =>
    intro s hs
    refine ⟨fun s' hs' => ?_, rfl⟩
    obtain ⟨s₁, hs₁, ⟨c, hc, rfl, -⟩ | ⟨hc, -⟩⟩ := Move.session_perform hs'
    · obtain rfl := Option.some.inj (hs.symm.trans hs₁)
      cases hc
      rfl
    · cases hc

end Host

/-- A sum of a vector and a scalar, which goes to the sink as a vector. -/
def Plan.lossy : Plan where
  steps :=
    [{ node := ⟨2⟩, op := .add, operands := [.literal (.vector2 ⟨1, 2⟩), .literal (.scalar 3)],
       results := [⟨⟨0⟩, .vector3⟩], parameter := none },
     { node := ⟨1⟩, op := .sink, operands := [.slot ⟨0⟩, .slot ⟨0⟩, .slot ⟨0⟩],
       results := [⟨⟨1⟩, .scalar⟩, ⟨⟨2⟩, .vector3⟩, ⟨⟨3⟩, .vector3⟩], parameter := none }]
  parameters := []
  slotCount := 4
  nodeCount := 2

/-- The same sum, and then an operation that no table has. -/
def Plan.lossyAndUnknown : Plan where
  steps := Plan.lossy.steps.take 1 ++
    [{ node := ⟨3⟩, op := ⟨9, 9⟩, operands := [], results := [], parameter := none }]
  parameters := []
  slotCount := 4
  nodeCount := 2

/-- A pass that stops at an unknown operation counts the two fallbacks before it. Two passes of
another plan count four each: in the sum, as it is written, as the sink writes it and as it is
read. -/
theorem Host.accounts_for_fallbacks_lossy :
    let h : Host := { session := some (.start .builtin (.ofSeed 0)), attached := true }
    let moves := [.install .lossyAndUnknown, .runOnce, .runOnce, .planAndInstall {},
      .send (.install .lossy), .tick .longest, .runOnce, .clear]
    OpTable.builtin.Follows .builtin ∧ h.New .builtin ∧ h.AccountsForFallbacks .builtin moves ∧
      (h.attempts moves).map (Session.fallbacks .builtin) = [2, 4, 4] ∧
      ∃ s, (h.play moves).session = some s ∧ s.context.tally = ⟨8, 4⟩ := by
  intro h moves
  have hnew : h.New .builtin := ⟨_, rfl, .start _⟩
  have hcounts : (h.attempts moves).map (Session.fallbacks .builtin) = [2, 4, 4] := by
    decide +kernel
  have hend : (h.play moves).session.map (·.context.tally) = some ⟨8, 4⟩ := by decide +kernel
  exact ⟨OpTable.follows_builtin, hnew,
    Host.accounts_for_fallbacks OpTable.follows_builtin hnew moves, hcounts,
    Option.map_eq_some_iff.1 hend⟩

end NodeGraph
