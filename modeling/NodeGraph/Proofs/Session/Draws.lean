import NodeGraph.Proofs.Binary.Fractions
import NodeGraph.Proofs.Pass.Coercions
import NodeGraph.Proofs.Pass.Steadiness
import NodeGraph.Proofs.Session.History

/-!
# Who draws from the random stream

With the built-in operations, every random vector takes the next three words of the stream, and
nothing else takes any (`Random.Stream.Serves`). This holds of one invocation, hence of the steps of
a pass, hence along the history of a session, whatever is done to it and whether or not its passes
come to their end. `Host.shares_out` puts it together with the number that a word stands for.

A pass that a fault stops has drawn the words of the random vectors before the fault, and these are
not given back.
-/

namespace NodeGraph

namespace Random.Stream

/-- The word at a place, counted from the next one. -/
def word (s : Stream) (place : Nat) : UInt32 :=
  s.key.word (s.position + place)

/-- The stream after some more words. -/
def skip (s : Stream) (count : Nat) : Stream :=
  { s with position := s.position + count }

/-- The vector made of the words from place `3 * n` on, each as a scalar in `[0, 1)`. -/
def vector (s : Stream) (n : Nat) : Vec3 :=
  ⟨unitScalar (s.word (3 * n)), unitScalar (s.word (3 * n + 1)), unitScalar (s.word (3 * n + 2))⟩

/-- Words are skipped one after the other. -/
theorem skip_skip (s : Stream) (m n : Nat) : (s.skip m).skip n = s.skip (m + n) := by
  rw [skip, skip, skip, Nat.add_assoc]

/-- After some vectors come those that follow them. -/
theorem vector_skip (s : Stream) (m n : Nat) : (s.skip (3 * m)).vector n = s.vector (m + n) := by
  unfold vector word skip
  simp only [Nat.mul_add, Nat.add_assoc]

end Random.Stream

/-- The invocations that ask for a random vector. -/
def Invocation.draws (is : List Invocation) : List Invocation :=
  is.filter (·.step.op = .randomVector3)

namespace Invocation

/-- To write values takes no word from the stream. -/
theorem stream_written (i : Invocation) :
    i.written.state.context.stream = i.outcome.state.stream := by
  rw [written, Destination.context_writeAll]
  rfl

/-- The built-in operations other than the random vector take no word from the stream. -/
theorem stream_outcome {i : Invocation} (h : i.Of .builtin) (hop : i.step.op ≠ .randomVector3) :
    i.outcome.state.stream = i.frame.context.stream := by
  obtain ⟨e, he, hoperation⟩ := h
  obtain ⟨vs, k, hsteady⟩ := OpTable.steady_builtin i.step.op e hop he i.inputs
  rw [outcome, hoperation]
  exact (hsteady i.frame.context).2.1

end Invocation

/-- A stream serves invocations if the random vectors among them get three words each in order, and
no other words are used up. -/
structure Random.Stream.Serves (s : Stream) (is : List Invocation) (s' : Stream) : Prop where
  given : ∀ (n : Nat) (i : Invocation), (Invocation.draws is)[n]? = some i →
    i.outcome.result = [.vector3 (s.vector n)]
  left : s' = s.skip (3 * (Invocation.draws is).length)

namespace Random.Stream.Serves

variable {s s' s'' : Stream} {is is' : List Invocation}

/-- Nothing is needed to serve no invocation. -/
theorem nil (s : Stream) : s.Serves [] s :=
  ⟨nofun, rfl⟩

/-- What is left serves the invocations that come next. -/
theorem trans (h : s.Serves is s') (h' : s'.Serves is' s'') : s.Serves (is ++ is') s'' := by
  have hdraws : Invocation.draws (is ++ is') = Invocation.draws is ++ Invocation.draws is' :=
    List.filter_append ..
  refine ⟨fun n i hi => ?_, ?_⟩
  · rw [hdraws] at hi
    by_cases hn : n < (Invocation.draws is).length
    · rw [List.getElem?_append_left hn] at hi
      exact h.given n i hi
    · have hle : (Invocation.draws is).length ≤ n := Nat.le_of_not_lt hn
      rw [List.getElem?_append_right hle] at hi
      rw [h'.given _ i hi, h.left, vector_skip, Nat.add_sub_cancel' hle]
  · rw [h'.left, h.left, skip_skip, hdraws, List.length_append, Nat.mul_add]

/-- An invocation of a built-in operation is served, with three words or with none. -/
theorem of_invocation {i : Invocation} (h : i.Of .builtin) :
    i.frame.context.stream.Serves [i] i.written.state.context.stream := by
  rw [i.stream_written]
  by_cases hop : i.step.op = .randomVector3
  · have hentry : OpTable.builtin.find? .randomVector3 =
        some ⟨"Random Vector3", Operation.randomVector3⟩ := rfl
    obtain ⟨e, he, hoperation⟩ := h
    rw [hop, hentry] at he
    cases he
    have hdraws : Invocation.draws [i] = [i] := List.filter_cons_of_pos (by simpa using hop)
    refine ⟨fun n j hj => ?_, ?_⟩
    · rw [hdraws] at hj
      cases n with
      | zero =>
        obtain rfl := Option.some.inj hj
        rw [Invocation.outcome, hoperation]
        rfl
      | succ n => cases hj
    · rw [hdraws, Invocation.outcome, hoperation]
      rfl
  · have hdraws : Invocation.draws [i] = [] := List.filter_cons_of_neg (by simpa using hop)
    refine ⟨fun n j hj => ?_, ?_⟩
    · rw [hdraws] at hj
      cases hj
    · rw [hdraws, Invocation.stream_outcome h hop]
      rfl

/-- The steps that are executed are served, also if a fault stops them. -/
theorem of_executeAll (steps : List Step) (f : Frame) :
    f.context.stream.Serves (Step.invocations .builtin steps f)
      (Step.executeAll .builtin steps f).state.context.stream :=
  Step.executeAll_induction (P := fun f is f' => f.context.stream.Serves is f'.context.stream)
    (fun f _ => nil f.context.stream) trans (fun _ => of_invocation) steps f

/-- A pass that is attempted is served. To read the sink takes no word. -/
theorem of_runOnce {s : Session} (htable : s.table = .builtin) (hready : ¬s.Idle) :
    s.context.stream.Serves s.invocations (Session.runOnce s).state.context.stream := by
  obtain ⟨p, hplan, -, -, hcontext⟩ := Session.runOnce_of_ready hready
  have hsteps := of_executeAll p.steps (p.prepare s.frame)
  rw [hcontext, Session.invocations_of_plan hplan, htable]
  split
  · rw [Readout.state_read]
    exact hsteps
  · exact hsteps

/-- The passes that are attempted in a history are served in turn. Installing a plan takes no
word. -/
theorem of_becomes {c c' : Context} {history : List Occurrence}
    (h : c.Becomes .builtin history c') :
    c.stream.Serves ((history.filterMap Occurrence.attempted?).flatMap Session.invocations)
      c'.stream := by
  induction h with
  | nothing => exact nil c.stream
  | installed _ p ih =>
    rw [List.filterMap_append, List.flatMap_append]
    exact ih.trans (nil _)
  | @attempted _ s _ table ready ih =>
    rw [List.filterMap_append, List.flatMap_append]
    have hpass := of_runOnce table ready
    rw [← List.flatMap_singleton Session.invocations s] at hpass
    exact ih.trans hpass

end Random.Stream.Serves

namespace Host

/-- How the words of a session's stream are shared out in moves of its host. -/
structure SharesOut (h : Host) (s : Session) (moves : List Move) : Prop where
  /-- The random vectors of all passes get the words in order, three each. -/
  given : ∀ (n : Nat) (i : Invocation),
    (Invocation.draws ((h.attempts moves).flatMap Session.invocations))[n]? = some i →
      i.outcome.result = [.vector3 (s.context.stream.vector n)]
  /-- No other words are used up. -/
  left : ∀ s', (h.play moves).session = some s' → s'.context.stream = s.context.stream.skip
    (3 * (Invocation.draws ((h.attempts moves).flatMap Session.invocations)).length)
  /-- A pass that comes to its end invokes the operations of all steps in order. It gives the random
  vectors among them the next words in order, and uses up no others. -/
  passes : ∀ a ∈ h.attempts moves, (Session.runOnce a).result = true →
    ∃ p, a.plan = some p ∧ a.invocations.map (·.step) = p.steps ∧
      (∀ (n : Nat) (i : Invocation), (Invocation.draws a.invocations)[n]? = some i →
        i.outcome.result = [.vector3 (a.context.stream.vector n)]) ∧
      (Session.runOnce a).state.context.stream =
        a.context.stream.skip (3 * p.steps.countP (·.op = .randomVector3))
  /-- The other operations use up nothing. -/
  others : ∀ a ∈ h.attempts moves, ∀ i ∈ a.invocations, i.step.op ≠ .randomVector3 →
    i.outcome.state.stream = i.frame.context.stream
  /-- Nothing is used up by a move that neither runs a pass nor lets time go by. -/
  still : ∀ m : Move, m ≠ .runOnce → (∀ time, m ≠ .tick time) → ∀ s₁ s₂,
    (h.play moves).session = some s₁ → (m.perform (h.play moves)).session = some s₂ →
      s₂.context.stream = s₁.context.stream

/-- With the built-in operations, whatever is done to a session, its random vectors get the words of
its stream in order, three each, and nothing else uses up a word. The scalar of a word stands for
the fraction of `2 ^ 24` that the upper 24 bits are. -/
theorem shares_out {h : Host} {s : Session} (hs : h.session = some s) (htable : s.table = .builtin)
    (moves : List Move) :
    h.SharesOut s moves ∧ ∀ w : UInt32, ∃ q : ℚ,
      Binary.value? (Random.unitScalar w).toModel.unpack = some q ∧
        q = (w >>> 8).toNat / 2 ^ 24 ∧ 0 ≤ q ∧ q < 1 := by
  obtain ⟨c, hbecomes, hend⟩ := becomes_play hs moves
  rw [htable] at hbecomes
  have hserves := Random.Stream.Serves.of_becomes hbecomes
  refine ⟨⟨hserves.given, ?_, ?_, ?_, ?_⟩, Random.unitScalar_fraction⟩
  · intro s' hs'
    rw [(hend s' hs').2]
    exact hserves.left
  · intro a ha hended
    obtain ⟨htable', hready⟩ := hbecomes.of_mem ha
    obtain ⟨p, hplan, hresult, -⟩ := Session.runOnce_of_ready hready
    have hpass := Random.Stream.Serves.of_runOnce htable' hready
    have hsteps : a.invocations.map (·.step) = p.steps := by
      rw [Session.invocations_of_plan hplan]
      rw [hended] at hresult
      exact (Step.map_step_invocations _ _).2 (Option.isNone_iff_eq_none.1 hresult.symm)
    refine ⟨p, hplan, hsteps, hpass.given, ?_⟩
    rw [hpass.left, ← hsteps, List.countP_map, List.countP_eq_length_filter]
    rfl
  · intro a ha i hi hop
    obtain ⟨htable', hready⟩ := hbecomes.of_mem ha
    obtain ⟨p, hplan, -⟩ := Session.runOnce_of_ready hready
    rw [Session.invocations_of_plan hplan, htable'] at hi
    exact Invocation.stream_outcome (Step.of_mem_invocations hi) hop
  · intro m hrun htick s₁ s₂ hs₁ hs₂
    obtain ⟨s₀, hs₀, -, hmove⟩ := Move.becomes hs₂
    obtain rfl := Option.some.inj (hs₁.symm.trans hs₀)
    rw [(hend s₁ hs₁).1, htable] at hmove
    have hstill := Random.Stream.Serves.of_becomes hmove
    rw [Move.filterMap_attempted?_history hrun htick] at hstill
    exact hstill.left

end Host

/-- Two random vectors, which go to the sink. -/
def Plan.twoDraws : Plan where
  steps :=
    [{ node := ⟨2⟩, op := .randomVector3, operands := [], results := [⟨⟨0⟩, .vector3⟩],
       parameter := none },
     { node := ⟨3⟩, op := .randomVector3, operands := [], results := [⟨⟨1⟩, .vector3⟩],
       parameter := none },
     { node := ⟨1⟩, op := .sink, operands := [.slot ⟨0⟩, .slot ⟨1⟩],
       results := [⟨⟨2⟩, .scalar⟩, ⟨⟨3⟩, .vector3⟩], parameter := none }]
  parameters := []
  slotCount := 4
  nodeCount := 3

/-- Two passes draw two random vectors each. Between them a graph is refused, the rate is changed
and the plan is installed again. -/
theorem Host.shares_out_twoDraws :
    let s := Session.start .builtin (.ofSeed 5)
    let h : Host := { session := some s, attached := true }
    let moves := [.install .twoDraws, .runOnce, .planAndInstall {}, .setRate 10,
      .send (.install .twoDraws), .tick .longest]
    h.SharesOut s moves ∧ ((h.attempts moves).map (·.plan) = [some .twoDraws, some .twoDraws]) ∧
      ∃ s', (h.play moves).session = some s' ∧ s'.passes = 2 ∧
        s'.context.stream = (Random.Stream.ofSeed 5).skip 12 := by
  intro s h moves
  obtain ⟨hshares, -⟩ := Host.shares_out (h := h) (s := s) rfl rfl moves
  have hplans : (h.attempts moves).map (·.plan) = [some .twoDraws, some .twoDraws] := by
    decide +kernel
  have hend : (h.play moves).session.map (fun s' => (s'.passes, s'.context.stream)) =
      some (2, (Random.Stream.ofSeed 5).skip 12) := by
    decide +kernel
  obtain ⟨s', hs', hpair⟩ := Option.map_eq_some_iff.1 hend
  exact ⟨hshares, hplans, s', hs', congrArg Prod.fst hpair, congrArg Prod.snd hpair⟩

end NodeGraph
