import Mathlib.Algebra.BigOperators.Group.List.Basic
import Mathlib.Algebra.GroupWithZero.Nat
import NodeGraph.Proofs.Session.Pacing

/-!
# The cadence of passes

Whether a pass is due in a frame is a matter of time alone. The `Beat`s of a run are its frames and
the times when the session was cleared. A pass is due in a frame exactly if the frames since the
last one in which a pass was due, or since the session was cleared, have taken the interval in
force, by the exact sum of their times (`Host.cadence`).

The reason is that a pacer that has followed the beats so far has counted that sum
(`Pacer.Follows`), and goes on to follow them in every move (`Host.Follows.perform`). The beats
themselves say what has happened, and not what should have; that they are as they should be is
`Beat.Lawful`.
-/

namespace NodeGraph

/-- What bears on when a pass is due. Installing and running plans does not. -/
inductive Beat where
  /-- The session is cleared, and the count of time starts anew. -/
  | clear
  /-- A frame with its length, the interval then in force, and whether a pass is due. -/
  | frame (time interval : Duration) (due : Bool)
  deriving DecidableEq

namespace Beat

/-- Whether the time since the last pass goes on, as it does in a frame in which no pass is due. -/
def waits : Beat → Bool
  | .clear => false
  | .frame _ _ due => !due

/-- Whether a pass is due. -/
def isDue : Beat → Bool
  | .clear => false
  | .frame _ _ due => due

/-- The time that goes by, none when the session is cleared. -/
def nanos : Beat → Nat
  | .clear => 0
  | .frame time _ _ => time.nanos

/-- The time that the frames have taken since the last one with a pass due, and since the session
was last cleared. -/
def since (beats : List Beat) : Nat :=
  ((beats.reverse.takeWhile waits).map nanos).sum

end Beat

/-- The beats of obeying a command. A change of the rate shows in the next frame only. -/
def Command.beats : Command → List Beat
  | .clear => [.clear]
  | .install _ | .setRate _ => []

/-- The beats of a move. Those of a frame are those of the commands that the session takes, and then
the frame, in which the session asks its pacer. -/
def Move.beats : Move → Host → List Beat
  | .clear, h => if h.session.isSome then [.clear] else []
  | .tick time, h =>
    match h.session with
    | none => []
    | some s =>
      let ready := (Session.obeyAll h.waiting s).state
      h.waiting.flatMap Command.beats ++
        [.frame time ready.pacer.interval (Session.advance time ready).result]
  | _, _ => []

/-- The beats of moves in turn. -/
def Host.beats (h : Host) : List Move → List Beat
  | [] => []
  | m :: moves => m.beats h ++ beats (m.perform h) moves

/-- The beats of a move, given the commands that wait and the pacer. -/
def Move.beatsOf (waiting : List Command) : Move → Option Pacer → List Beat
  | .clear, some _ => [.clear]
  | .tick time, some p =>
    waiting.flatMap Command.beats ++
      [.frame time (p.obeyAll waiting).interval ((p.obeyAll waiting).tick time).1]
  | _, _ => []

/-- The beats of a move do not depend on anything else in the session. -/
theorem Move.beats_eq_beatsOf (m : Move) (h : Host) : m.beats h = m.beatsOf h.waiting h.pacer? := by
  cases m with
  | install | planAndInstall | setRate | runOnce | send | planAndSend | drop => rfl
  | clear =>
    simp only [beats, Host.pacer?]
    cases h.session with
    | none => rfl
    | some s => rfl
  | tick time =>
    simp only [beats, Host.pacer?]
    cases h.session with
    | none => rfl
    | some s =>
      rw [Option.map_some, beatsOf, ← Session.pacer_obeyAll]
      rfl

/-- What has nothing to do with time has no beats. -/
theorem Move.beats_of_isTimeless {m : Move} (hm : m.isTimeless) (h : Host) : m.beats h = [] := by
  cases m with
  | install | planAndInstall | runOnce => rfl
  | clear | setRate | tick | send | planAndSend | drop => cases hm

namespace Beat

variable {beats before after : List Beat} {time interval : Duration} {due : Bool}

/-- Nothing has gone by since a session was cleared. -/
theorem since_clear (beats : List Beat) : since (beats ++ [.clear]) = 0 := by
  simp [since, waits]

/-- A frame adds to the time since the last pass, unless a pass is due in it. -/
theorem since_frame (beats : List Beat) (time interval : Duration) (due : Bool) :
    since (beats ++ [.frame time interval due]) =
      if due then 0 else since beats + time.nanos := by
  cases due with
  | true => simp [since, waits]
  | false => simp [since, waits, nanos, Nat.add_comm]

/-- Beats in which a pass is due exactly if the frames since the last one took the interval. -/
inductive Lawful : List Beat → Prop
  | nil : Lawful []
  | clear {beats : List Beat} (init : Lawful beats) : Lawful (beats ++ [.clear])
  | frame {beats : List Beat} {time interval : Duration} {due : Bool} (init : Lawful beats)
      (law : due = true ↔ interval.nanos ≤ since beats + time.nanos) :
      Lawful (beats ++ [.frame time interval due])

namespace Lawful

/-- The law holds of every frame, whatever comes after it. -/
theorem due_iff (h : Lawful (before ++ .frame time interval due :: after)) :
    due = true ↔ interval.nanos ≤ since before + time.nanos := by
  generalize hl : before ++ .frame time interval due :: after = beats at h
  -- Lawful beats grow at the end: this frame is the last beat, or one of those before it.
  induction h generalizing after with
  | nil => simp at hl
  | clear init ih =>
    rcases List.eq_nil_or_concat after with rfl | ⟨after, b, rfl⟩
    · cases (List.append_inj' hl rfl).2
    · rw [List.concat_eq_append, ← List.cons_append, ← List.append_assoc] at hl
      exact ih (List.append_inj' hl rfl).1
  | frame init law ih =>
    rcases List.eq_nil_or_concat after with rfl | ⟨after, b, rfl⟩
    · obtain ⟨rfl, hframe⟩ := List.append_inj' hl rfl
      cases hframe
      exact law
    · rw [List.concat_eq_append, ← List.cons_append, ← List.append_assoc] at hl
      exact ih (List.append_inj' hl rfl).1

/-- With one interval, the passes due take no more time than there was. What has gone by since the
last one is left over. -/
theorem countP_isDue_mul_le (h : Lawful beats)
    (hinterval : ∀ time interval' due, .frame time interval' due ∈ beats → interval' = interval) :
    beats.countP isDue * interval.nanos + since beats ≤ (beats.map nanos).sum := by
  induction h with
  | nil => simp [since]
  | clear init ih =>
    have ih := ih fun time interval' due hmem =>
      hinterval time interval' due (List.mem_append_left _ hmem)
    simp only [since_clear, List.countP_append, List.countP_singleton, isDue, List.map_append,
      List.map_singleton, List.sum_append, List.sum_singleton, nanos]
    simp only [Bool.false_eq_true, if_false, Nat.add_zero]
    omega
  | @frame beats time interval' due init law ih =>
    have ih := ih fun time interval' due hmem =>
      hinterval time interval' due (List.mem_append_left _ hmem)
    obtain rfl : interval' = interval := hinterval time interval' due (by simp)
    simp only [since_frame, List.countP_append, List.countP_singleton, isDue, List.map_append,
      List.map_singleton, List.sum_append, List.sum_singleton, nanos]
    cases due with
    | true =>
      have hdue := law.1 rfl
      simp only [if_true, Nat.add_mul, Nat.one_mul]
      omega
    | false =>
      simp only [Bool.false_eq_true, if_false, Nat.add_zero]
      omega

end Lawful

end Beat

namespace Pacer

variable {p : Pacer} {beats : List Beat}

/-- A pacer counts the time since the last pass in lawful beats. It has an interval that is not
nothing. -/
structure Follows (beats : List Beat) (p : Pacer) : Prop where
  lawful : Beat.Lawful beats
  elapsed : p.elapsed.nanos = Beat.since beats

/-- A command is followed by its beats, also if it asks for a rate that cannot be used. -/
theorem Follows.pace (h : p.Follows beats) (c : Command) :
    (c.pace p).Follows (beats ++ c.beats) := by
  cases c with
  | install plan =>
    rw [Command.beats, List.append_nil]
    exact h
  | setRate rate =>
    rw [Command.beats, List.append_nil]
    exact ⟨h.lawful, (congrArg Duration.nanos (elapsed_tryRate rate p)).trans h.elapsed⟩
  | clear => exact ⟨h.lawful.clear, (Beat.since_clear beats).symm⟩

/-- Commands are followed by their beats. -/
theorem Follows.obeyAll (h : p.Follows beats) (commands : List Command) :
    (p.obeyAll commands).Follows (beats ++ commands.flatMap Command.beats) := by
  induction commands generalizing p beats with
  | nil =>
    rw [List.flatMap_nil, List.append_nil]
    exact h
  | cons c commands ih =>
    rw [List.flatMap_cons, ← List.append_assoc]
    exact ih (h.pace c)

/-- A frame is followed by its beat, and the law holds of it since the pacer has the exact sum. -/
theorem Follows.tick (h : p.Follows beats) (time : Duration) :
    (p.tick time).2.Follows (beats ++ [.frame time p.interval (p.tick time).1]) where
  lawful := by
    refine h.lawful.frame ?_
    rw [← h.elapsed]
    exact p.tick_due_iff time
  elapsed := by
    rw [nanos_elapsed_tick, Beat.since_frame, h.elapsed]

end Pacer

namespace Host

variable {h h' : Host} {beats : List Beat}

/-- Lawful beats whose time the session's pacer counts. -/
structure Follows (beats : List Beat) (h : Host) : Prop where
  lawful : Beat.Lawful beats
  pacer : ∀ p, h.pacer? = some p → p.Follows beats

/-- A host follows the beats that its session's pacer follows. -/
theorem Follows.of_pacer {p : Pacer} (hp : h.pacer? = some p) (hf : p.Follows beats) :
    h.Follows beats where
  lawful := hf.lawful
  pacer q hq := by
    rw [hp] at hq
    exact Option.some.inj hq ▸ hf

/-- A move is followed by its beats. After the session is dropped there are none. -/
theorem Follows.perform (hf : h.Follows beats) (m : Move) :
    (m.perform h).Follows (beats ++ m.beats h) := by
  rw [Move.beats_eq_beatsOf]
  cases hp : h.pacer? with
  | none =>
    have hbeats : m.beatsOf h.waiting none = [] := by cases m <;> rfl
    have hgone : (m.perform h).pacer? = none := by
      rw [m.pacer?_perform, hp]
      cases m <;> rfl
    rw [hbeats, List.append_nil]
    exact ⟨hf.lawful, fun p hp => by rw [hgone] at hp; cases hp⟩
  | some p =>
    have hpacer := m.pacer?_perform h
    rw [hp] at hpacer
    have hfollows := hf.pacer p hp
    cases m with
    | install | planAndInstall | runOnce | send | planAndSend =>
      show Host.Follows (beats ++ []) _
      rw [List.append_nil]
      exact .of_pacer hpacer hfollows
    | drop =>
      show Host.Follows (beats ++ []) _
      rw [List.append_nil]
      exact ⟨hf.lawful, nofun⟩
    | clear => exact .of_pacer hpacer (hfollows.pace .clear)
    | setRate rate => exact .of_pacer hpacer (hfollows.pace (.setRate rate))
    | tick time =>
      have hticked := (hfollows.obeyAll h.waiting).tick time
      rw [List.append_assoc] at hticked
      exact .of_pacer hpacer hticked

/-- Moves are followed by their beats. -/
theorem Follows.play (hf : h.Follows beats) (moves : List Move) :
    (h.play moves).Follows (beats ++ h.beats moves) := by
  induction moves generalizing h beats with
  | nil =>
    rw [Host.beats, List.append_nil]
    exact hf
  | cons m moves ih =>
    rw [Host.beats, ← List.append_assoc]
    exact ih (hf.perform m)

/-- The beats of a run from a session whose pacer has counted nothing are lawful. -/
theorem lawful_beats (hzero : ∀ p, h.pacer? = some p → p.elapsed = .zero) (moves : List Move) :
    Beat.Lawful (h.beats moves) := by
  have hf : h.Follows [] := ⟨.nil, fun p hp => ⟨.nil, congrArg Duration.nanos (hzero p hp)⟩⟩
  exact (hf.play moves).lawful

/-- Moves have the same beats in hosts that keep the same pace. -/
theorem SamePace.beats_eq (hsame : h.SamePace h') (moves : List Move) :
    h.beats moves = h'.beats moves := by
  induction moves generalizing h h' with
  | nil => rfl
  | cons m moves ih =>
    rw [Host.beats, Host.beats, ih (hsame.perform m), m.beats_eq_beatsOf, m.beats_eq_beatsOf,
      hsame.pacer, hsame.waiting]

end Host

/-- The cadence of a session. In every run, and whatever the session does besides, a pass is due in
a frame exactly if the frames since the last pass that was due, and since the session was cleared,
took the interval in force, this frame included. What is installed, faulty or run does not matter.
After every frame less than the interval is left. From a pacer that has counted nothing, the passes
due at one interval take no more than the time of the frames; to clear the session can only lose
time. -/
theorem Host.cadence {t : OpTable} {h : Host} (hnew : h.New t) (moves : List Move) :
    (∀ before time interval due after, h.beats moves = before ++ .frame time interval due :: after →
      (due = true ↔ interval.nanos ≤ Beat.since before + time.nanos)) ∧
    (∀ (h' : Host) later, h'.SamePace (h.play moves) →
      h'.beats later = (h.play moves).beats later) ∧
    (∀ (m : Move) later, m.isTimeless →
      (h.play moves).beats (m :: later) = (h.play moves).beats later) ∧
    (∀ time s, (h.play (moves ++ [.tick time])).session = some s →
      s.pacer.elapsed.nanos < s.pacer.interval.nanos) ∧
    ∀ s later interval, (h.play moves).session = some s → s.pacer.elapsed = .zero →
      (∀ time interval' due, .frame time interval' due ∈ (h.play moves).beats later →
        interval' = interval) →
      ((h.play moves).beats later).countP Beat.isDue * interval.nanos ≤
        (((h.play moves).beats later).map Beat.nanos).sum := by
  obtain ⟨s₀, hs₀, hnew⟩ := hnew
  obtain ⟨hzero, hpos⟩ := hnew.pacer
  have hpacer : ∀ p, h.pacer? = some p → p = s₀.pacer := by
    intro p hp
    rw [Host.pacer?, hs₀] at hp
    exact (Option.some.inj hp).symm
  refine ⟨?_, fun h' later hsame => hsame.beats_eq later, ?_, ?_, ?_⟩
  · intro before time interval due after hbeats
    have hlawful := lawful_beats (fun p hp => hpacer p hp ▸ hzero) moves
    rw [hbeats] at hlawful
    exact hlawful.due_iff
  · intro m later hm
    rw [Host.beats, Move.beats_of_isTimeless hm, List.nil_append]
    exact (Move.samePace_of_isTimeless hm _).beats_eq later
  · intro time s hs
    have hp : ((Move.tick time).perform (h.play moves)).pacer? = some s.pacer := by
      rw [Host.play, List.foldl_append] at hs
      exact congrArg (Option.map (·.pacer)) hs
    rw [Move.pacer?_perform] at hp
    obtain ⟨p, hp, hticked⟩ := Option.map_eq_some_iff.1 hp
    have hinterval := Pacer.kept_interval_pos.play (fun p hp => hpacer p hp ▸ hpos) moves p hp
    rw [← hticked]
    exact Pacer.nanos_elapsed_tick_lt (Pacer.kept_interval_pos.obeyAll hinterval _) time
  · intro s later interval hs hempty hinterval
    have hcounted : ∀ p, (h.play moves).pacer? = some p → p.elapsed = .zero := by
      intro p hp
      rw [Host.pacer?, hs] at hp
      cases hp
      exact hempty
    have hle := (lawful_beats hcounted later).countP_isDue_mul_le hinterval
    omega

/-- The session is cleared through the queue after a frame, and a higher rate is sent after the next
one. No time goes by in the last frame, but more than the new interval has since the session was
cleared. -/
theorem Host.cadence_higherRate :
    let t : OpTable := ⟨[]⟩
    let h : Host := { session := some (.start t (.ofSeed 0)), attached := true }
    let moves := [.tick (.ofNanos 200000000), .send .clear, .tick (.ofNanos 150000000),
      .send (.setRate 10), .runOnce, .tick .zero]
    let before : List Beat := [.frame (.ofNanos 200000000) (.ofNanos 333333333) false, .clear,
      .frame (.ofNanos 150000000) (.ofNanos 333333333) false]
    h.New t ∧ h.beats moves = before ++ [.frame .zero (.ofNanos 100000000) true] ∧
      (Duration.ofNanos 100000000).nanos ≤ Beat.since before + Duration.zero.nanos := by
  intro t h moves before
  have hnew : h.New t := ⟨_, rfl, .start _⟩
  have hbeats : h.beats moves = before ++ [.frame .zero (.ofNanos 100000000) true] := by
    decide +kernel
  exact ⟨hnew, hbeats, ((Host.cadence hnew moves).1 before _ _ true [] hbeats).1 rfl⟩

end NodeGraph
