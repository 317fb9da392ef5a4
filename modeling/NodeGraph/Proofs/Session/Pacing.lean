import NodeGraph.Proofs.Plan.Checks
import NodeGraph.Proofs.Session.Interleaving

/-!
# What moves do to the pacer

A pacer counts time up to the longest span, and yet a pass is due exactly if the interval has gone
by since the last one, since no interval is longer (`Pacer.tick_due_iff`). Commands, calls and
frames do to a session's pacer what they do whatever else is in the session (`Move.pacer?_perform`).
Two hosts that have the same pacer and the same queue therefore keep the same pace
(`Host.SamePace.perform`), and to install a plan or to run it makes no difference
(`Move.samePace_of_isTimeless`).

What holds of a pacer along a run is shown by `Pacer.Kept`: there are only three things that can be
done to a pacer, and what all of them keep, every run keeps.
-/

namespace NodeGraph

namespace Duration

/-- Spans add up to their sum or to the longest span. -/
theorem nanos_add (a b : Duration) : (a + b).nanos = min (a.nanos + b.nanos) longest.nanos := by
  show (ofNanos (a.nanos + b.nanos)).nanos = _
  unfold ofNanos
  split
  · rename_i h
    simp only [longest]
    omega
  · rename_i h
    simp only [longest]
    omega

/-- A span other than no time takes some. -/
theorem nanos_pos {a : Duration} (h : a ≠ .zero) : 0 < a.nanos := by
  refine Nat.pos_of_ne_zero fun hzero => h ?_
  obtain ⟨nanos, _⟩ := a
  cases hzero
  rfl

/-- No span is longer than the longest one. -/
theorem nanos_le (a : Duration) : a.nanos ≤ longest.nanos :=
  Nat.le_sub_one_of_lt a.bounded

/-- The span that a number of seconds is known to have is the one that it is converted to. -/
theorem ofSeconds_eq_ok {x : Float} (h : (ofSeconds x).toOption.isSome) :
    ofSeconds x = .ok (ofSpan x h) := by
  unfold ofSpan
  generalize ofSeconds x = span at h
  cases span with
  | error e => cases h
  | ok d => rfl

end Duration

namespace Pacer

variable {p : Pacer}

/-- The pacer after an attempt to change its rate. -/
def tryRate (rate : Float32) (p : Pacer) : Pacer :=
  match p.setRate rate with
  | .ok p' => p'
  | .error _ => p

/-- A pass is due exactly if the interval has gone by. The longest span at which the pacer stops
counting is no shorter than the interval. -/
theorem tick_due_iff (p : Pacer) (time : Duration) :
    (p.tick time).1 = true ↔ p.interval.nanos ≤ p.elapsed.nanos + time.nanos := by
  have hdue : (p.tick time).1 = true ↔ p.interval.nanos ≤ (p.elapsed + time).nanos := by
    unfold tick
    dsimp only
    split
    · exact ⟨fun _ => ‹_›, fun _ => rfl⟩
    · exact ⟨nofun, fun h => absurd h ‹_›⟩
  have hle := p.interval.nanos_le
  rw [hdue, Duration.nanos_add]
  omega

/-- A frame starts the count again if a pass is due, and else adds its time. -/
theorem nanos_elapsed_tick (p : Pacer) (time : Duration) :
    (p.tick time).2.elapsed.nanos =
      if (p.tick time).1 then 0 else p.elapsed.nanos + time.nanos := by
  unfold tick
  dsimp only
  split
  · rfl
  · rename_i hlt
    have hle := p.interval.nanos_le
    have hlt : ¬p.interval.nanos ≤ (p.elapsed + time).nanos := hlt
    rw [Duration.nanos_add] at hlt
    show (p.elapsed + time).nanos = _
    rw [Duration.nanos_add, if_neg Bool.false_ne_true]
    omega

/-- A frame does not change the interval. -/
theorem interval_tick (p : Pacer) (time : Duration) : (p.tick time).2.interval = p.interval := by
  unfold tick
  dsimp only
  split <;> rfl

/-- After a frame, less than the interval has gone by. -/
theorem nanos_elapsed_tick_lt (h : 0 < p.interval.nanos) (time : Duration) :
    (p.tick time).2.elapsed.nanos < (p.tick time).2.interval.nanos := by
  rw [nanos_elapsed_tick, interval_tick]
  split
  · exact h
  · rename_i hdue
    rw [tick_due_iff] at hdue
    exact Nat.lt_of_not_le hdue

/-- A new rate has an interval, and the time since the last pass is kept. -/
theorem setRate_ok {p' : Pacer} {rate : Float32} (h : p.setRate rate = .ok p') :
    intervalOf rate = .ok p'.interval ∧ p'.elapsed = p.elapsed := by
  obtain ⟨d, hd, h⟩ := bind_eq_ok_iff.1 h
  cases h
  exact ⟨hd, rfl⟩

/-- A rate has an interval exactly if it is finite and positive and the quotient of one by it is the
number of seconds of a span that is not nothing. The interval is this span. -/
theorem intervalOf_eq_ok_iff {rate : Float32} {d : Duration} :
    intervalOf rate = .ok d ↔
      (rate.isFinite = true ∧ ¬rate ≤ 0) ∧
        Duration.ofSeconds (1 / Binary.widen rate) = .ok d ∧ d ≠ .zero := by
  unfold intervalOf
  constructor
  · intro h
    split at h
    · cases h
    · rename_i hsound
      split at h
      · cases h
      · rename_i hspan
        split at h
        · cases h
        · rename_i hne
          cases h
          exact ⟨by simpa using hsound, hspan, hne⟩
  · rintro ⟨⟨hfinite, hpos⟩, hspan, hne⟩
    rw [if_neg (by simp [hfinite, hpos]), hspan]
    exact if_neg hne

/-- An interval is not nothing. -/
theorem intervalOf_pos {rate : Float32} {d : Duration} (h : intervalOf rate = .ok d) :
    0 < d.nanos :=
  Duration.nanos_pos (intervalOf_eq_ok_iff.1 h).2.2

/-- The standard rate passes the checks that the standard pacer is spared, and both take the span of
the same quotient, so the interval of the standard pacer is that of its rate. -/
theorem intervalOf_standard : intervalOf standard.rate = .ok standard.interval :=
  intervalOf_eq_ok_iff.2
    ⟨by decide +kernel, Duration.ofSeconds_eq_ok (by decide +kernel), by decide +kernel⟩

/-- An attempt to change the rate leaves the count as it is. -/
theorem elapsed_tryRate (rate : Float32) (p : Pacer) : (p.tryRate rate).elapsed = p.elapsed := by
  unfold tryRate
  split
  · exact (setRate_ok ‹_›).2
  · rfl

end Pacer

/-- What a command does to the pacer. To install a plan does nothing to it. -/
def Command.pace : Command → Pacer → Pacer
  | .install _, p => p
  | .setRate rate, p => p.tryRate rate
  | .clear, p => p.reset

/-- What commands do to the pacer in turn. -/
def Pacer.obeyAll (p : Pacer) (commands : List Command) : Pacer :=
  commands.foldl (fun p c => c.pace p) p

namespace Session

/-- Planning a graph and installing the plan leaves the pacer alone. -/
theorem pacer_planAndInstall (g : Graph) (s : Session) :
    (Session.planAndInstall g s).state.pacer = s.pacer := by
  unfold Session.planAndInstall
  cases s.table.plan g with
  | error defect => rfl
  | ok p => rfl

/-- A pass leaves the pacer alone, whether it comes to its end or not. -/
theorem pacer_runOnce (s : Session) : (Session.runOnce s).state.pacer = s.pacer := by
  unfold Session.runOnce
  split
  · dsimp only
    split
    · rfl
    · rfl
  · rfl

/-- An attempt to change the rate is one of the pacer. -/
theorem pacer_tryRate (rate : Float32) (s : Session) :
    (Session.tryRate rate s).state.pacer = s.pacer.tryRate rate := by
  unfold Session.tryRate Session.setRate Pacer.tryRate
  cases s.pacer.setRate rate with
  | error problem => rfl
  | ok p => rfl

/-- What a command does to the pacer it does whatever else is in the session. -/
theorem pacer_obey (c : Command) (s : Session) :
    (Session.obey c s).state.pacer = c.pace s.pacer := by
  cases c with
  | install p => rfl
  | clear => rfl
  | setRate rate =>
    rw [Command.pace, ← pacer_tryRate, state_tryRate]

/-- What commands do to the pacer they do whatever else is in the session. -/
theorem pacer_obeyAll (commands : List Command) (s : Session) :
    (Session.obeyAll commands s).state.pacer = s.pacer.obeyAll commands := by
  induction commands generalizing s with
  | nil => rfl
  | cons c commands ih =>
    show (Session.obeyAll commands (Session.obey c s).state).state.pacer = _
    rw [ih, pacer_obey]
    rfl

/-- A frame lets the pacer obey the commands and then lets time go by. -/
theorem pacer_tick (commands : List Command) (time : Duration) (s : Session) :
    (Session.tick commands time s).state.pacer =
      ((s.pacer.obeyAll commands).tick time).2 := by
  rw [← pacer_obeyAll]
  show ((if ((Session.obeyAll commands s).state.pacer.tick time).1 then Session.runOnce
    else return false : Logged Session Bool) _).state.pacer = _
  split
  · rw [pacer_runOnce]
    rfl
  · rfl

end Session

/-- The pacer of the session, if there is one. -/
def Host.pacer? (h : Host) : Option Pacer :=
  h.session.map (·.pacer)

/-- What a move does to the pacer of the session, which takes the commands that wait for it. -/
def Move.pace (waiting : List Command) : Move → Option Pacer → Option Pacer
  | .clear, p => p.map Pacer.reset
  | .setRate rate, p => p.map (Pacer.tryRate rate)
  | .tick time, p => p.map fun p => ((p.obeyAll waiting).tick time).2
  | .drop, _ => none
  | .install _, p | .planAndInstall _, p | .runOnce, p | .send _, p | .planAndSend .., p => p

/-- A call does to the host's pacer what it does to the session's. -/
theorem Host.pacer?_withSession {α : Type} {x : Logged Session α} {f : Pacer → Pacer}
    (hx : ∀ s, (x s).state.pacer = f s.pacer) (h : Host) :
    (Host.withSession x h).state.pacer? = h.pacer?.map f := by
  obtain ⟨session, mailbox, attached⟩ := h
  cases session with
  | none => rfl
  | some s => exact congrArg some (hx s)

/-- What a move does to the pacer does not depend on anything else in the session. -/
theorem Move.pacer?_perform (m : Move) (h : Host) :
    (m.perform h).pacer? = m.pace h.waiting h.pacer? := by
  cases m with
  | install p => exact (h.pacer?_withSession fun _ => rfl).trans Option.map_id'
  | planAndInstall g =>
    exact (h.pacer?_withSession (Session.pacer_planAndInstall g)).trans Option.map_id'
  | runOnce => exact (h.pacer?_withSession Session.pacer_runOnce).trans Option.map_id'
  | clear => exact h.pacer?_withSession fun _ => rfl
  | setRate rate => exact h.pacer?_withSession (Session.pacer_tryRate rate)
  | tick time =>
    simp only [perform, pace, Host.pacer?]
    cases hs : h.session with
    | none =>
      rw [Host.tick_of_none hs, hs]
      rfl
    | some s =>
      rw [(Host.tick_of_session hs time).2, Option.map_some, Session.pacer_tick]
      rfl
  | send c => rfl
  | planAndSend t g => rfl
  | drop => rfl

/-- What a pacer keeps in frames, in fresh starts and in attempts to change its rate. -/
structure Pacer.Kept (P : Pacer → Prop) : Prop where
  tick {p : Pacer} (h : P p) (time : Duration) : P (p.tick time).2
  reset {p : Pacer} (h : P p) : P p.reset
  tryRate {p : Pacer} (h : P p) (rate : Float32) : P (p.tryRate rate)

namespace Pacer.Kept

variable {P : Pacer → Prop} {p : Pacer} {h : Host}

/-- What a pacer keeps, it keeps in a command. -/
theorem pace (hkept : Kept P) (hp : P p) (c : Command) : P (c.pace p) := by
  cases c with
  | install plan => exact hp
  | setRate rate => exact hkept.tryRate hp rate
  | clear => exact hkept.reset hp

/-- What a pacer keeps, it keeps in commands. -/
theorem obeyAll (hkept : Kept P) (hp : P p) (commands : List Command) : P (p.obeyAll commands) := by
  induction commands generalizing p with
  | nil => exact hp
  | cons c commands ih => exact ih (hkept.pace hp c)

/-- What a pacer keeps, the session's pacer keeps in a move. -/
theorem perform (hkept : Kept P) (hP : ∀ p, h.pacer? = some p → P p) (m : Move) :
    ∀ p, (m.perform h).pacer? = some p → P p := by
  intro p hp
  rw [m.pacer?_perform] at hp
  cases m with
  | install | planAndInstall | runOnce | send | planAndSend => exact hP p hp
  | drop => cases hp
  | clear =>
    obtain ⟨q, hq, rfl⟩ := Option.map_eq_some_iff.1 hp
    exact hkept.reset (hP q hq)
  | setRate rate =>
    obtain ⟨q, hq, rfl⟩ := Option.map_eq_some_iff.1 hp
    exact hkept.tryRate (hP q hq) rate
  | tick time =>
    obtain ⟨q, hq, rfl⟩ := Option.map_eq_some_iff.1 hp
    exact hkept.tick (hkept.obeyAll (hP q hq) h.waiting) time

/-- What a pacer keeps, the session's pacer keeps in moves. -/
theorem play (hkept : Kept P) (hP : ∀ p, h.pacer? = some p → P p) (moves : List Move) :
    ∀ p, (h.play moves).pacer? = some p → P p := by
  induction moves generalizing h with
  | nil => exact hP
  | cons m moves ih => exact ih (hkept.perform hP m)

end Pacer.Kept

/-- That its interval is not nothing is something that a pacer keeps. -/
theorem Pacer.kept_interval_pos : Kept fun p => 0 < p.interval.nanos where
  tick h time := by
    rw [interval_tick]
    exact h
  reset h := h
  tryRate h rate := by
    unfold tryRate
    split
    · exact intervalOf_pos (setRate_ok ‹_›).1
    · exact h

/-- The pacer of a new session has an interval and has counted nothing. -/
theorem Session.New.pacer {t : OpTable} {s : Session} (h : s.New t) :
    s.pacer.elapsed = .zero ∧ 0 < s.pacer.interval.nanos := by
  cases h with
  | start stream =>
    exact ⟨rfl, Pacer.intervalOf_pos Pacer.intervalOf_standard⟩
  | ofSettings h =>
    obtain ⟨p, hp, h⟩ := bind_eq_ok_iff.1 h
    obtain ⟨d, hd, hp⟩ := bind_eq_ok_iff.1 hp
    cases h
    cases hp
    exact ⟨rfl, Pacer.intervalOf_pos hd⟩

namespace Host

variable {h h' : Host}

/-- A call leaves the attachment to the queue as it is. -/
theorem attached_withSession {α : Type} (x : Logged Session α) (h : Host) :
    (withSession x h).state.attached = h.attached := by
  obtain ⟨session, mailbox, attached⟩ := h
  cases session with
  | none => rfl
  | some s => rfl

/-- Two hosts with the same pacer and the same queue, whatever else is in their sessions. -/
structure SamePace (h h' : Host) : Prop where
  pacer : h.pacer? = h'.pacer?
  mailbox : h.mailbox = h'.mailbox
  attached : h.attached = h'.attached

namespace SamePace

/-- The same commands wait in hosts that keep the same pace. -/
theorem waiting (hsame : h.SamePace h') : h.waiting = h'.waiting := by
  have hsome : h.session.isSome = h'.session.isSome := by
    simpa [pacer?] using congrArg Option.isSome hsame.pacer
  rw [Host.waiting, Host.waiting, hsome, hsame.attached, hsame.mailbox]

/-- A move leaves the same pacer and the same queue. -/
theorem perform (hsame : h.SamePace h') (m : Move) : (m.perform h).SamePace (m.perform h') := by
  have hpacer : (m.perform h).pacer? = (m.perform h').pacer? := by
    rw [m.pacer?_perform, m.pacer?_perform, hsame.pacer, hsame.waiting]
  obtain ⟨session, mailbox, attached⟩ := h
  obtain ⟨session', mailbox', attached'⟩ := h'
  obtain rfl : mailbox = mailbox' := hsame.mailbox
  obtain rfl : attached = attached' := hsame.attached
  -- The queue depends on whether there is a session to take from it, and not on which.
  cases session with
  | none =>
    obtain rfl : session' = none := Option.map_eq_none_iff.1 hsame.pacer.symm
    exact ⟨rfl, rfl, rfl⟩
  | some s =>
    obtain ⟨s', rfl, -⟩ := Option.map_eq_some_iff.1 hsame.pacer.symm
    cases m <;> exact ⟨hpacer, rfl, rfl⟩

end SamePace

end Host

/-- Whether a move has nothing to do with time: it installs a plan or runs one. -/
def Move.isTimeless : Move → Bool
  | .install _ | .planAndInstall _ | .runOnce => true
  | _ => false

/-- To install a plan or to run it makes no difference to the pace. -/
theorem Move.samePace_of_isTimeless {m : Move} (hm : m.isTimeless) (h : Host) :
    (m.perform h).SamePace h := by
  cases m with
  | install | planAndInstall | runOnce =>
    exact ⟨Move.pacer?_perform _ h, Move.mailbox_perform rfl h, h.attached_withSession _⟩
  | clear | setRate | tick | send | planAndSend | drop => cases hm

end NodeGraph
