import NodeGraph.Proofs.Session.Faultless
import NodeGraph.Proofs.Session.Interleaving

/-!
# Commands reach the session

The queue between senders and a session is first in, first out. A session obeys the commands that
the queue has taken, each once and in their order, and only at the start of a frame
(`Moment.delivers`). A plan that is sent is therefore installed in the next frame, before whatever
is sent later, provided that the queue has taken it. That it has is not told to who planned a graph
and sent the plan: with a full queue the plan is dropped, and the answer is the same
(`Moment.planAndSend_queued`, `Moment.planAndSend_dropped`).

Senders may move while the session is taking commands out of the queue, so that the statements are
about moments and turns and not about hosts and moves.
-/

namespace NodeGraph

/-- How commands fare in turns that lead from one moment to another. -/
structure Moment.Delivers (x : Moment) (turns : List Turn) (y : Moment) : Prop where
  /-- What the queue has taken is what the session has obeyed and what is pending. -/
  exact : y.host.mailbox.closed = false →
    x.host.mailbox.pending ++ x.accepted turns = x.obeyed turns ++ y.host.mailbox.pending
  /-- Also with the receiver gone, the session has obeyed the first ones that the queue took. -/
  inOrder : x.obeyed turns ++ y.host.mailbox.pending <+: x.host.mailbox.pending ++ x.accepted turns
  /-- A command is refused exactly if the queue is full or the receiver gone. -/
  refused : ∀ c, (Host.send (Mailbox.send c) y.host).result = false ↔
    y.host.mailbox.pending.length = 16 ∨ y.host.mailbox.closed = true
  unchanged : ∀ c, (Host.send (Mailbox.send c) y.host).result = false →
    (Host.send (Mailbox.send c) y.host).state = y.host
  /-- Calls other than frames leave the queue alone, and do the same whatever is in it. -/
  call : ∀ (m : Move) mailbox, m.isCall →
    m.perform (y.host.withMailbox mailbox) = (m.perform y.host).withMailbox mailbox
  /-- A frame is the calls of the pending commands and then a frame with nothing pending. -/
  tick : ∀ time s, y.host.session = some s → y.host.attached = true →
    let direct := (y.host.withPending []).play (y.host.mailbox.pending.map Command.call)
    (Host.tick time y.host).result = (Host.tick time direct).result ∧
      (Host.tick time y.host).state = (Host.tick time direct).state
  /-- A frame that takes its commands one by one makes the call of each when it takes it. -/
  next : ∀ time c rest, y.frame = some time → y.host.waiting = c :: rest →
    Turn.proceed.perform y = ⟨c.call.perform (y.host.withPending rest), some time⟩
  /-- Without senders in between, such a frame is the whole one. -/
  frame : ∀ time, y.frame = none →
    y.play (.beginFrame time :: List.replicate (y.host.waiting.length + 1) .proceed) =
      { host := (Host.tick time y.host).state }

/-- Commands are obeyed once and in order, whatever turns senders and the session take. What the
queue has taken is what the session has obeyed, followed by what is pending, and only when the
session is dropped are commands lost. A command is refused exactly if there is no place for it or
nobody to receive it, which changes nothing. A frame comes to the calls of its commands and then a
frame without any, and a session that takes them one by one, with senders in between, makes the same
calls. -/
theorem Moment.delivers (x : Moment) (turns : List Turn)
    (hroom : x.host.mailbox.pending.length ≤ Mailbox.capacity) :
    x.Delivers turns (x.play turns) where
  exact := (x.passes turns).exact
  inOrder := (x.passes turns).inOrder
  refused c := by
    have hle : _ ≤ 16 := x.length_pending_le hroom turns
    have hfull : Mailbox.capacity ≤ (x.play turns).host.mailbox.pending.length ↔
        (x.play turns).host.mailbox.pending.length = 16 := by
      rw [Mailbox.capacity]
      omega
    rw [← hfull]
    exact Mailbox.send_result_eq_false_iff c _
  unchanged c hc := by
    show (x.play turns).host.withMailbox _ = _
    rw [Mailbox.send_state_of_refused hc]
    rfl
  call _ mailbox hm := Move.perform_mailbox hm _ mailbox
  tick time _ hs ha := Host.tick_eq_calls hs ha time
  next time c rest hframe hw := by
    rw [← Turn.perform_proceed hw time, ← hframe]
  frame time hframe := Moment.play_frame hframe time

/-- A new session that is attached to an empty queue, between two frames. -/
def Moment.attached : Moment where
  host := { session := some (.start .constantAndSink (.ofSeed 0)), attached := true }

/-- A frame begins with a command in the queue. Another one is sent when the frame has taken that
one, and a third one when the frame has ended. -/
theorem Moment.delivers_interrupted :
    let x := Moment.attached
    let turns := [.move (.send .clear), .beginFrame .zero, .proceed,
      .move (.send (.install .constantToSink)), .proceed, .proceed, .move (.send .clear)]
    x.host.mailbox.pending.length ≤ Mailbox.capacity ∧ x.Delivers turns (x.play turns) ∧
      x.obeyed turns = [.clear, .install .constantToSink] ∧
      (x.play turns).host.mailbox.pending = [.clear] := by
  intro x turns
  exact ⟨by decide, x.delivers turns (by decide), by decide +kernel, by decide +kernel⟩

/-- The session is there and takes its commands from the queue. -/
structure Host.Receives (h : Host) : Prop where
  session : h.session.isSome
  attached : h.attached = true
  opened : h.mailbox.closed = false

/-- All pending commands wait for a session that receives them. -/
theorem Host.Receives.waiting_eq {h : Host} (hh : h.Receives) : h.waiting = h.mailbox.pending := by
  rw [Host.waiting, hh.session, hh.attached]
  rfl

namespace Moment

/-- Obeying goes on where it stopped. -/
theorem obeyed_append (x : Moment) (turns later : List Turn) :
    x.obeyed (turns ++ later) = x.obeyed turns ++ (x.play turns).obeyed later := by
  induction turns generalizing x with
  | nil => rfl
  | cons turn turns ih =>
    rw [List.cons_append, obeyed, obeyed, ih (turn.perform x), List.append_assoc]
    rfl

/-- After a frame, a session that receives its commands has obeyed all that there were, in order. -/
theorem obeyed_tick (x : Moment) (turns : List Turn) (hframe : (x.play turns).frame = none)
    (hreceives : (x.play turns).host.Receives) (time : Duration) :
    x.obeyed (turns ++ [.move (.tick time)]) = x.host.mailbox.pending ++ x.accepted turns := by
  have htick : (x.play turns).obeyed [.move (.tick time)] =
      (x.play turns).host.mailbox.pending := by
    rw [obeyed, obeyed, List.append_nil, Turn.obeyed, hframe]
    exact hreceives.waiting_eq
  rw [obeyed_append, htick, (x.passes turns).exact hreceives.opened]

/-- If nothing has been obeyed since a moment, a frame obeys what was pending then and what has been
taken since. -/
theorem tick_eq_calls (x : Moment) (turns : List Turn) (hreceives : (x.play turns).host.Receives)
    (hobeyed : x.obeyed turns = []) (time : Duration) :
    let direct := ((x.play turns).host.withPending []).play
      ((x.host.mailbox.pending ++ x.accepted turns).map Command.call)
    (Host.tick time (x.play turns).host).result = (Host.tick time direct).result ∧
      (Host.tick time (x.play turns).host).state = (Host.tick time direct).state := by
  obtain ⟨s, hs⟩ := Option.isSome_iff_exists.1 hreceives.session
  rw [(x.passes turns).exact hreceives.opened, hobeyed, List.nil_append]
  exact Host.tick_eq_calls hs hreceives.attached time

end Moment

namespace Mailbox

variable {m : Mailbox}

/-- A queue that is open and has room takes a command, and puts it at the end. -/
theorem send_of_room (hopen : m.closed = false) (hroom : m.pending.length < capacity)
    (c : Command) : (send c m).state = { m with pending := m.pending ++ [c] } := by
  rcases send_cases c m with ⟨-, -, -, hstate⟩ | ⟨-, hfull | hclosed, -⟩
  · exact hstate
  · exact absurd hroom (Nat.not_lt.2 hfull)
  · rw [hopen] at hclosed
    cases hclosed

/-- A queue that is open and full drops a command and reports it. -/
theorem send_of_full (hopen : m.closed = false) (hfull : capacity ≤ m.pending.length)
    (c : Command) : (send c m).state = m ∧ (send c m).events = [.commandDropped c] := by
  simp [send, hopen, hfull]

/-- Planning a graph and sending the plan answers with the plan, and does what sending it does. -/
theorem planAndSend_of_plan {t : OpTable} {g : Graph} {p : Plan} (hp : t.plan g = .ok p)
    (m : Mailbox) :
    (planAndSend t g m).result = .ok p ∧
      (planAndSend t g m).state = (send (.install p) m).state ∧
      (planAndSend t g m).events = .planned p.stats :: (send (.install p) m).events := by
  unfold planAndSend
  rw [hp]
  exact ⟨rfl, rfl, rfl⟩

end Mailbox

/-- Planning a graph and sending the plan always answers with the plan. The queue has it then
exactly if there was room for it. In that case the session will have obeyed it at the end of any
later frame, and before all that was sent later; if no frame comes in between, that frame installs
the plan after what was pending. A queue without room drops the plan, and only a report tells so. -/
theorem Moment.planAndSend_queued (x : Moment) (turns : List Turn)
    (hreceives : (x.play turns).host.Receives) {t : OpTable} {g : Graph} {p : Plan}
    (hp : t.plan g = .ok p) :
    let pending := (x.play turns).host.mailbox.pending
    let sent := Host.send (Mailbox.planAndSend t g) (x.play turns).host
    let y : Moment := ⟨sent.state, (x.play turns).frame⟩
    sent.result = .ok p ∧
      (sent.state = (x.play turns).host.withPending (pending ++ [.install p]) ↔
        pending.length < 16) ∧
      (16 ≤ pending.length →
        sent.state = (x.play turns).host ∧ .commandDropped (.install p) ∈ sent.events) ∧
      (pending.length < 16 → ∀ (later : List Turn) (time : Duration),
        let z := y.play later
        z.frame = none → z.host.Receives →
          y.obeyed (later ++ [.move (.tick time)]) =
              pending ++ .install p :: y.accepted later ∧
            (y.obeyed later = [] →
              let direct := (z.host.withPending []).play
                (pending.map Command.call ++ .install p :: (y.accepted later).map Command.call)
              (Host.tick time z.host).result = (Host.tick time direct).result ∧
                (Host.tick time z.host).state = (Host.tick time direct).state)) := by
  intro pending sent y
  obtain ⟨hresult, hstate, hevents⟩ :=
    Mailbox.planAndSend_of_plan hp (x.play turns).host.mailbox
  have hfull : 16 ≤ pending.length →
      sent.state = (x.play turns).host ∧ .commandDropped (.install p) ∈ sent.events := by
    intro hlength
    obtain ⟨hsame, hdropped⟩ := Mailbox.send_of_full hreceives.opened hlength (.install p)
    constructor
    · show (x.play turns).host.withMailbox _ = _
      rw [hstate, hsame]
      rfl
    · show _ ∈ (Mailbox.planAndSend t g _).events
      rw [hevents, hdropped]
      exact List.mem_cons_of_mem _ (List.mem_singleton_self _)
  have htaken : pending.length < 16 →
      sent.state = (x.play turns).host.withPending (pending ++ [.install p]) := by
    intro hlength
    show (x.play turns).host.withMailbox _ = _
    rw [hstate, Mailbox.send_of_room hreceives.opened hlength]
    rfl
  refine ⟨hresult, ⟨fun hsent => ?_, htaken⟩, hfull, ?_⟩
  · refine Nat.lt_of_not_le fun hlength => ?_
    rw [(hfull hlength).1] at hsent
    have hlengths := congrArg (fun h : Host => h.mailbox.pending.length) hsent
    simp [pending] at hlengths
  · intro hlength later time z hframe hz
    have hpending : y.host.mailbox.pending = pending ++ [.install p] := by
      show sent.state.mailbox.pending = _
      rw [htaken hlength, Host.mailbox_withPending]
    have hqueue : y.host.mailbox.pending ++ y.accepted later =
        pending ++ .install p :: y.accepted later := by
      rw [hpending, List.append_assoc, List.singleton_append]
    have hcalls : (y.host.mailbox.pending ++ y.accepted later).map Command.call =
        pending.map Command.call ++ .install p :: (y.accepted later).map Command.call := by
      rw [hqueue, List.map_append, List.map_cons]
      rfl
    refine ⟨hqueue ▸ y.obeyed_tick later hframe hz time, fun hobeyed => ?_⟩
    rw [← hcalls]
    exact y.tick_eq_calls later hz hobeyed time

/-- An open queue takes all commands that it has room for, in the order in which they are sent. -/
theorem Moment.play_sends (x : Moment) (commands : List Command)
    (hopen : x.host.mailbox.closed = false)
    (hroom : x.host.mailbox.pending.length + commands.length ≤ Mailbox.capacity) :
    x.play (commands.map fun c => .move (.send c)) =
      { x with host := x.host.withPending (x.host.mailbox.pending ++ commands) } := by
  induction commands generalizing x with
  | nil =>
    rw [List.append_nil]
    rfl
  | cons c commands ih =>
    rw [List.length_cons] at hroom
    have hfirst : (Turn.move (.send c)).perform x =
        { x with host := x.host.withPending (x.host.mailbox.pending ++ [c]) } := by
      show Moment.mk (x.host.withMailbox (Mailbox.send c x.host.mailbox).state) x.frame = _
      rw [Mailbox.send_of_room hopen (by omega)]
      rfl
    show ((Turn.move (.send c)).perform x).play (commands.map fun c => .move (.send c)) = _
    rw [hfirst, ih { x with host := x.host.withPending (x.host.mailbox.pending ++ [c]) } hopen]
    · simp [Host.withPending, Host.withMailbox]
    · rw [Host.mailbox_withPending, List.length_append, List.length_singleton]
      omega

/-- A queue with fifteen commands has one place left and takes the plan, which is behind the others
then. -/
theorem Moment.planAndSend_queued_last :
    let turns := (List.replicate 15 .clear).map fun c => .move (.send c)
    let sent := Host.send (Mailbox.planAndSend .constantAndSink .constantToSink)
      (Moment.attached.play turns).host
    OpTable.constantAndSink.plan .constantToSink = .ok .constantToSink ∧
      (Moment.attached.play turns).host.Receives ∧ sent.result = .ok .constantToSink ∧
      sent.state.mailbox.pending =
        List.replicate 15 .clear ++ [.install .constantToSink] := by
  intro turns sent
  have hp := OpTable.plan_constantToSink
  have hplay := Moment.attached.play_sends (List.replicate 15 .clear) rfl (by decide)
  have hreceives : (Moment.attached.play turns).host.Receives := by
    rw [hplay]
    exact ⟨rfl, rfl, rfl⟩
  have hpending : (Moment.attached.play turns).host.mailbox.pending = List.replicate 15 .clear := by
    rw [hplay]
    rfl
  obtain ⟨hresult, hqueued, -⟩ := Moment.attached.planAndSend_queued turns hreceives hp
  refine ⟨hp, hreceives, hresult, ?_⟩
  rw [hqueued.2 (by rw [hpending]; decide), Host.mailbox_withPending]
  exact congrArg (· ++ [_]) hpending

/-- A queue with sixteen commands drops the plan. The answer is the plan all the same, and after the
next frame the session has none. -/
theorem Moment.planAndSend_dropped :
    let turns := (List.replicate 16 .clear).map fun c => .move (.send c)
    let sent := Host.send (Mailbox.planAndSend .constantAndSink .constantToSink)
      (Moment.attached.play turns).host
    (Moment.attached.play turns).host.Receives ∧ sent.result = .ok .constantToSink ∧
      .install .constantToSink ∉ sent.state.mailbox.pending ∧
      (Host.tick .zero sent.state).state.session.bind (·.plan) = none := by
  intro turns sent
  have hp := OpTable.plan_constantToSink
  have hplay := Moment.attached.play_sends (List.replicate 16 .clear) rfl (by decide)
  have hreceives : (Moment.attached.play turns).host.Receives := by
    rw [hplay]
    exact ⟨rfl, rfl, rfl⟩
  have hstate : sent.state = (Moment.attached.play turns).host := by
    show (Moment.attached.play turns).host.withMailbox _ = _
    rw [(Mailbox.planAndSend_of_plan hp _).2.1,
      (Mailbox.send_of_full hreceives.opened (by rw [hplay]; decide) _).1]
    rfl
  refine ⟨hreceives, (Mailbox.planAndSend_of_plan hp _).1, ?_, ?_⟩
  · rw [hstate, hplay]
    decide
  · rw [hstate, hplay]
    rfl

end NodeGraph
