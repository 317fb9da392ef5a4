import NodeGraph.Proofs.Session.Moves

/-!
# Frames and senders interleaved

The queue is all that a session shares with those who send it commands. They may send at any time,
also while the session is taking commands out of the queue at the start of a frame. A `Moment` is a
host whose session may be in the middle of that, and a `Turn` is what comes next. A frame that
nobody interrupts is a tick of the host (`Moment.play_frame`).

The queue keeps its order and loses nothing but what is in it when the session is dropped: what it
held and has accepted since is what the session has obeyed since, followed by what it holds now
(`Moment.passes`). This is shown of one move, of one turn and then of any turns, with
`Mailbox.Passes` for what goes in and what comes out.
-/

namespace NodeGraph

/-- The call that does what a command asks for. -/
def Command.call : Command → Move
  | .install p => .install p
  | .setRate rate => .setRate rate
  | .clear => .clear

namespace Move

/-- Whether a move is one of a sender. The others are the session's owner's. -/
def isSend : Move → Bool
  | .send _ | .planAndSend .. => true
  | _ => false

/-- Whether a move is a call to the session other than a frame. -/
def isCall : Move → Bool
  | .install _ | .planAndInstall _ | .clear | .setRate _ | .runOnce => true
  | _ => false

/-- The command that a move sends. A graph with a defect has no plan to be sent. -/
def sent? : Move → Option Command
  | .send c => some c
  | .planAndSend t g => (t.plan g).toOption.map .install
  | _ => none

/-- The command that the queue takes in a move, if it takes one. -/
def accepted (m : Move) (h : Host) : List Command :=
  m.sent?.toList.filter fun c => (Mailbox.send c h.mailbox).result

end Move

namespace Host

/-- The commands that the session would take now: those in the queue, if it is attached to it. -/
def waiting (h : Host) : List Command :=
  if h.session.isSome && h.attached then h.mailbox.pending else []

/-- The host with another queue. -/
def withMailbox (h : Host) (mailbox : Mailbox) : Host :=
  { h with mailbox }

/-- The host with other commands in its queue, which is open or closed as it was. -/
def withPending (h : Host) (commands : List Command) : Host :=
  h.withMailbox { h.mailbox with pending := commands }

end Host

/-- The commands that the session takes out of the queue in a move, which only a frame does. -/
def Move.taken : Move → Host → List Command
  | .tick _, h => h.waiting
  | _, _ => []

/-- A host at some moment, perhaps in the middle of a frame. -/
structure Moment where
  host : Host
  /-- The time of the frame that the session has begun and not ended. -/
  frame : Option Duration := none

/-- What can come next. Senders and the session take turns in any order. -/
inductive Turn where
  | move (m : Move)
  /-- The session begins a frame, and has not taken a command yet. -/
  | beginFrame (time : Duration)
  /-- The session takes the next command, or ends its frame if there is none. -/
  | proceed

namespace Turn

/-- The moment after a turn. While a frame goes on, only senders can move. -/
def perform : Turn → Moment → Moment
  | .move m, x => if m.isSend || x.frame.isNone then { x with host := m.perform x.host } else x
  | .beginFrame time, x => if x.frame.isNone then { x with frame := some time } else x
  | .proceed, x =>
    match x.frame, x.host.waiting with
    | none, _ => x
    | some _, c :: rest =>
      { x with host := (Host.withSession (Session.obey c) (x.host.withPending rest)).state }
    | some time, [] => { host := (Host.tick time x.host).state }

/-- The command that the queue takes in a turn. -/
def accepted : Turn → Moment → List Command
  | .move m, x => m.accepted x.host
  | _, _ => []

/-- The commands that the session obeys in a turn. In a frame that can be interrupted it is one at a
time. -/
def obeyed : Turn → Moment → List Command
  | .move m, x => if x.frame.isNone then m.taken x.host else []
  | .beginFrame _, _ => []
  | .proceed, x => if x.frame.isNone then [] else x.host.waiting.take 1

end Turn

namespace Moment

/-- The moment after turns in order. -/
def play (x : Moment) (turns : List Turn) : Moment :=
  turns.foldl (fun x turn => turn.perform x) x

/-- The commands that the queue takes in turns, in order. -/
def accepted (x : Moment) : List Turn → List Command
  | [] => []
  | turn :: turns => turn.accepted x ++ accepted (turn.perform x) turns

/-- The commands that the session obeys in turns, in order. -/
def obeyed (x : Moment) : List Turn → List Command
  | [] => []
  | turn :: turns => turn.obeyed x ++ obeyed (turn.perform x) turns

end Moment

/-- A command to change the rate does what the call does, and ignores an error. -/
theorem Session.state_tryRate (rate : Float32) (s : Session) :
    (Session.tryRate rate s).state = (Session.obey (.setRate rate) s).state := by
  unfold Session.tryRate Session.obey
  dsimp only
  cases s.setRate rate with
  | ok s => rfl
  | error problem => rfl

namespace Host

variable {h : Host} {s : Session}

/-- The queue of a host with another queue is that one. -/
@[simp] theorem mailbox_withMailbox (h : Host) (mailbox : Mailbox) :
    (h.withMailbox mailbox).mailbox = mailbox := rfl

/-- The queue of a host with other commands holds these. -/
@[simp] theorem mailbox_withPending (h : Host) (commands : List Command) :
    (h.withPending commands).mailbox = { h.mailbox with pending := commands } := rfl

/-- A call to the session does not touch the queue, and does the same whatever is in it. -/
theorem withSession_mailbox {α : Type} (x : Logged Session α) (h : Host) (mailbox : Mailbox) :
    (withSession x (h.withMailbox mailbox)).state =
      (withSession x h).state.withMailbox mailbox := by
  obtain ⟨session, _, _⟩ := h
  cases session with
  | none => rfl
  | some s => rfl

/-- A frame is one of the session with the commands that it takes, and leaves the others. -/
theorem tick_of_session (hs : h.session = some s) (time : Duration) :
    (Host.tick time h).result = some (Session.tick h.waiting time s).result ∧
      (Host.tick time h).state =
        { h.withPending (if h.attached then [] else h.mailbox.pending) with
          session := some (Session.tick h.waiting time s).state } := by
  obtain ⟨session, mailbox, attached⟩ := h
  cases hs
  cases attached with
  | false => exact ⟨rfl, rfl⟩
  | true => exact ⟨rfl, rfl⟩

/-- Commands wait for a session that is attached to the queue. -/
theorem waiting_eq_cons_iff {c : Command} {rest : List Command} :
    h.waiting = c :: rest ↔
      ∃ s, h.session = some s ∧ h.attached = true ∧ h.mailbox.pending = c :: rest := by
  unfold waiting
  cases h.session with
  | none => simp
  | some s => cases h.attached <;> simp

/-- There is no frame without a session, and the queue stays as it is. -/
theorem tick_of_none (hs : h.session = none) (time : Duration) : (Host.tick time h).state = h := by
  unfold Host.tick
  rw [hs]

/-- A command does what its call does. -/
theorem perform_call (c : Command) (hs : h.session = some s) :
    c.call.perform h = { h with session := some (Session.obey c s).state } := by
  obtain ⟨session, mailbox, attached⟩ := h
  cases hs
  cases c with
  | install p => rfl
  | clear => rfl
  | setRate rate =>
    rw [← Session.state_tryRate]
    rfl

/-- Commands do what their calls do in turn. -/
theorem play_calls (commands : List Command) (hs : h.session = some s) :
    h.play (commands.map Command.call) =
      { h with session := some (Session.obeyAll commands s).state } := by
  induction commands generalizing h s with
  | nil =>
    obtain ⟨session, mailbox, attached⟩ := h
    cases hs
    rfl
  | cons c commands ih =>
    show (c.call.perform h).play (commands.map Command.call) = _
    rw [perform_call c hs, ih rfl]
    rfl

/-- A frame with commands in the queue is their calls and then a frame without. -/
theorem tick_eq_calls (hs : h.session = some s) (ha : h.attached = true) (time : Duration) :
    let direct := (h.withPending []).play (h.mailbox.pending.map Command.call)
    (Host.tick time h).result = (Host.tick time direct).result ∧
      (Host.tick time h).state = (Host.tick time direct).state := by
  obtain ⟨session, mailbox, attached⟩ := h
  cases hs
  cases ha
  rw [play_calls (h := (Host.mk (some s) mailbox true).withPending []) mailbox.pending rfl]
  exact ⟨rfl, rfl⟩

end Host

namespace Mailbox

/-- What sending a command comes to: the queue takes it, or is full, or is closed. -/
theorem send_cases (c : Command) (m : Mailbox) :
    ((send c m).result = true ∧ m.pending.length < capacity ∧ m.closed = false ∧
      (send c m).state = { m with pending := m.pending ++ [c] }) ∨
    ((send c m).result = false ∧ (capacity ≤ m.pending.length ∨ m.closed = true) ∧
      (send c m).state = m) := by
  unfold send
  cases hclosed : m.closed with
  | true => exact .inr ⟨rfl, .inr rfl, rfl⟩
  | false =>
    by_cases hfull : capacity ≤ m.pending.length
    · simp only [hfull, Bool.false_eq_true, if_false, if_true]
      exact .inr ⟨trivial, .inl trivial, trivial⟩
    · simp only [hfull, Bool.false_eq_true, if_false]
      exact .inl ⟨trivial, Nat.lt_of_not_le hfull, trivial, trivial⟩

/-- A command is refused exactly if the queue is full or closed. -/
theorem send_result_eq_false_iff (c : Command) (m : Mailbox) :
    (send c m).result = false ↔ capacity ≤ m.pending.length ∨ m.closed = true := by
  rcases send_cases c m with ⟨hresult, hroom, hopen, -⟩ | ⟨hresult, hwhy, -⟩
  · simp only [hresult, hopen, Bool.false_eq_true, Bool.true_eq_false, or_false, false_iff]
    omega
  · simp only [hresult, hwhy]

/-- A command that is refused changes nothing. -/
theorem send_state_of_refused {c : Command} {m : Mailbox} (h : (send c m).result = false) :
    (send c m).state = m := by
  rcases send_cases c m with ⟨hresult, -⟩ | ⟨-, -, hstate⟩
  · rw [hresult] at h
    cases h
  · exact hstate

/-- Between two states of a queue it has taken in some commands and passed on others, in order. -/
structure Passes (m m' : Mailbox) (accepted taken : List Command) : Prop where
  /-- A queue that is open has lost nothing. -/
  exact : m'.closed = false → m.pending ++ accepted = taken ++ m'.pending
  inOrder : taken ++ m'.pending <+: m.pending ++ accepted
  /-- A queue that is closed stays so and takes in nothing. -/
  closed : m.closed = true → m'.closed = true ∧ accepted = []

namespace Passes

variable {m m' m'' : Mailbox} {accepted taken accepted' taken' : List Command}

/-- A queue that is not closed on the way loses nothing. -/
theorem of_eq (h : m.pending ++ accepted = taken ++ m'.pending) (hsame : m'.closed = m.closed)
    (hclosed : m.closed = true → accepted = []) : m.Passes m' accepted taken :=
  ⟨fun _ => h, h ▸ List.prefix_rfl, fun hm => ⟨hsame.trans hm, hclosed hm⟩⟩

/-- Nothing goes in and nothing comes out. -/
theorem refl (m : Mailbox) : m.Passes m [] [] :=
  of_eq (List.append_nil _) rfl fun _ => rfl

/-- What goes in and what comes out one time after the other. -/
theorem trans (h : m.Passes m' accepted taken) (h' : m'.Passes m'' accepted' taken') :
    m.Passes m'' (accepted ++ accepted') (taken ++ taken') where
  exact hopen := by
    -- A closed queue stays closed, so one that is open now was open on the way.
    cases hopen' : m'.closed with
    | true =>
      rw [(h'.closed hopen').1] at hopen
      cases hopen
    | false =>
      rw [← List.append_assoc, h.exact hopen', List.append_assoc, h'.exact hopen,
        List.append_assoc]
  inOrder := by
    rw [List.append_assoc]
    have hrest := (List.prefix_append_right_inj taken).2 h'.inOrder
    -- What was lost on the way was lost for good: nothing has been taken in since.
    cases hopen : m'.closed with
    | false =>
      rw [← List.append_assoc m.pending, h.exact hopen, List.append_assoc taken]
      exact hrest
    | true =>
      obtain ⟨-, rfl⟩ := h'.closed hopen
      rw [List.append_nil] at hrest ⊢
      exact hrest.trans h.inOrder
  closed hclosed := by
    obtain ⟨hclosed', rfl⟩ := h.closed hclosed
    exact h'.closed hclosed'

end Passes

end Mailbox

namespace Move

variable {m : Move} {h : Host}

/-- A call leaves the queue as it is, and does the same whatever is in it. -/
theorem perform_mailbox (hm : m.isCall) (h : Host) (mailbox : Mailbox) :
    m.perform (h.withMailbox mailbox) = (m.perform h).withMailbox mailbox := by
  cases m with
  | install | planAndInstall | clear | setRate | runOnce =>
    exact h.withSession_mailbox _ mailbox
  | tick | send | planAndSend | drop => cases hm

/-- A call leaves the queue as it is. -/
theorem mailbox_perform (hm : m.isCall) (h : Host) : (m.perform h).mailbox = h.mailbox := by
  show (m.perform (h.withMailbox h.mailbox)).mailbox = h.mailbox
  rw [perform_mailbox hm, Host.mailbox_withMailbox]

/-- The queue takes a command if it has room for it and is not closed. -/
theorem accepted_of_sent {c : Command} (hc : m.sent? = some c) (h : Host) :
    m.accepted h = if (Mailbox.send c h.mailbox).result then [c] else [] := by
  rw [accepted, hc, Option.toList_some, List.filter_cons, List.filter_nil]

/-- Only senders put commands into the queue. -/
theorem accepted_of_not_isSend (hm : m.isSend = false) (h : Host) : m.accepted h = [] := by
  cases m with
  | send | planAndSend => cases hm
  | install | planAndInstall | clear | setRate | runOnce | tick | drop => rfl

/-- A sender's move sends its command, if it has one. -/
theorem perform_eq_send (hm : m.isSend) (h : Host) :
    m.perform h =
      m.sent?.elim h fun c => { h with mailbox := (Mailbox.send c h.mailbox).state } := by
  cases m with
  | send c => rfl
  | planAndSend t g =>
    simp only [perform, Host.send, Mailbox.planAndSend, sent?]
    cases t.plan g with
    | error defect => rfl
    | ok p => rfl
  | install | planAndInstall | clear | setRate | runOnce | tick | drop => cases hm

/-- A sender's move puts the command at the end of the queue, if the queue takes it. -/
theorem perform_of_isSend (hm : m.isSend) (h : Host) :
    m.perform h = h.withPending (h.mailbox.pending ++ m.accepted h) := by
  rw [perform_eq_send hm]
  cases hc : m.sent? with
  | none =>
    rw [accepted, hc, Option.toList_none, List.filter_nil, List.append_nil]
    rfl
  | some c =>
    rw [accepted_of_sent hc, Option.elim_some]
    rcases Mailbox.send_cases c h.mailbox with ⟨hresult, -, -, hstate⟩ | ⟨hresult, -, hstate⟩
    · rw [hstate, hresult]
      rfl
    · rw [hstate, hresult, if_neg Bool.false_ne_true, List.append_nil]
      rfl

/-- A queue that is closed takes nothing. -/
theorem accepted_of_closed (hclosed : h.mailbox.closed = true) (m : Move) : m.accepted h = [] := by
  rw [accepted, List.filter_eq_nil_iff]
  intro c _
  rw [(Mailbox.send_result_eq_false_iff c h.mailbox).2 (.inr hclosed)]
  exact Bool.false_ne_true

/-- A queue takes no more than it has places for. -/
theorem length_pending_add_accepted_le (hroom : h.mailbox.pending.length ≤ Mailbox.capacity)
    (m : Move) : h.mailbox.pending.length + (m.accepted h).length ≤ Mailbox.capacity := by
  cases hc : m.sent? with
  | none => simpa [accepted, hc] using hroom
  | some c =>
    rw [accepted_of_sent hc]
    rcases Mailbox.send_cases c h.mailbox with ⟨hresult, hlt, -⟩ | ⟨hresult, -⟩
    · rw [hresult]
      exact hlt
    · rw [hresult]
      exact hroom

/-- A frame takes the commands that wait, and leaves the others. -/
theorem waiting_append_pending (h : Host) (time : Duration) :
    h.waiting ++ ((Move.tick time).perform h).mailbox.pending = h.mailbox.pending ∧
      ((Move.tick time).perform h).mailbox.closed = h.mailbox.closed := by
  simp only [perform]
  cases hs : h.session with
  | none =>
    rw [Host.tick_of_none hs]
    simp [Host.waiting, hs]
  | some s =>
    rw [(Host.tick_of_session hs time).2]
    cases ha : h.attached with
    | false => simp [Host.waiting, ha]
    | true => simp [Host.waiting, hs, ha]

/-- The queue passes on in a move what the session takes. -/
theorem passes (m : Move) (h : Host) :
    h.mailbox.Passes (m.perform h).mailbox (m.accepted h) (m.taken h) := by
  have hclosed : h.mailbox.closed = true → m.accepted h = [] := fun hc => accepted_of_closed hc m
  cases m with
  | install | planAndInstall | clear | setRate | runOnce =>
    rw [mailbox_perform (by rfl)]
    exact .of_eq (List.append_nil _) rfl hclosed
  | send | planAndSend =>
    rw [perform_of_isSend (by rfl)]
    exact .of_eq rfl rfl hclosed
  | tick time =>
    obtain ⟨hpending, hsame⟩ := waiting_append_pending h time
    exact .of_eq ((List.append_nil _).trans hpending.symm) hsame hclosed
  | drop =>
    cases ha : h.attached with
    | false =>
      have hsame : (perform .drop h).mailbox = h.mailbox := by simp [perform, Host.drop, ha]
      rw [hsame]
      exact .of_eq (List.append_nil _) rfl hclosed
    | true =>
      have hgone : (perform .drop h).mailbox = { pending := [], closed := true } := by
        simp [perform, Host.drop, ha]
      rw [hgone]
      exact ⟨nofun, List.nil_prefix, fun hc => ⟨rfl, hclosed hc⟩⟩

/-- The session takes no commands in a sender's move. -/
theorem taken_of_isSend (hm : m.isSend) (h : Host) : m.taken h = [] := by
  cases m with
  | send | planAndSend => rfl
  | install | planAndInstall | clear | setRate | runOnce | tick | drop => cases hm

end Move

namespace Turn

/-- A session that has a command to take obeys it, and the others stay in the queue. -/
theorem perform_proceed {h : Host} {c : Command} {rest : List Command} (hw : h.waiting = c :: rest)
    (time : Duration) :
    Turn.proceed.perform ⟨h, some time⟩ = ⟨c.call.perform (h.withPending rest), some time⟩ := by
  obtain ⟨s, hs, -, -⟩ := Host.waiting_eq_cons_iff.1 hw
  rw [Host.perform_call (h := h.withPending rest) c hs]
  simp only [perform, hw, Host.withSession]
  rw [show (h.withPending rest).session = some s from hs]

/-- The queue passes on in a turn what the session obeys. -/
theorem passes (turn : Turn) (x : Moment) :
    x.host.mailbox.Passes (turn.perform x).host.mailbox (turn.accepted x) (turn.obeyed x) := by
  obtain ⟨h, frame⟩ := x
  cases turn with
  | move m =>
    cases frame with
    | none =>
      simp only [perform, obeyed, Option.isNone_none, Bool.or_true, if_true]
      exact m.passes h
    | some time =>
      cases hm : m.isSend with
      | true =>
        have hpasses := m.passes h
        rw [m.taken_of_isSend hm] at hpasses
        simp only [perform, obeyed, hm, Bool.true_or, if_true, Option.isNone_some]
        exact hpasses
      | false =>
        simp only [perform, obeyed, accepted, hm, Option.isNone_some, Bool.or_self,
          Bool.false_eq_true, if_false, m.accepted_of_not_isSend hm]
        exact .refl _
  | beginFrame time =>
    cases frame with
    | none => exact .refl _
    | some _ => exact .refl _
  | proceed =>
    cases frame with
    | none => exact .refl _
    | some time =>
      cases hw : h.waiting with
      | nil =>
        have hpasses := (Move.tick time).passes h
        simp only [perform, obeyed, hw]
        rw [Move.taken, hw] at hpasses
        exact hpasses
      | cons c rest =>
        obtain ⟨s, hs, -, hpending⟩ := Host.waiting_eq_cons_iff.1 hw
        rw [perform_proceed hw, Host.perform_call (h := h.withPending rest) c hs]
        simp only [obeyed, hw]
        exact .of_eq ((List.append_nil _).trans hpending) rfl fun _ => rfl

/-- A turn leaves no more in a queue than it has places for. -/
theorem length_pending_le {x : Moment} (hroom : x.host.mailbox.pending.length ≤ Mailbox.capacity)
    (turn : Turn) : (turn.perform x).host.mailbox.pending.length ≤ Mailbox.capacity := by
  have haccepted :
      x.host.mailbox.pending.length + (turn.accepted x).length ≤ Mailbox.capacity := by
    cases turn with
    | move m => exact m.length_pending_add_accepted_le hroom
    | beginFrame time => exact hroom
    | proceed => exact hroom
  have hle := (turn.passes x).inOrder.length_le
  simp only [List.length_append] at hle
  omega

end Turn

namespace Moment

/-- The queue passes on in turns what the session obeys, by induction on the turns. -/
theorem passes (x : Moment) (turns : List Turn) :
    x.host.mailbox.Passes (x.play turns).host.mailbox (x.accepted turns) (x.obeyed turns) := by
  induction turns generalizing x with
  | nil => exact .refl _
  | cons turn turns ih => exact (turn.passes x).trans (ih (turn.perform x))

/-- A queue never holds more than it has places for, whatever happens. -/
theorem length_pending_le {x : Moment} (hroom : x.host.mailbox.pending.length ≤ Mailbox.capacity)
    (turns : List Turn) :
    (x.play turns).host.mailbox.pending.length ≤ Mailbox.capacity := by
  induction turns generalizing x with
  | nil => exact hroom
  | cons turn turns ih => exact ih (turn.length_pending_le hroom)

/-- A frame that has begun ends as a tick does, if nobody interrupts it. By induction on the
commands that wait. -/
theorem play_proceed (h : Host) (time : Duration) :
    (Moment.mk h (some time)).play (List.replicate (h.waiting.length + 1) .proceed) =
      { host := (Host.tick time h).state } := by
  generalize hw : h.waiting = commands
  induction commands generalizing h with
  | nil =>
    show Turn.proceed.perform ⟨h, some time⟩ = _
    simp only [Turn.perform, hw]
  | cons c rest ih =>
    obtain ⟨s, hs, ha, hpending⟩ := Host.waiting_eq_cons_iff.1 hw
    obtain ⟨session, ⟨pending, closed⟩, attached⟩ := h
    cases hs
    cases ha
    cases hpending
    rw [List.length_cons, List.replicate_succ]
    show (Turn.proceed.perform ⟨_, some time⟩).play (List.replicate (rest.length + 1) .proceed) = _
    rw [Turn.perform_proceed hw, Host.perform_call c rfl, ih _ rfl]
    rfl

/-- A frame that nobody interrupts is a tick. -/
theorem play_frame {x : Moment} (hx : x.frame = none) (time : Duration) :
    x.play (.beginFrame time :: List.replicate (x.host.waiting.length + 1) .proceed) =
      { host := (Host.tick time x.host).state } := by
  obtain ⟨h, frame⟩ := x
  cases hx
  exact play_proceed h time

end Moment

end NodeGraph
