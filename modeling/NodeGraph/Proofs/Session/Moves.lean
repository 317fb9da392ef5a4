import NodeGraph.Session.Host

/-!
# Moves of a host

Whatever happens to a host is a sequence of moves: calls to its session, commands sent through the
queue, and the session's end. `Host.play` plays moves in turn, and `Host.received` lists the plans
that the session takes over meanwhile. If each move keeps a property as long as the session takes
over good plans in it, the property holds after all of them (`Host.play_induction`).

A run starts with a host whose session is new (`Host.New`), with or without settings. Nothing is
assumed about the queue at that time, nor about the order of moves.
-/

namespace NodeGraph

/-- A session that nothing has been done to, made with settings or without. -/
inductive Session.New (t : OpTable) : Session → Prop
  | start (stream : Random.Stream) : New t (.start t stream)
  | ofSettings {settings : Settings} {entropy : Random.Stream} {s : Session}
      (h : Session.ofSettings settings t entropy = .ok s) : New t s

/-- A host with a new session, whatever is in its queue. -/
def Host.New (t : OpTable) (h : Host) : Prop :=
  ∃ s, h.session = some s ∧ s.New t

/-- Changes the rate of a session. A rate that cannot be used leaves the session as it is. -/
def Session.tryRate (rate : Float32) : Logged Session (Except SettingsProblem Unit) := fun s =>
  match s.setRate rate with
  | .ok s => { result := .ok (), state := s }
  | .error problem => { result := .error problem, state := s }

/-- The plan that a command installs. -/
def Command.plan? : Command → Option Plan
  | .install p => some p
  | .setRate _ | .clear => none

/-- What can happen to a host. Each call of the session is a move, and so is each thing that a
sender can do. -/
inductive Move where
  | install (p : Plan)
  | planAndInstall (g : Graph)
  | clear
  | setRate (rate : Float32)
  | runOnce
  | tick (time : Duration)
  /-- A command goes into the queue, or is dropped by it. -/
  | send (c : Command)
  /-- A graph is planned with the sender's table, and the plan goes into the queue. -/
  | planAndSend (t : OpTable) (g : Graph)
  /-- The session is dropped, and no other one comes. -/
  | drop

namespace Move

/-- The host after a move. Calls to a session that has been dropped do nothing. -/
def perform : Move → Host → Host
  | .install p, h => (Host.withSession (Session.install p) h).state
  | .planAndInstall g, h => (Host.withSession (Session.planAndInstall g) h).state
  | .clear, h => (Host.withSession (Logged.update Session.clear) h).state
  | .setRate rate, h => (Host.withSession (Session.tryRate rate) h).state
  | .runOnce, h => (Host.withSession Session.runOnce h).state
  | .tick time, h => (Host.tick time h).state
  | .send c, h => (Host.send (Mailbox.send c) h).state
  | .planAndSend t g, h => (Host.send (Mailbox.planAndSend t g) h).state
  | .drop, h => h.drop

/-- The plans that a session takes over in a move. A command counts when the session obeys it and
not when it is sent, since the queue may drop it. A graph that the session plans itself does not
count. -/
def received : Move → Host → List Plan
  | .install p, h => if h.session.isSome then [p] else []
  | .tick _, h =>
    if h.session.isSome && h.attached then h.mailbox.pending.filterMap Command.plan? else []
  | _, _ => []

end Move

namespace Host

/-- The host after moves in turn. -/
def play (h : Host) (moves : List Move) : Host :=
  moves.foldl (fun h m => m.perform h) h

/-- The plans that the session takes over in moves in turn. -/
def received (h : Host) : List Move → List Plan
  | [] => []
  | m :: moves => m.received h ++ received (m.perform h) moves

/-- What each move keeps, if the session takes over good plans in it, holds after all of them. By
induction on the moves. -/
theorem play_induction {P : Host → Prop} {Good : Plan → Prop} {moves : List Move} {h : Host}
    (hmove : ∀ (m : Move) h, P h → (∀ p ∈ m.received h, Good p) → P (m.perform h)) (hP : P h)
    (hgood : ∀ p ∈ h.received moves, Good p) : P (h.play moves) := by
  induction moves generalizing h with
  | nil => exact hP
  | cons m moves ih =>
    obtain ⟨hm, hmoves⟩ := List.forall_mem_append.1 hgood
    exact ih (hmove m h hP hm) hmoves

end Host

end NodeGraph
