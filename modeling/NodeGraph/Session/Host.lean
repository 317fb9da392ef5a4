import NodeGraph.Session.Basic

/-!
# Hosts and their command queue

A host sends commands to a session through a queue with a fixed number of places. The session takes
what is in the queue at the start of each frame, so a plan is never replaced during a pass.

The session can be dropped while the host goes on. If it was the receiver of the queue, the queue is
closed with it, and what is sent afterwards is lost without a report.
-/

namespace NodeGraph

/-- The queue of commands, oldest first. It holds at most `Mailbox.capacity` of them. -/
structure Mailbox where
  pending : List Command := []
  /-- Whether nobody can receive the commands any more. -/
  closed : Bool := false

namespace Mailbox

/-- The number of places. A queue with so many commands takes no further one. -/
def capacity : Nat := 16

/-- Puts a command at the end of the queue. Tells whether it was taken. A full queue drops the
command and reports it, a closed one drops it silently. -/
def send (c : Command) : Logged Mailbox Bool := fun m =>
  if m.closed then { result := false, state := m }
  else if capacity ≤ m.pending.length then
    { result := false, state := m, events := [.commandDropped c] }
  else { result := true, state := { m with pending := m.pending ++ [c] } }

/-- Plans a graph and sends the plan. It is not told whether the queue took the plan. -/
def planAndSend (table : OpTable) (g : Graph) : Logged Mailbox (Except Defect Plan) := fun m =>
  match table.plan g with
  | .error defect => { result := .error defect, state := m }
  | .ok p =>
    let sent := send (.install p) m
    { result := .ok p, state := sent.state, events := Plan.report (.ok p) ++ sent.events }

end Mailbox

/-- A host with its session and its queue. -/
structure Host where
  /-- The session, until it is dropped. -/
  session : Option Session
  mailbox : Mailbox := {}
  /-- Whether the session takes its commands from the queue. If it does not, commands stay in the
  queue. -/
  attached : Bool

namespace Host

/-- Does something with the session, if it is still there. Nothing happens otherwise, and there is
no result. -/
def withSession {α : Type} (x : Logged Session α) : Logged Host (Option α) := fun h =>
  match h.session with
  | none => { result := none, state := h }
  | some s =>
    let o := x s
    { result := some o.result, state := { h with session := some o.state }, events := o.events }

/-- Does something with the queue, such as sending a command. This is possible whether or not there
is a session. -/
def send {α : Type} (x : Logged Mailbox α) : Logged Host α := fun h =>
  let o := x h.mailbox
  { result := o.result, state := { h with mailbox := o.state }, events := o.events }

/-- One frame: the session takes the commands in its queue, and time goes by. The queue is emptied
before the session obeys. -/
def tick (time : Duration) : Logged Host (Option Bool) := fun h =>
  let commands := if h.attached then h.mailbox.pending else []
  let mailbox := if h.attached then { h.mailbox with pending := [] } else h.mailbox
  match h.session with
  | none => { result := none, state := h }
  | some _ => withSession (Session.tick commands time) { h with mailbox }

/-- Drops the session. The queue is closed if the session was its receiver, and the commands in it
are lost. -/
def drop (h : Host) : Host :=
  { h with
    session := none
    mailbox := if h.attached then { pending := [], closed := true } else h.mailbox }

end Host

end NodeGraph
