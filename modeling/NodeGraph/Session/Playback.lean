import NodeGraph.Session.Basic

/-!
# Playing frames

A playback lets a session live through frames of one length, and keeps what its passes gave. It
stops at the frame that leaves the session faulted. No commands arrive, so that the session has one
plan throughout.
-/

namespace NodeGraph

/-- What has been played: the session as it is now, and what its passes gave on the way. -/
structure Playback where
  session : Session
  /-- The number of frames so far. The next frame has this number, since frames are numbered from
  zero. -/
  frames : Nat := 0
  /-- The frames in which a pass came to its end, and what it gave. -/
  passes : Array (Nat × Readout) := #[]

namespace Playback

/-- The frame that left the session faulted, if one did. It is the last one that was played. -/
def faultedAt? (p : Playback) : Option Nat :=
  if p.session.fault.isSome then some (p.frames - 1) else none

/-- Plays one more frame, unless the session is faulted. -/
def next (time : Duration) (p : Playback) : Playback :=
  if p.session.fault.isSome then p
  else
    let frame := Session.tick [] time p.session
    { session := frame.state
      frames := p.frames + 1
      passes := if frame.result then p.passes.push (p.frames, frame.state.readout) else p.passes }

/-- Plays `count` more frames, or up to a fault. The frame with the fault is counted. -/
def advance (count : Nat) (time : Duration) (p : Playback) : Playback :=
  Nat.repeat (next time) count p

end Playback

end NodeGraph
