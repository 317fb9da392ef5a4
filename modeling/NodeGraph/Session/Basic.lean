import NodeGraph.Pass.Readout
import NodeGraph.Plan.OfGraph
import NodeGraph.Settings.Basic

/-!
# Sessions

A session owns an installed plan, the slots it runs on, and the pacer that says when. Every frame of
the host is a `Session.tick`: commands first, then time, then at most one pass. A pass that meets a
fault leaves the session faulted until another plan is installed.

The scratch lists of passes belong to the session. They are handed from pass to pass and never
cleared in between, neither when a plan is installed nor when it is removed.
-/

namespace NodeGraph

/-- The plan of a graph with the operations of a table. The table is asked for nothing but which
numbers it has. -/
def OpTable.plan (t : OpTable) (g : Graph) : Except Defect Plan :=
  g.plan t.contains

/-- What is reported about planning a graph. A defect is reported by the session that was asked to
install the plan, if at all. -/
def Plan.report : Except Defect Plan → List Event
  | .ok p => [.planned p.stats]
  | .error _ => []

/-- A running graph: a plan with everything that it needs to be run, and what its passes have
given. -/
structure Session where
  table : OpTable
  context : Context
  plan : Option Plan := none
  store : SlotStore := {}
  /-- The lists that passes use. They are never looked at between passes. -/
  scratch : Scratch := {}
  pacer : Pacer := .standard
  /-- The results of the last pass that came to its end, whichever plan that was a pass of. -/
  readout : Readout := .zero
  fault : Option Fault := none
  /-- The number of passes that came to their end, since the session was made. It is a number
  without a bound; `Host.New.passes_lt_size` says for how long a counter of 64 bits agrees with
  it. -/
  passes : Nat := 0
  /-- Whether planning a graph is also reported in numbers, besides the report that every plan
  is. -/
  logStats : Bool := false

namespace Session

/-- A session without a plan and at the standard rate, which has counted nothing. -/
def start (table : OpTable) (stream : Random.Stream) : Session :=
  { table, context := { stream } }

/-- A session without a plan. `entropy` is the random stream where the settings have no seed. Only
the rate in the settings can be refused. -/
def ofSettings (settings : Settings) (table : OpTable) (entropy : Random.Stream) :
    Except SettingsProblem Session := do
  let pacer ← Pacer.ofRate settings.rate
  let stream := (settings.seed.map Random.Stream.ofSeed).getD entropy
  return { start table stream with pacer, logStats := settings.logStats }

/-- The parameters of the installed plan, none without a plan. -/
def parameters (s : Session) : List Parameter :=
  (s.plan.map (·.parameters)).getD []

/-- The session with a plan in place of the present one. A fault and the count of fallbacks are
forgotten; the pacer is not touched. The readout stays until a pass comes to its end. -/
def withPlan (p : Plan) (s : Session) : Session :=
  { s with
    plan := some p
    store := .ofSize p.slotCount
    fault := none
    context := s.context.resetTally }

/-- Installs a plan, and reports it. Nothing is checked about the plan. -/
def install (p : Plan) : Logged Session Unit := do
  Logged.report (.planInstalled p.stats)
  Logged.update (withPlan p)

/-- Removes the plan and drops the time since the last pass. The readout stays, as do all counts. -/
def clear (s : Session) : Session :=
  { s with plan := none, store := {}, fault := none, pacer := s.pacer.reset }

/-- Plans a graph and installs the plan. A graph with a defect leaves the session as it is. -/
def planAndInstall (g : Graph) : Logged Session (Except Defect Unit) := fun s =>
  match s.table.plan g with
  | .error defect => { result := .error defect, state := s, events := [.planRejected defect] }
  | .ok p =>
    let stats := if s.logStats then [.planStats p.stats] else []
    let installed := install p s
    { result := .ok ()
      state := installed.state
      events := Plan.report (.ok p) ++ stats ++ installed.events }

/-- What a pass of the session works on: its slots, its context and its scratch lists. -/
def frame (s : Session) : Frame where
  store := s.store
  context := s.context
  scratch := s.scratch

/-- The session with what a pass has left, whether the pass came to its end or not. -/
def withFrame (s : Session) (f : Frame) : Session :=
  { s with store := f.store, context := f.context, scratch := f.scratch }

/-- Runs one pass now. Tells whether it came to its end, which it does not without a plan or in a
faulted session. The sink is read only after a pass that came to its end. -/
def runOnce : Logged Session Bool := fun s =>
  match s.fault, s.plan with
  | none, some p =>
    let progress := p.pass s.table s.frame
    let s := s.withFrame progress.state
    match progress.result with
    | none =>
      let read := Readout.read p s.store s.context
      { result := true
        state := { s with context := read.state, readout := read.result, passes := s.passes + 1 }
        events := progress.events ++ read.events }
    | some fault =>
      { result := false
        state := { s with fault := some fault }
        events := progress.events ++ [.faulted fault] }
  | _, _ => { result := false, state := s }

/-- Changes the rate. The time since the last pass goes on counting, and may already be more than
the new interval. -/
def setRate (s : Session) (rate : Float32) : Except SettingsProblem Session := do
  return { s with pacer := ← s.pacer.setRate rate }

/-- Obeys a command. A rate that cannot be used is reported and otherwise ignored. -/
def obey : Command → Logged Session Unit
  | .install p => install p
  | .clear => Logged.update clear
  | .setRate rate => fun s =>
    match s.setRate rate with
    | .ok s => { result := (), state := s }
    | .error problem =>
      { result := (), state := s, events := [.rateRejected (.settings problem)] }

/-- Obeys commands in order, each in the session that the one before has left. -/
def obeyAll : List Command → Logged Session Unit
  | [] => return ()
  | c :: rest => do
    obey c
    obeyAll rest

/-- Lets time go by for the pacer. Tells whether a pass is due. -/
def advance (time : Duration) : Logged Session Bool := fun s =>
  let (due, pacer) := s.pacer.tick time
  { result := due, state := { s with pacer } }

/-- One frame of the host: the commands that have arrived, then the time since the last frame, then
a pass if one is due. Tells whether a pass came to its end. -/
def tick (commands : List Command) (time : Duration) : Logged Session Bool := do
  obeyAll commands
  if ← advance time then runOnce else return false

end Session

end NodeGraph
