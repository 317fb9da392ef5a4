import NodeGraph.Proofs.Pass.Faults
import NodeGraph.Proofs.Session.Moves

/-!
# Sessions without faults

A pass of a plan stops only where the table has no operation for a step (`Plan.pass_result`). A
session that takes over no other plans than ones made for operations that it has is therefore never
faulted, whatever is done to it (`OpTable.plan_faultless`).

The plans that a session makes itself are of this kind. Those that are given to it need not be,
which is why the plans that it takes over are listed along a run (`Host.received`).
-/

namespace NodeGraph

/-- A plan can be run with a table if its slots fit and the table has all its operations. -/
structure Plan.Runs (t : OpTable) (p : Plan) : Prop where
  fits : ∀ s ∈ p.steps, s.Fits p.slotCount
  known : ∀ s ∈ p.steps, t.contains s.op

/-- A plan was made for a table if it is the plan of a graph with operations that the table has. -/
def Plan.MadeFor (t : OpTable) (p : Plan) : Prop :=
  ∃ (t' : OpTable) (g : Graph), t'.plan g = .ok p ∧ ∀ op, t'.contains op → t.contains op

/-- A plan that was made for a table can be run with it. -/
theorem Plan.MadeFor.runs {t : OpTable} {p : Plan} (h : p.MadeFor t) : p.Runs t := by
  obtain ⟨t', g, hp, hsub⟩ := h
  exact ⟨Graph.plan_fits hp, fun s hs => hsub s.op (Graph.plan_known hp s hs)⟩

/-- A session that is not faulted and whose plan, if it has one, can be run. -/
structure Session.Sane (t : OpTable) (s : Session) : Prop where
  table : s.table = t
  fault : s.fault = none
  plan : ∀ p, s.plan = some p → p.Runs t

/-- A host whose session, if it is still there, is sane. -/
def Host.Sane (t : OpTable) (h : Host) : Prop :=
  ∀ s, h.session = some s → s.Sane t

namespace Session

variable {t : OpTable} {s : Session} {p : Plan}

/-- Settings choose the pacer of a new session, its stream and what it reports, and nothing else. -/
theorem New.eq_start (h : s.New t) :
    ∃ stream pacer logStats, s = { Session.start t stream with pacer, logStats } := by
  cases h with
  | start stream => exact ⟨stream, _, _, rfl⟩
  | ofSettings h =>
    obtain ⟨pacer, -, h⟩ := bind_eq_ok_iff.1 h
    cases h
    exact ⟨_, pacer, _, rfl⟩

/-- A new session is sane, since it has no plan. -/
theorem New.sane (h : s.New t) : s.Sane t := by
  obtain ⟨stream, pacer, logStats, rfl⟩ := h.eq_start
  exact ⟨rfl, rfl, nofun⟩

/-- With another pacer a session is as sane as before. -/
theorem Sane.withPacer (h : s.Sane t) (pacer : Pacer) : ({ s with pacer } : Session).Sane t :=
  ⟨h.table, h.fault, h.plan⟩

/-- Installing a plan that can be run leaves a session sane. -/
theorem Sane.install (h : s.Sane t) (hp : p.Runs t) : (Session.install p s).state.Sane t :=
  ⟨h.table, rfl, fun _ hq => Option.some.inj hq ▸ hp⟩

/-- Planning a graph and installing the plan leaves a session sane, whether or not the graph has a
defect. -/
theorem Sane.planAndInstall (h : s.Sane t) (g : Graph) :
    (Session.planAndInstall g s).state.Sane t := by
  unfold Session.planAndInstall
  cases hp : s.table.plan g with
  | error defect => exact h
  | ok p => exact h.install (Plan.MadeFor.runs ⟨s.table, g, hp, fun op => h.table ▸ id⟩)

/-- Removing the plan leaves a session sane. -/
theorem Sane.clear (h : s.Sane t) : s.clear.Sane t :=
  ⟨h.table, rfl, nofun⟩

/-- Changing the rate leaves a session sane. -/
theorem Sane.setRate {s' : Session} {rate : Float32} (h : s.Sane t)
    (hs : s.setRate rate = .ok s') : s'.Sane t := by
  obtain ⟨pacer, -, hs⟩ := bind_eq_ok_iff.1 hs
  cases hs
  exact h.withPacer pacer

/-- A pass leaves a session sane, since the plan can be run. -/
theorem Sane.runOnce (h : s.Sane t) : (Session.runOnce s).state.Sane t := by
  unfold Session.runOnce
  rw [h.fault]
  cases hp : s.plan with
  | none => exact h
  | some p =>
    have hresult : (p.pass s.table s.frame).result = none := by
      rw [Plan.pass_result_eq_none_iff (h.plan p hp).fits, h.table]
      exact (h.plan p hp).known
    dsimp only
    rw [hresult]
    exact ⟨h.table, h.fault, h.plan⟩

/-- Trying to change the rate leaves a session sane. -/
theorem Sane.tryRate (h : s.Sane t) (rate : Float32) : (Session.tryRate rate s).state.Sane t := by
  unfold Session.tryRate
  split
  · exact h.setRate ‹_›
  · exact h

/-- A command leaves a session sane if the plan that it installs can be run. -/
theorem Sane.obey {c : Command} (h : s.Sane t) (hc : ∀ p, c.plan? = some p → p.Runs t) :
    (Session.obey c s).state.Sane t := by
  cases c with
  | install p => exact h.install (hc p rfl)
  | clear => exact h.clear
  | setRate rate =>
    unfold Session.obey
    dsimp only
    split
    · exact h.setRate ‹_›
    · exact h

/-- Commands leave a session sane if the plans that they install can be run. -/
theorem Sane.obeyAll {commands : List Command} (h : s.Sane t)
    (hc : ∀ p ∈ commands.filterMap Command.plan?, p.Runs t) :
    (Session.obeyAll commands s).state.Sane t := by
  induction commands generalizing s with
  | nil => exact h
  | cons c commands ih =>
    have hfirst : (Session.obey c s).state.Sane t :=
      h.obey fun p hp => hc p (List.mem_filterMap.2 ⟨c, List.mem_cons_self, hp⟩)
    refine ih hfirst fun p hp => hc p ?_
    obtain ⟨c', hc', hp⟩ := List.mem_filterMap.1 hp
    exact List.mem_filterMap.2 ⟨c', List.mem_cons_of_mem c hc', hp⟩

/-- A frame leaves a session sane if the plans that its commands install can be run. -/
theorem Sane.tick {commands : List Command} (h : s.Sane t)
    (hc : ∀ p ∈ commands.filterMap Command.plan?, p.Runs t) (time : Duration) :
    (Session.tick commands time s).state.Sane t := by
  have hadvanced := (h.obeyAll hc).withPacer
    ((Session.obeyAll commands s).state.pacer.tick time).2
  show ((if ((Session.obeyAll commands s).state.pacer.tick time).1 then Session.runOnce
    else return false : Logged Session Bool) _).state.Sane t
  split
  · exact hadvanced.runOnce
  · exact hadvanced

end Session

namespace Host

variable {t : OpTable} {h : Host}

/-- A new host is sane, whatever is in its queue. -/
theorem New.sane (hh : h.New t) : h.Sane t := by
  obtain ⟨s, hs, hnew⟩ := hh
  intro s' hs'
  cases hs.symm.trans hs'
  exact hnew.sane

/-- A call that leaves the session sane leaves the host sane. -/
theorem Sane.withSession {α : Type} {x : Logged Session α} (hh : h.Sane t)
    (hx : ∀ s, h.session = some s → s.Sane t → (x s).state.Sane t) :
    (Host.withSession x h).state.Sane t := by
  unfold Host.withSession
  cases hs : h.session with
  | none => exact hh
  | some s => exact fun s' hs' => Option.some.inj hs' ▸ hx s hs (hh s hs)

/-- A frame leaves a host sane: the session obeys the commands in its queue, or none. -/
theorem Sane.tick {time : Duration} (hh : h.Sane t)
    (hp : ∀ p ∈ (Move.tick time).received h, p.Runs t) : (Host.tick time h).state.Sane t := by
  obtain ⟨session, mailbox, attached⟩ := h
  cases session with
  | none => exact hh
  | some s =>
    cases attached with
    | false =>
      exact Sane.withSession (h := ⟨some s, mailbox, false⟩) hh
        fun s _ hs => hs.tick (List.forall_mem_nil _) time
    | true =>
      exact Sane.withSession (h := ⟨some s, { mailbox with pending := [] }, true⟩) hh
        fun s _ hs => hs.tick hp time

/-- A move leaves a host sane if the plans that its session takes over can be run. -/
theorem Sane.perform {m : Move} (hh : h.Sane t) (hp : ∀ p ∈ m.received h, p.Runs t) :
    (m.perform h).Sane t := by
  cases m with
  | install p =>
    refine hh.withSession fun s hs hsane => hsane.install (hp p ?_)
    simp [Move.received, hs]
  | planAndInstall g => exact hh.withSession fun s _ hs => hs.planAndInstall g
  | clear => exact hh.withSession fun s _ hs => hs.clear
  | setRate rate => exact hh.withSession fun s _ hs => hs.tryRate rate
  | runOnce => exact hh.withSession fun s _ hs => hs.runOnce
  | tick time => exact hh.tick hp
  | send c => exact hh
  | planAndSend t' g => exact hh
  | drop => exact nofun

end Host

/-- A plan asks for nothing that it does not have. A pass of it, with whatever table, stops only
where the table lacks an operation, which is then the one that it reports. A session that takes over
no other plans than ones made for its operations is therefore never faulted. -/
theorem OpTable.plan_faultless (t : OpTable) :
    (∀ (g : Graph) (p : Plan), t.plan g = .ok p → ∀ (t' : OpTable) (f : Frame),
      ((p.pass t' f).result = none ↔ ∀ s ∈ p.steps, t'.contains s.op) ∧
      (∀ before s after, p.steps = before ++ s :: after → (∀ s' ∈ before, t'.contains s'.op) →
        ¬t'.contains s.op → (p.pass t' f).result = some (.unknownOperation s.op)) ∧
      ∀ slot size, (p.pass t' f).result ≠ some (.slotOutOfBounds slot size)) ∧
    ∀ (h : Host) (moves : List Move), h.New t → (∀ p ∈ h.received moves, p.MadeFor t) →
      ∀ s, (h.play moves).session = some s → s.fault = none := by
  constructor
  · intro g p hp t' f
    have hfits := Graph.plan_fits hp
    exact ⟨Plan.pass_result_eq_none_iff hfits f,
      fun _ _ _ => Plan.pass_result_of_not_contains hfits f,
      Plan.pass_result_ne_slotOutOfBounds hfits f⟩
  · intro h moves hnew hmade s hs
    have hsane : (h.play moves).Sane t :=
      Host.play_induction (fun m h hh hp => hh.perform hp) hnew.sane
        fun p hp => (hmade p hp).runs
    exact (hsane s hs).fault

/-- A constant that is wired to the sink, and the sink's other input with a literal. -/
def Graph.constantToSink : Graph where
  nodes :=
    [{ id := ⟨1⟩, op := ⟨1, 1⟩, ports := [.input 0 "n" .integer, .input 1 "b" .bool],
       literals := [.absent, .bool true] },
     { id := ⟨2⟩, op := ⟨2, 1⟩, ports := [.output 0 "n" .integer], literals := [.integer 7] }]
  wires := [⟨⟨⟨2⟩, 0⟩, ⟨⟨1⟩, 0⟩⟩]

/-- The plan of `Graph.constantToSink`, which other runs use as well. -/
def Plan.constantToSink : Plan where
  steps :=
    [{ node := ⟨2⟩, op := ⟨2, 1⟩, operands := [.literal (.integer 7)],
       results := [⟨⟨0⟩, .integer⟩], parameter := none },
     { node := ⟨1⟩, op := ⟨1, 1⟩, operands := [.slot ⟨0⟩, .literal (.bool true)],
       results := [⟨⟨1⟩, .integer⟩, ⟨⟨2⟩, .bool⟩], parameter := none }]
  parameters := []
  slotCount := 3
  nodeCount := 2

/-- A constant's operation, which gives what it takes, and no operation of the sink. -/
def OpTable.constantOnly : OpTable where
  entries := [(⟨2, 1⟩, ⟨"constant", pure⟩)]

/-- The operations of a constant and of the sink, which give what they take. -/
def OpTable.constantAndSink : OpTable where
  entries := [(⟨1, 1⟩, ⟨"sink", pure⟩), (⟨2, 1⟩, ⟨"constant", pure⟩)]

/-- With these two operations, the constant that is wired to the sink is planned. -/
theorem OpTable.plan_constantToSink :
    OpTable.constantAndSink.plan .constantToSink = .ok .constantToSink := by
  decide +kernel

/-- The plan comes to its end with the table that it was made with, and stops at the sink with a
table that lacks it. A session that gets the plan through the queue is still without fault after a
frame and a pass. -/
theorem OpTable.plan_faultless_constantToSink :
    let t := OpTable.constantAndSink
    let p := Plan.constantToSink
    let f : Frame := { store := {}, context := .ofSeed 0 }
    let h : Host := { session := some (.start t (.ofSeed 0)), attached := true }
    let moves := [.send (.install p), .tick .longest, .runOnce]
    t.plan .constantToSink = .ok p ∧ (p.pass t f).result = none ∧
      (p.pass OpTable.constantOnly f).result = some (.unknownOperation ⟨1, 1⟩) ∧
      h.received moves = [p] ∧ ∃ s, (h.play moves).session = some s ∧ s.fault = none := by
  intro t p f h moves
  have hp : t.plan .constantToSink = .ok p := OpTable.plan_constantToSink
  have hmade : ∀ q ∈ h.received moves, q.MadeFor t :=
    List.forall_mem_singleton.2 ⟨t, .constantToSink, hp, fun _ => id⟩
  have hnew : h.New t := ⟨_, rfl, .start _⟩
  obtain ⟨hpass, hrun⟩ := OpTable.plan_faultless t
  refine ⟨hp, (hpass _ p hp t f).1.2 (by decide), ?_, rfl, _, rfl, hrun h moves hnew hmade _ rfl⟩
  exact (hpass _ p hp .constantOnly f).2.1 [_] _ [] rfl
    (by decide) (by decide)

end NodeGraph
