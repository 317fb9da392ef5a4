import NodeGraph.Proofs.Pass.Steadiness
import NodeGraph.Proofs.Plan.Ordering
import NodeGraph.Proofs.Session.Bookkeeping

/-!
# Chance in sessions

Random vectors bear on a session only through its passes. While a plan that repeats itself is
installed, whatever else is done to the session, its passes all come to the same and the random
stream stays where it is (`Plan.Repeats.perform`, `Plan.Repeats.holds_play`).

`OpTable.chance_confined` puts this together with what chance reaches in a single pass.
-/

namespace NodeGraph

namespace Session

/-- A pass leaves the plan installed, also if it stops with a fault. -/
theorem plan_runOnce (s : Session) : (runOnce s).state.plan = s.plan := by
  rcases runOnce_cases s with ⟨-, h⟩ | ⟨p, -, -, ⟨-, h⟩ | ⟨fault, -, h⟩⟩
  · rw [h]
  · rw [h]
  · rw [h]

/-- Obeying a command draws nothing from the random stream. -/
theorem stream_obey (c : Command) (s : Session) :
    (obey c s).state.context.stream = s.context.stream := by
  cases c with
  | install p => rfl
  | clear => rfl
  | setRate rate => rw [← state_tryRate, state_tryRate_eq]

/-- Obeying commands draws nothing from the random stream. -/
theorem stream_obeyAll (commands : List Command) (s : Session) :
    (obeyAll commands s).state.context.stream = s.context.stream := by
  induction commands generalizing s with
  | nil => rfl
  | cons c commands ih => exact (ih (obey c s).state).trans (stream_obey c s)

/-- Commands that install no plan leave no other plan than the one that was there. -/
theorem plan_obeyAll {commands : List Command} {s : Session}
    (hc : commands.filterMap Command.plan? = []) {p : Plan}
    (hp : (obeyAll commands s).state.plan = some p) : s.plan = some p := by
  induction commands generalizing s with
  | nil => exact hp
  | cons c commands ih =>
    obtain ⟨hfirst, hrest⟩ := List.forall_mem_cons.1 (List.filterMap_eq_nil_iff.1 hc)
    have hobeyed : (obey c s).state.plan = some p := ih (List.filterMap_eq_nil_iff.2 hrest) hp
    cases c with
    | install q => cases hfirst
    | clear => cases hobeyed
    | setRate rate => rwa [← state_tryRate, state_tryRate_eq] at hobeyed

/-- A call that installs no plan leaves no other plan than the one that was there. -/
theorem plan_perform {c : Call} {s : Session} (hc : c.installed s.table = []) {p : Plan}
    (hp : (c.perform s).state.plan = some p) : s.plan = some p := by
  cases c with
  | install q => cases hc
  | clear => cases hp
  | planAndInstall g =>
    change (Session.planAndInstall g s).state.plan = some p at hp
    unfold Session.planAndInstall at hp
    cases hg : s.table.plan g with
    | error defect =>
      rw [hg] at hp
      exact hp
    | ok q =>
      simp only [Call.installed, hg] at hc
      cases hc
  | setRate rate =>
    change (Session.tryRate rate s).state.plan = some p at hp
    rwa [state_tryRate_eq] at hp
  | runOnce =>
    change (Session.runOnce s).state.plan = some p at hp
    rwa [plan_runOnce] at hp
  | tick commands time =>
    refine plan_obeyAll hc ?_
    change (Session.tick commands time s).state.plan = some p at hp
    rw [(tick_eq commands time s).2] at hp
    split at hp
    · rwa [plan_runOnce] at hp
    · exact hp

end Session

/-- A host whose session, if it is still there, has a table, no other plan than the given one, and
its random stream at the given place. -/
def Host.Holds (t : OpTable) (p : Plan) (stream : Random.Stream) (h : Host) : Prop :=
  ∀ s, h.session = some s →
    s.table = t ∧ (∀ q, s.plan = some q → q = p) ∧ s.context.stream = stream

namespace Plan.Repeats

variable {t : OpTable} {p : Plan} {store : SlotStore} {readout : Readout} {fallbacks : Nat}
  {s : Session}

/-- A pass of a plan that repeats itself draws nothing from the random stream. If it comes to its
end, it leaves what all of them leave. -/
theorem runOnce (h : p.Repeats t store readout fallbacks) (htable : s.table = t)
    (hplan : ∀ q, s.plan = some q → q = p) :
    (Session.runOnce s).state.context.stream = s.context.stream ∧
      ((Session.runOnce s).result = true →
        (Session.runOnce s).state.readout = readout ∧ (Session.runOnce s).state.store = store ∧
          (Session.runOnce s).state.context.tally.lastPass = fallbacks) := by
  rcases Session.runOnce_cases s with
    ⟨-, hsame⟩ | ⟨q, -, hq, ⟨hresult, hstate⟩ | ⟨fault, hresult, hstate⟩⟩
  · rw [hsame]
    exact ⟨rfl, nofun⟩
  · obtain rfl := hplan q hq
    obtain ⟨hstore, -, hreadout, hstream, hcount⟩ := h s.frame
    rw [hresult, hstate, htable]
    exact ⟨hstream, fun _ => ⟨hreadout, hstore, hcount⟩⟩
  · obtain rfl := hplan q hq
    obtain ⟨-, hstream, -⟩ := h s.frame
    rw [hresult, hstate, htable]
    exact ⟨hstream, nofun⟩

/-- A call after which no other plan is installed draws nothing from the random stream. If a pass
comes to its end in it, it leaves what all passes leave. -/
theorem perform (h : p.Repeats t store readout fallbacks) (htable : s.table = t) (c : Call)
    (hplan : ∀ q, (c.perform s).state.plan = some q → q = p) :
    (c.perform s).state.context.stream = s.context.stream ∧
      ((c.perform s).result.ended = true →
        (c.perform s).state.readout = readout ∧ (c.perform s).state.store = store ∧
          (c.perform s).state.context.tally.lastPass = fallbacks) := by
  cases c with
  | install q => exact ⟨rfl, nofun⟩
  | clear => exact ⟨rfl, nofun⟩
  | planAndInstall g =>
    show (Session.planAndInstall g s).state.context.stream = _ ∧ (false = true → _)
    refine ⟨?_, nofun⟩
    unfold Session.planAndInstall
    cases s.table.plan g with
    | error defect => rfl
    | ok q => rfl
  | setRate rate =>
    show (Session.tryRate rate s).state.context.stream = _ ∧ (false = true → _)
    rw [Session.state_tryRate_eq]
    exact ⟨rfl, nofun⟩
  | runOnce =>
    have hplan' : ∀ q, s.plan = some q → q = p := Session.plan_runOnce s ▸ hplan
    exact h.runOnce htable hplan'
  | tick commands time =>
    have hready := (Session.Evolves.obeyAll commands s).table
    have hstream := Session.stream_obeyAll commands s
    obtain ⟨hresult, hstate⟩ := Session.tick_eq commands time s
    show (Session.tick commands time s).state.context.stream = _ ∧
      ((Session.tick commands time s).result = true →
        (Session.tick commands time s).state.readout = _ ∧
          (Session.tick commands time s).state.store = _ ∧
          (Session.tick commands time s).state.context.tally.lastPass = _)
    change ∀ q, (Session.tick commands time s).state.plan = some q → q = p at hplan
    rw [hstate] at hplan
    rw [hresult, hstate]
    generalize (Session.obeyAll commands s).state = ready at *
    cases hdue : (ready.pacer.tick time).1 with
    | false => exact ⟨hstream, nofun⟩
    | true =>
      rw [hdue, if_pos rfl, Session.plan_runOnce] at hplan
      obtain ⟨hstream', hended⟩ :=
        h.runOnce (s := { ready with pacer := (ready.pacer.tick time).2 }) (hready.trans htable)
          hplan
      exact ⟨hstream'.trans hstream, hended⟩

/-- A move after which no other plan is installed draws nothing from the random stream either, and
leaves what all passes leave if one comes to its end in it. -/
theorem move (h : p.Repeats t store readout fallbacks) {host : Host} (hs : host.session = some s)
    (htable : s.table = t) {m : Move} {s' : Session} (hs' : (m.perform host).session = some s')
    (hplan : ∀ q, s'.plan = some q → q = p) :
    s'.context.stream = s.context.stream ∧
      (m.ended host = true →
        s'.readout = readout ∧ s'.store = store ∧ s'.context.tally.lastPass = fallbacks) := by
  obtain ⟨s₀, hs₀, ⟨c, -, rfl, hended⟩ | ⟨-, rfl, hended⟩⟩ := Move.session_perform hs'
  · obtain rfl := Option.some.inj (hs₀.symm.trans hs)
    rw [hended]
    exact h.perform htable c hplan
  · obtain rfl := Option.some.inj (hs₀.symm.trans hs)
    rw [hended]
    exact ⟨rfl, nofun⟩

/-- A move that installs no plan draws nothing from the random stream. -/
theorem holds_perform (h : p.Repeats t store readout fallbacks) {host : Host}
    {stream : Random.Stream} (hh : host.Holds t p stream) {m : Move} (hm : m.installed host = []) :
    (m.perform host).Holds t p stream := by
  intro s' hs'
  obtain ⟨s, hs, hcases⟩ := Move.session_perform hs'
  obtain ⟨htable, hplan, hstream⟩ := hh s hs
  rcases hcases with ⟨c, hc, rfl, -⟩ | ⟨-, rfl, -⟩
  · rw [Move.installed, hs, hc] at hm
    have hplan' : ∀ q, (c.perform s).state.plan = some q → q = p :=
      fun q hq => hplan q (Session.plan_perform hm hq)
    exact ⟨(c.evolves s).table.trans htable, hplan', (h.perform htable c hplan').1.trans hstream⟩
  · exact ⟨htable, hplan, hstream⟩

/-- Moves that install no plan draw nothing from the random stream. -/
theorem holds_play (h : p.Repeats t store readout fallbacks) {host : Host}
    {stream : Random.Stream} (hh : host.Holds t p stream) {moves : List Move}
    (hmoves : host.installed moves = []) : (host.play moves).Holds t p stream := by
  induction moves generalizing host with
  | nil => exact hh
  | cons m moves ih =>
    obtain ⟨hm, hrest⟩ := List.append_eq_nil_iff.1 hmoves
    exact ih (h.holds_perform hh hm) hrest

end Plan.Repeats

/-- Chance reaches only what depends on it, where all operations are steady but the one that draws
random vectors. Any two passes of a plan come to their ends, and the slots of calm nodes then hold
the same. If no live node draws random vectors, a pass of the plan always leaves the same slots, the
same readout and the same number of fallbacks, in whatever session and at whatever time, and the
random stream stays where it is as long as the plan is installed. -/
theorem OpTable.chance_confined :
    builtin.Steady ∧
    ∀ (t : OpTable) (g : Graph) (p : Plan), t.Steady → t.plan g = .ok p →
      (∀ f f' : Frame, (p.pass t f).result = none ∧ (p.pass t f').result = none ∧
        ∀ n s, p.StepOf g n s → g.Calm n.id → ∀ slot ∈ s.writes, ∃ v,
          (p.pass t f).state.store.get slot = .ok v ∧
            (p.pass t f').state.store.get slot = .ok v) ∧
      ((∀ n ∈ g.nodes, g.Live n.id → n.op ≠ .randomVector3) →
        ∃ store readout fallbacks, p.Repeats t store readout fallbacks ∧
          ∀ (h : Host) (s : Session), h.session = some s → s.table = t →
            (∀ (m : Move) (s' : Session), (m.perform h).session = some s' → s'.plan = some p →
              s'.context.stream = s.context.stream ∧
                (m.ended h → s'.readout = readout ∧ s'.store = store ∧
                  s'.context.tally.lastPass = fallbacks)) ∧
            (s.plan = some p → ∀ moves, h.installed moves = [] →
              ∀ s', (h.play moves).session = some s' →
                s'.context.stream = s.context.stream)) := by
  refine ⟨steady_builtin, fun t g p ht hp => ?_⟩
  obtain ⟨init, sink, hs, hbuild, rfl⟩ := Graph.plan_eq_ok_iff.1 hp
  refine ⟨fun f f' => ?_, fun hno => ?_⟩
  · have hended (f : Frame) : ((g.planOn init sink).pass t f).result = none := by
      obtain ⟨scratch, hpass⟩ := (hs.pass_planOn hbuild f).1
      rw [hpass]
    refine ⟨hended f, hended f', ?_⟩
    intro n s hstep hcalm slot hslot
    obtain ⟨hn, rfl⟩ := hs.stepOf_planOn_iff.1 hstep
    exact hs.get_pass_eq hbuild ht f f' hn hcalm hslot
  · obtain ⟨store, readout, fallbacks, hrepeats⟩ := hs.repeats hbuild ht hno
    refine ⟨store, readout, fallbacks, hrepeats, fun h s hsession htable => ⟨?_, ?_⟩⟩
    · intro m s' hs' hplan
      exact hrepeats.move hsession htable hs' fun q hq => Option.some.inj (hq.symm.trans hplan)
    · intro hplan moves hmoves s' hs'
      have hholds : h.Holds t (g.planOn init sink) s.context.stream := by
        intro s₀ hs₀
        obtain rfl := Option.some.inj (hs₀.symm.trans hsession)
        exact ⟨htable, fun q hq => Option.some.inj (hq.symm.trans hplan), rfl⟩
      exact (hrepeats.holds_play hholds hmoves s' hs').2.2

/-- A sum and a random vector, both wired to the sink. One of the summands is no number. -/
def Graph.lottery : Graph where
  nodes :=
    [{ id := ⟨1⟩, op := .sink, ports := [.input 0 "sum" .scalar, .input 1 "draw" .vector3] },
     { id := ⟨2⟩, op := .randomVector3, ports := [.output 0 "v" .vector3] },
     { id := ⟨3⟩, op := .add, literals := [.scalar 2, .vector2 ⟨1, 1⟩],
       ports := [.input 0 "a" .scalar, .input 1 "b" .scalar, .output 2 "x" .scalar] }]
  wires := [⟨⟨⟨3⟩, 2⟩, ⟨⟨1⟩, 0⟩⟩, ⟨⟨⟨2⟩, 0⟩, ⟨⟨1⟩, 1⟩⟩]

/-- The plan of `Graph.lottery`. The sum falls back to zero for the summand that is no number. -/
def Plan.lottery : Plan where
  steps :=
    [{ node := ⟨3⟩, op := .add, operands := [.literal (.scalar 2), .literal (.vector2 ⟨1, 1⟩)],
       results := [⟨⟨0⟩, .scalar⟩], parameter := none },
     { node := ⟨2⟩, op := .randomVector3, operands := [], results := [⟨⟨1⟩, .vector3⟩],
       parameter := none },
     { node := ⟨1⟩, op := .sink, operands := [.slot ⟨0⟩, .slot ⟨1⟩],
       results := [⟨⟨2⟩, .scalar⟩, ⟨⟨3⟩, .vector3⟩], parameter := none }]
  parameters := []
  slotCount := 4
  nodeCount := 3

/-- `Graph.lottery` without the wire from the random vector. -/
def Graph.noLottery : Graph :=
  { Graph.lottery with wires := [⟨⟨⟨3⟩, 2⟩, ⟨⟨1⟩, 0⟩⟩] }

/-- The plan of `Graph.noLottery`, in which the random vector has no step. -/
def Plan.noLottery : Plan where
  steps :=
    [{ node := ⟨3⟩, op := .add, operands := [.literal (.scalar 2), .literal (.vector2 ⟨1, 1⟩)],
       results := [⟨⟨0⟩, .scalar⟩], parameter := none },
     { node := ⟨1⟩, op := .sink, operands := [.slot ⟨0⟩, .literal .absent],
       results := [⟨⟨1⟩, .scalar⟩, ⟨⟨2⟩, .vector3⟩], parameter := none }]
  parameters := []
  slotCount := 3
  nodeCount := 3

/-- With two seeds the sum is the same and the draw is not. Without the draw, a pass leaves the same
readout in sessions with the two seeds, and their streams are where they were. -/
theorem OpTable.chance_confined_lottery :
    let run (seed : UInt64) :=
      (Plan.lottery.pass builtin { store := {}, context := .ofSeed seed }).state.store
    let s (seed : UInt64) := (Session.start builtin (.ofSeed seed)).withPlan .noLottery
    let s' (seed : UInt64) := (Session.runOnce (s seed)).state
    builtin.plan .lottery = .ok .lottery ∧ Graph.lottery.Calm ⟨3⟩ ∧
      (run 1).get ⟨0⟩ = (run 2).get ⟨0⟩ ∧ (run 1).get ⟨1⟩ ≠ (run 2).get ⟨1⟩ ∧
      builtin.plan .noLottery = .ok .noLottery ∧
      (∀ n ∈ Graph.noLottery.nodes, Graph.noLottery.Live n.id → n.op ≠ .randomVector3) ∧
      (s' 1).readout = (s' 2).readout ∧ (s' 1).context.stream = .ofSeed 1 ∧
      (s' 2).context.stream = .ofSeed 2 := by
  intro run s s'
  have hplan : builtin.plan .lottery = .ok .lottery := by decide +kernel
  have hplan' : builtin.plan .noLottery = .ok .noLottery := by decide +kernel
  have hcalm : Graph.lottery.Calm ⟨3⟩ := by
    intro id hreach n hn
    rcases hreach.cases_head with rfl | ⟨id', ⟨m, -, hm, port, -, w, hw, htarget, -⟩, -⟩
    · cases hn
      decide
    · -- Both wires lead to the sink.
      have hwires : ∀ w ∈ Graph.lottery.wires, w.target.node ≠ ⟨3⟩ := by decide
      have hnode := hwires w hw
      rw [htarget] at hnode
      exact absurd hm hnode
  have hno : ∀ n ∈ Graph.noLottery.nodes, Graph.noLottery.Live n.id → n.op ≠ .randomVector3 := by
    have hsteps : ∀ n ∈ Graph.noLottery.nodes, n.id ∈ Plan.noLottery.steps.map (·.node) →
        n.op ≠ .randomVector3 := by decide
    obtain ⟨init, sink, hs, -, hp⟩ := Graph.plan_eq_ok_iff.1 hplan'
    rw [hp] at hsteps
    exact fun n hn hlive => hsteps n hn ((hs.ordered.live n.id).2 hlive)
  obtain ⟨hsteady, hconfined⟩ := OpTable.chance_confined
  obtain ⟨-, -, hslots⟩ :=
    (hconfined _ _ _ hsteady hplan).1 ⟨{}, .ofSeed 1, {}⟩ ⟨{}, .ofSeed 2, {}⟩
  obtain ⟨v, hv, hv'⟩ := hslots _ Plan.lottery.steps[0] ⟨by decide, rfl⟩ hcalm ⟨0⟩ (by decide)
  obtain ⟨store, readout, fallbacks, -, hrun⟩ := (hconfined _ _ _ hsteady hplan').2 hno
  have hsession (seed : UInt64) : (s' seed).context.stream = .ofSeed seed ∧
      ((Move.runOnce).ended ⟨some (s seed), {}, true⟩ → (s' seed).readout = readout ∧ _) :=
    (hrun ⟨some (s seed), {}, true⟩ (s seed) rfl rfl).1 .runOnce (s' seed) rfl
      (Session.plan_runOnce (s seed))
  have hreadout := ((hsession 1).2 (by decide +kernel)).1
  have hreadout' := ((hsession 2).2 (by decide +kernel)).1
  exact ⟨hplan, hcalm, hv.trans hv'.symm, by decide +kernel, hplan', hno,
    hreadout.trans hreadout'.symm, (hsession 1).1, (hsession 2).1⟩

end NodeGraph
