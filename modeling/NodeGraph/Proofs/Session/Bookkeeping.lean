import NodeGraph.Proofs.Session.Forgetting

/-!
# What a session keeps in order

A fault and the slots of a session go with its plan, whatever is done to it
(`Session.Consistent.perform`). A session in which no pass can run does not run one until a plan is
installed (`Session.Rests.perform`). Along a run of a host, its session has counted the passes that
came to their end, and has the readout of the last of them (`Host.Accounted.play`).

`Host.bookkeeping` puts these together for all that can become of a new session. The count of passes
is a number without a bound, and a counter of 64 bits agrees with it in all but extremely long runs
(`Host.New.passes_lt_size`).
-/

namespace NodeGraph

variable {s s' s'' : Session}

namespace Session

/-- A fault is there only with a plan, and the slots are those of the plan. -/
structure Consistent (s : Session) : Prop where
  fault : s.fault.isSome → s.plan.isSome
  size : s.store.size = (s.plan.map (·.slotCount)).getD 0

namespace Consistent

/-- A new session is consistent, with no plan, no fault and no slots. -/
theorem of_new {t : OpTable} (h : s.New t) : s.Consistent := by
  obtain ⟨stream, pacer, logStats, rfl⟩ := h.eq_start
  exact ⟨nofun, rfl⟩

/-- A session with a plan in place of another one is consistent, whatever it was before. -/
theorem withPlan (p : Plan) (s : Session) : (s.withPlan p).Consistent :=
  ⟨nofun, List.length_replicate ..⟩

/-- A session without its plan is consistent, whatever it was before. -/
theorem clear (s : Session) : s.clear.Consistent :=
  ⟨nofun, rfl⟩

/-- A pacer in place of another one leaves a session consistent. -/
theorem withPacer (h : s.Consistent) (pacer : Pacer) : ({ s with pacer } : Session).Consistent :=
  ⟨h.fault, h.size⟩

/-- A pass leaves a session consistent, also if it stops with a fault. -/
theorem runOnce (h : s.Consistent) : (Session.runOnce s).state.Consistent := by
  rcases runOnce_cases s with
    ⟨-, hsame⟩ | ⟨p, hfault, hplan, ⟨-, hstate⟩ | ⟨fault, -, hstate⟩⟩
  · rw [hsame]
    exact h
  · rw [hstate]
    refine ⟨fun hsome => ?_, ?_⟩
    · rw [hfault] at hsome
      cases hsome
    · rw [hplan]
      exact p.size_pass s.table _
  · rw [hstate]
    refine ⟨fun _ => Option.isSome_of_eq_some hplan, ?_⟩
    rw [hplan]
    exact p.size_pass s.table _

/-- A command leaves a session consistent, whichever it is. -/
theorem obey (h : s.Consistent) (c : Command) : (Session.obey c s).state.Consistent := by
  cases c with
  | install p => exact withPlan p s
  | clear => exact clear s
  | setRate rate =>
    rw [← state_tryRate, state_tryRate_eq]
    exact h.withPacer _

/-- Commands leave a session consistent. -/
theorem obeyAll (h : s.Consistent) (commands : List Command) :
    (Session.obeyAll commands s).state.Consistent := by
  induction commands generalizing s with
  | nil => exact h
  | cons c commands ih => exact ih (h.obey c)

/-- A call leaves a session consistent, whether or not it is refused. -/
theorem perform (h : s.Consistent) (c : Call) : (c.perform s).state.Consistent := by
  cases c with
  | install p => exact withPlan p s
  | clear => exact clear s
  | planAndInstall g =>
    show (Session.planAndInstall g s).state.Consistent
    unfold Session.planAndInstall
    cases s.table.plan g with
    | error defect => exact h
    | ok p => exact withPlan p s
  | setRate rate =>
    show (Session.tryRate rate s).state.Consistent
    rw [state_tryRate_eq]
    exact h.withPacer _
  | runOnce => exact h.runOnce
  | tick commands time =>
    have hpaced := (h.obeyAll commands).withPacer
      ((Session.obeyAll commands s).state.pacer.tick time).2
    show (Session.tick commands time s).state.Consistent
    rw [(tick_eq commands time s).2]
    split
    · exact hpaced.runOnce
    · exact hpaced

end Consistent

/-- No pass can run in a session that another one has become, and none has run on the way: it has
drawn nothing from the random stream and counted no fallbacks. -/
structure Rests (s s' : Session) : Prop where
  idle : s'.Idle
  context : s'.context = s.context

end Session

/-- The plans that a call installs. A frame installs those of its commands, and a graph that has a
defect installs none. -/
def Call.installed (t : OpTable) : Call → List Plan
  | .install p => [p]
  | .planAndInstall g => (t.plan g).toOption.toList
  | .tick commands _ => commands.filterMap Command.plan?
  | .clear | .setRate _ | .runOnce => []

namespace Session.Rests

/-- An idle session rests where it is. -/
theorem refl (h : s.Idle) : s.Rests s :=
  ⟨h, rfl⟩

/-- Rest after rest is rest. -/
theorem trans (h : s.Rests s') (h' : s'.Rests s'') : s.Rests s'' :=
  ⟨h'.idle, h'.context.trans h.context⟩

/-- A session without its plan rests, since no pass can run in it. -/
theorem clear (s : Session) : s.Rests s.clear :=
  ⟨.inl rfl, rfl⟩

/-- An idle session with another pacer rests. -/
theorem withPacer (h : s.Idle) (pacer : Pacer) : s.Rests { s with pacer } :=
  ⟨h, rfl⟩

/-- An idle session rests if it obeys a command that installs no plan. -/
theorem obey {c : Command} (h : s.Idle) (hc : c.plan? = none) :
    s.Rests (Session.obey c s).state := by
  cases c with
  | install p => cases hc
  | clear => exact clear s
  | setRate rate =>
    rw [← state_tryRate, state_tryRate_eq]
    exact withPacer h _

/-- An idle session rests if it obeys commands that install no plan. -/
theorem obeyAll {commands : List Command} (h : s.Idle)
    (hc : commands.filterMap Command.plan? = []) :
    s.Rests (Session.obeyAll commands s).state := by
  induction commands generalizing s with
  | nil => exact refl h
  | cons c commands ih =>
    obtain ⟨hfirst, hrest⟩ := List.forall_mem_cons.1 (List.filterMap_eq_nil_iff.1 hc)
    have hobeyed := obey h hfirst
    exact hobeyed.trans (ih hobeyed.idle (List.filterMap_eq_nil_iff.2 hrest))

/-- An idle session rests in a call that installs no plan, and no pass comes to its end. -/
theorem perform {c : Call} (h : s.Idle) (hc : c.installed s.table = []) :
    s.Rests (c.perform s).state ∧ (c.perform s).result.ended = false := by
  cases c with
  | install p => cases hc
  | planAndInstall g =>
    show s.Rests (Session.planAndInstall g s).state ∧ _
    refine ⟨?_, rfl⟩
    unfold Session.planAndInstall
    cases hp : s.table.plan g with
    | error defect => exact refl h
    | ok p =>
      simp only [Call.installed, hp] at hc
      cases hc
  | clear => exact ⟨clear s, rfl⟩
  | setRate rate =>
    show s.Rests (Session.tryRate rate s).state ∧ _
    rw [state_tryRate_eq]
    exact ⟨withPacer h _, rfl⟩
  | runOnce =>
    show s.Rests (Session.runOnce s).state ∧ (Session.runOnce s).result = false
    rw [runOnce_of_idle h]
    exact ⟨refl h, rfl⟩
  | tick commands time =>
    have hobeyed := obeyAll h hc
    have hpaced := hobeyed.trans
      (withPacer hobeyed.idle ((Session.obeyAll commands s).state.pacer.tick time).2)
    obtain ⟨hresult, hstate⟩ := tick_eq commands time s
    show s.Rests (Session.tick commands time s).state ∧
      (Session.tick commands time s).result = false
    rw [hresult, hstate, runOnce_of_idle hpaced.idle, Bool.and_false, ite_self]
    exact ⟨hpaced, rfl⟩

end Session.Rests

namespace Move

/-- The plans that a move installs in the session, which takes the commands that wait for it. -/
def installed (m : Move) (h : Host) : List Plan :=
  match h.session, m.call? h.waiting with
  | some s, some c => c.installed s.table
  | _, _ => []

end Move

/-- The readout of the sink's slots as they are, zero without a session. -/
def Host.reading (h : Host) : Readout :=
  (h.session.map Session.reading).getD .zero

/-- The readout of the sink's slots after a move that tells that a pass came to its end. Other moves
give none. -/
def Move.readouts (m : Move) (h : Host) : List Readout :=
  if m.ended h then [(m.perform h).reading] else []

namespace Host

/-- The plans that moves install in turn. -/
def installed (h : Host) : List Move → List Plan
  | [] => []
  | m :: moves => m.installed h ++ installed (m.perform h) moves

/-- The readouts of the sink's slots after the moves that tell that a pass came to its end. -/
def readouts (h : Host) : List Move → List Readout
  | [] => []
  | m :: moves => m.readouts h ++ readouts (m.perform h) moves

/-- A host whose session, if it is still there, is consistent, has counted the readouts so far, and
has the last of them. -/
def Accounted (readouts : List Readout) (h : Host) : Prop :=
  ∀ s, h.session = some s → s.Consistent ∧ s.passes = readouts.length ∧
    s.readout = readouts.getLast?.getD .zero

variable {h : Host} {readouts : List Readout}

/-- A move is accounted for by its readouts. -/
theorem Accounted.perform (hh : h.Accounted readouts) (m : Move) :
    (m.perform h).Accounted (readouts ++ m.readouts h) := by
  intro s' hs'
  obtain ⟨s, hs, ⟨c, -, rfl, hended⟩ | ⟨-, rfl, hended⟩⟩ := Move.session_perform hs'
  · obtain ⟨hconsistent, hpasses, hreadout⟩ := hh s hs
    refine ⟨hconsistent.perform c, ?_⟩
    rw [(c.evolves s).passes, (c.evolves s).readout, hpasses, hreadout, Move.readouts, reading, hs',
      hended]
    cases (c.perform s).result.ended with
    | true => simp
    | false => simp
  · rw [Move.readouts, hended, if_neg Bool.false_ne_true, List.append_nil]
    exact hh s' hs

/-- Moves are accounted for by their readouts, in whatever order they come. -/
theorem Accounted.play (hh : h.Accounted readouts) (moves : List Move) :
    (h.play moves).Accounted (readouts ++ h.readouts moves) := by
  induction moves generalizing h readouts with
  | nil =>
    rw [Host.readouts, List.append_nil]
    exact hh
  | cons m moves ih =>
    rw [Host.readouts, ← List.append_assoc]
    exact ih (hh.perform m)

/-- Nothing is to be accounted for with a new session. -/
theorem New.accounted {t : OpTable} (hnew : h.New t) : h.Accounted [] := by
  obtain ⟨s, hs, hnew⟩ := hnew
  intro s' hs'
  obtain rfl := Option.some.inj (hs.symm.trans hs')
  refine ⟨.of_new hnew, ?_⟩
  obtain ⟨stream, pacer, logStats, rfl⟩ := hnew.eq_start
  exact ⟨rfl, rfl⟩

/-- A move gives one readout at most, and so there are no more of them than moves. -/
theorem length_readouts_le (h : Host) (moves : List Move) :
    (h.readouts moves).length ≤ moves.length := by
  induction moves generalizing h with
  | nil => exact Nat.le_refl 0
  | cons m moves ih =>
    have hfirst : (m.readouts h).length ≤ 1 := by
      unfold Move.readouts
      split <;> simp
    have hrest := ih (m.perform h)
    rw [readouts, List.length_append, List.length_cons]
    omega

/-- The count of passes is the one that a counter of 64 bits has, as long as there have been fewer
than `UInt64.size` moves since the session was new: a move adds one to it at most, and nothing sets
it back. -/
theorem New.passes_lt_size {t : OpTable} (hnew : h.New t) {moves : List Move}
    (hfew : moves.length < UInt64.size) {s : Session} (hs : (h.play moves).session = some s) :
    s.passes < UInt64.size := by
  obtain ⟨-, hpasses, -⟩ := hnew.accounted.play moves s hs
  rw [hpasses, List.nil_append]
  exact Nat.lt_of_le_of_lt (h.length_readouts_le moves) hfew

/-- A host whose session, if it is still there, has rested. -/
def Rests (s : Session) (h : Host) : Prop :=
  ∀ s', h.session = some s' → s.Rests s'

/-- A session rests in a move that installs no plan, and no pass comes to its end. -/
theorem Rests.perform {s : Session} {m : Move} (hh : h.Rests s) (hm : m.installed h = []) :
    (m.perform h).Rests s ∧ m.ended h = false := by
  cases hs' : (m.perform h).session with
  | none =>
    refine ⟨fun s' hsome => ?_, Move.ended_of_session_none hs'⟩
    rw [hs'] at hsome
    cases hsome
  | some s' =>
    obtain ⟨s₁, hs₁, hcases⟩ := Move.session_perform hs'
    have hrests : s.Rests s' ∧ m.ended h = false := by
      rcases hcases with ⟨c, hc, rfl, hended⟩ | ⟨-, rfl, hended⟩
      · rw [Move.installed, hs₁, hc] at hm
        obtain ⟨hcall, hnot⟩ := Session.Rests.perform (hh s₁ hs₁).idle hm
        exact ⟨(hh s₁ hs₁).trans hcall, hended.trans hnot⟩
      · exact ⟨hh s' hs₁, hended⟩
    refine ⟨fun s'' hsome => ?_, hrests.2⟩
    exact Option.some.inj (hs'.symm.trans hsome) ▸ hrests.1

/-- A session rests in moves that install no plan, and no pass comes to its end. -/
theorem Rests.play {s : Session} (hh : h.Rests s) {moves : List Move}
    (hmoves : h.installed moves = []) : (h.play moves).Rests s ∧ h.readouts moves = [] := by
  induction moves generalizing h with
  | nil => exact ⟨hh, rfl⟩
  | cons m moves ih =>
    obtain ⟨hm, hrest⟩ := List.append_eq_nil_iff.1 hmoves
    obtain ⟨hfirst, hended⟩ := hh.perform hm
    obtain ⟨hplay, hnone⟩ := ih hfirst hrest
    refine ⟨hplay, ?_⟩
    rw [Host.readouts, hnone, Move.readouts, hended]
    rfl

/-- What is in order in a session that a new one has become in moves of its host. -/
structure Bookkeeping (h : Host) (moves : List Move) (s : Session) : Prop where
  /-- There is a fault only with a plan. -/
  fault : s.fault.isSome → s.plan.isSome
  /-- The slots are those of the plan, and none without a plan. -/
  size : s.store.size = (s.plan.map (·.slotCount)).getD 0
  /-- The passes are the calls that told that one came to its end. -/
  passes : s.passes = (h.readouts moves).length
  /-- The readout is that of the sink's slots at the end of the last of these calls. -/
  readout : s.readout = (h.readouts moves).getLast?.getD .zero
  /-- With a fault, nothing runs until a plan is installed. -/
  faulted : s.fault.isSome → ∀ later, (h.play moves).installed later = [] →
    (h.play moves).readouts later = [] ∧
      ∀ s', ((h.play moves).play later).session = some s' →
        s'.context = s.context ∧ s'.readout = s.readout ∧ s'.passes = s.passes
  /-- A graph with a defect leaves everything as it is. -/
  rejectedGraph : ∀ g defect, (Session.planAndInstall g s).result = .error defect →
    (Session.planAndInstall g s).state = s
  /-- A rate that cannot be used leaves everything as it is, in a call and in a command. -/
  rejectedRate : ∀ rate problem, s.setRate rate = .error problem →
    (Session.tryRate rate s).state = s ∧ (Session.obey (.setRate rate) s).state = s
  /-- To run a pass without a plan or with a fault leaves everything as it is. -/
  idle : s.plan = none ∨ s.fault.isSome →
    (Session.runOnce s).result = false ∧ (Session.runOnce s).state = s

/-- Whatever is done to a new session, its fault and its slots go with its plan, its passes and its
readout are those of the calls that told of a pass, nothing runs in it after a fault until a plan is
installed, and what is refused leaves it as it is. -/
theorem bookkeeping {t : OpTable} (hnew : h.New t) (moves : List Move) {s : Session}
    (hs : (h.play moves).session = some s) : h.Bookkeeping moves s := by
  have haccounted : (h.play moves).Accounted (h.readouts moves) := hnew.accounted.play moves
  obtain ⟨hconsistent, hpasses, hreadout⟩ := haccounted s hs
  refine ⟨hconsistent.fault, hconsistent.size, hpasses, hreadout, ?_, ?_, ?_, ?_⟩
  · intro hfault later hlater
    have hrests : (h.play moves).Rests s := fun s' hs' =>
      Option.some.inj (hs.symm.trans hs') ▸ Session.Rests.refl (.inr hfault)
    obtain ⟨hplay, hnone⟩ := hrests.play hlater
    refine ⟨hnone, fun s' hs' => ⟨(hplay s' hs').context, ?_⟩⟩
    have hlast := haccounted.play later s' hs'
    rw [hnone, List.append_nil] at hlast
    exact ⟨hlast.2.2.trans hreadout.symm, hlast.2.1.trans hpasses.symm⟩
  · intro g defect hresult
    unfold Session.planAndInstall at hresult ⊢
    cases hp : s.table.plan g with
    | error _ => rfl
    | ok p =>
      rw [hp] at hresult
      cases hresult
  · intro rate problem hrate
    have hsame : (Session.tryRate rate s).state = s := by
      unfold Session.tryRate
      rw [hrate]
    exact ⟨hsame, Session.state_tryRate rate s ▸ hsame⟩
  · intro hidle
    rw [Session.runOnce_of_idle hidle]
    exact ⟨rfl, rfl⟩

/-- A plan that is sent runs in the next frame. A graph with a defect changes nothing. The plan that
is installed then stops with a fault, which lasts when the rate is changed and a pass is asked
for. -/
theorem bookkeeping_overrun :
    let t := OpTable.constantAndSink
    let h : Host := { session := some (.start t (.ofSeed 0)), attached := true }
    let moves := [.send (.install .constantToSink), .tick .longest, .planAndInstall {},
      .install .overrun, .runOnce, .setRate 0, .setRate 10, .runOnce]
    h.New t ∧ h.readouts moves = [⟨7, ⟨0, 0⟩, ⟨0, 0, 0⟩⟩] ∧
      ∃ s, (h.play moves).session = some s ∧ h.Bookkeeping moves s ∧
        s.fault = some (.slotOutOfBounds ⟨9⟩ 3) ∧ s.passes = 1 := by
  intro t h moves
  have hnew : h.New t := ⟨_, rfl, .start _⟩
  have hreadouts : h.readouts moves = [⟨7, ⟨0, 0⟩, ⟨0, 0, 0⟩⟩] := by decide +kernel
  have hfault : (h.play moves).session.map (·.fault) = some (some (.slotOutOfBounds ⟨9⟩ 3)) := by
    decide +kernel
  obtain ⟨s, hs, hfault⟩ := Option.map_eq_some_iff.1 hfault
  have hbooks := Host.bookkeeping hnew moves hs
  have hpasses := hbooks.passes
  rw [hreadouts] at hpasses
  exact ⟨hnew, hreadouts, s, hs, hbooks, hfault, hpasses⟩

end Host

end NodeGraph
