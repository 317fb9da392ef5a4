import NodeGraph.Proofs.Pass.Invocations
import NodeGraph.Proofs.Session.Bookkeeping

/-!
# The history of a session's context

Of all that is done to a session, two things bear on its context: that a plan is installed, and that
a pass is attempted. The history of a run lists these `Occurrence`s in order, and `Context.Becomes`
says what each of them does to the context. A call and a run of a host make of the context what
their history says (`Call.becomes`, `Host.becomes_play`). What else there is about contexts along a
run can therefore be shown by induction on the history.

A pass is attempted if the session has a plan and is not faulted, whether or not it comes to its
end. A session that is dropped has its history up to then.
-/

namespace NodeGraph

/-- What bears on the context of a session. -/
inductive Occurrence where
  /-- A plan is installed, which starts the counts anew. -/
  | installed (p : Plan)
  /-- A pass is attempted in a session, which is not idle. -/
  | attempted (s : Session)

/-- The session in which a pass is attempted, as it is before the pass. -/
def Occurrence.attempted? : Occurrence → Option Session
  | .installed _ => none
  | .attempted s => some s

/-- What becomes of a context in sessions with a table of operations, if some things occur in
order. -/
inductive Context.Becomes (t : OpTable) (c : Context) : List Occurrence → Context → Prop
  | nothing : Becomes t c [] c
  | installed {history : List Occurrence} {c' : Context} (h : Becomes t c history c') (p : Plan) :
      Becomes t c (history ++ [.installed p]) c'.resetTally
  | attempted {history : List Occurrence} {s : Session} (h : Becomes t c history s.context)
      (table : s.table = t) (ready : ¬s.Idle) :
      Becomes t c (history ++ [.attempted s]) (Session.runOnce s).state.context

namespace Context.Becomes

variable {t : OpTable} {c c' c'' : Context} {history history' : List Occurrence}

/-- One history after another makes of a context what both make of it in turn. -/
theorem trans (h : Becomes t c history c') (h' : Becomes t c' history' c'') :
    Becomes t c (history ++ history') c'' := by
  induction h' with
  | nothing =>
    rw [List.append_nil]
    exact h
  | installed _ p ih =>
    rw [← List.append_assoc]
    exact ih.installed p
  | attempted _ table ready ih =>
    rw [← List.append_assoc]
    exact ih.attempted table ready

/-- Passes are attempted with the table of operations, and where one can run. -/
theorem of_mem (h : Becomes t c history c') {s : Session}
    (hs : s ∈ history.filterMap Occurrence.attempted?) : s.table = t ∧ ¬s.Idle := by
  induction h with
  | nothing => cases hs
  | installed _ p ih =>
    rw [List.filterMap_append, List.mem_append] at hs
    exact hs.elim ih nofun
  | attempted _ table ready ih =>
    rw [List.filterMap_append, List.mem_append] at hs
    exact hs.elim ih fun hs => List.mem_singleton.1 hs ▸ ⟨table, ready⟩

end Context.Becomes

namespace Session

/-- The invocations of the pass that a session runs, none if it has no plan. -/
def invocations (s : Session) : List Invocation :=
  match s.plan with
  | none => []
  | some p => Step.invocations s.table p.steps (p.prepare s.frame)

/-- The invocations of a session are those of its plan's steps. -/
theorem invocations_of_plan {s : Session} {p : Plan} (h : s.plan = some p) :
    s.invocations = Step.invocations s.table p.steps (p.prepare s.frame) := by
  rw [invocations, h]

/-- A session in which a pass can run runs one, and reads the sink if it comes to its end. -/
theorem runOnce_of_ready {s : Session} (h : ¬s.Idle) :
    ∃ p, s.plan = some p ∧
      let pass := p.pass s.table s.frame
      (runOnce s).result = pass.result.isNone ∧
        (runOnce s).state.store = pass.state.store ∧
        (runOnce s).state.context =
          if pass.result.isNone then
            (Readout.read p pass.state.store pass.state.context).state
          else pass.state.context := by
  obtain ⟨p, hplan⟩ := Option.ne_none_iff_exists'.1 (h ∘ .inl)
  have hfault : s.fault = none := by simpa using h ∘ .inr
  refine ⟨p, hplan, ?_⟩
  unfold runOnce
  rw [hfault, hplan]
  dsimp only
  cases (p.pass s.table s.frame).result with
  | none => exact ⟨rfl, rfl, rfl⟩
  | some fault => exact ⟨rfl, rfl, rfl⟩

/-- What occurs when a session is asked to run a pass. Nothing does if it is idle. -/
def passHistory (s : Session) : List Occurrence :=
  if s.plan.isSome && s.fault.isNone then [.attempted s] else []

/-- To run a pass makes of the context what the history says. -/
theorem becomes_runOnce (s : Session) :
    s.context.Becomes s.table s.passHistory (runOnce s).state.context := by
  by_cases hidle : s.Idle
  · have hnone : s.passHistory = [] := by
      rw [passHistory, if_neg]
      rcases hidle with hplan | hfault
      · simp [hplan]
      · obtain ⟨fault, hfault⟩ := Option.isSome_iff_exists.1 hfault
        simp [hfault]
    rw [hnone, runOnce_of_idle hidle]
    exact .nothing
  · have hsome : s.passHistory = [.attempted s] := by
      rw [passHistory, if_pos]
      unfold Idle at hidle
      rw [Bool.and_eq_true]
      exact ⟨Option.isSome_iff_ne_none.2 (hidle ∘ .inl), by simpa using hidle ∘ .inr⟩
    rw [hsome]
    exact Context.Becomes.attempted .nothing rfl hidle

/-- To obey commands makes of the context what the installed plans say. -/
theorem becomes_obeyAll (commands : List Command) (s : Session) :
    s.context.Becomes s.table ((commands.filterMap Command.plan?).map .installed)
      (obeyAll commands s).state.context := by
  induction commands generalizing s with
  | nil => exact .nothing
  | cons c commands ih =>
    have hrest := ih (obey c s).state
    cases c with
    | install p => exact (Context.Becomes.installed .nothing p).trans hrest
    | clear => exact hrest
    | setRate rate =>
      rw [← state_tryRate, state_tryRate_eq] at hrest
      show s.context.Becomes s.table _
        (obeyAll commands (obey (.setRate rate) s).state).state.context
      rw [← state_tryRate, state_tryRate_eq]
      exact hrest

end Session

namespace Call

/-- What occurs in a call. In a frame, plans are installed before a pass is attempted. -/
def history (c : Call) (s : Session) : List Occurrence :=
  (c.installed s.table).map .installed ++
    match c with
    | .runOnce => s.passHistory
    | .tick commands time =>
      let ready := (Session.obeyAll commands s).state
      if (ready.pacer.tick time).1 then
        Session.passHistory { ready with pacer := (ready.pacer.tick time).2 }
      else []
    | .install _ | .planAndInstall _ | .clear | .setRate _ => []

/-- A call makes of the context what its history says. -/
theorem becomes (c : Call) (s : Session) :
    s.context.Becomes s.table (c.history s) (c.perform s).state.context := by
  cases c with
  | install p => exact Context.Becomes.installed .nothing p
  | clear => exact .nothing
  | planAndInstall g =>
    show s.context.Becomes s.table ((s.table.plan g).toOption.toList.map .installed ++ [])
      (Session.planAndInstall g s).state.context
    unfold Session.planAndInstall
    cases s.table.plan g with
    | error defect => exact .nothing
    | ok p => exact Context.Becomes.installed .nothing p
  | setRate rate =>
    show s.context.Becomes s.table [] (Session.tryRate rate s).state.context
    rw [Session.state_tryRate_eq]
    exact .nothing
  | runOnce => exact s.becomes_runOnce
  | tick commands time =>
    have hready := s.becomes_obeyAll commands
    have htable := (Session.Evolves.obeyAll commands s).table
    show s.context.Becomes s.table _ (Session.tick commands time s).state.context
    rw [(Session.tick_eq commands time s).2, history, installed]
    dsimp only
    -- A pass is attempted in the session that the commands leave, with its pacer moved on.
    generalize (Session.obeyAll commands s).state = ready at hready htable
    refine hready.trans ?_
    cases (ready.pacer.tick time).1 with
    | true =>
      have hpass := Session.becomes_runOnce { ready with pacer := (ready.pacer.tick time).2 }
      rw [← htable]
      exact hpass
    | false => exact .nothing

end Call

namespace Move

/-- What occurs in a move, which is what occurs in the call that it makes. -/
def history (m : Move) (h : Host) : List Occurrence :=
  match h.session, m.call? h.waiting with
  | some s, some c => c.history s
  | _, _ => []

/-- Nothing occurs in a move that leaves no session. -/
theorem history_of_session_none {m : Move} {h : Host} (hs' : (m.perform h).session = none) :
    m.history h = [] := by
  obtain ⟨session, mailbox, attached⟩ := h
  cases session with
  | none => rfl
  | some s =>
    cases m with
    | drop => rfl
    | install | planAndInstall | clear | setRate | runOnce | tick | send | planAndSend => cases hs'

/-- No pass is attempted in a move that neither runs one nor lets time go by. -/
theorem filterMap_attempted?_history {m : Move} (hrun : m ≠ .runOnce)
    (htick : ∀ time, m ≠ .tick time) (h : Host) :
    (m.history h).filterMap Occurrence.attempted? = [] := by
  unfold history
  cases h.session with
  | none => rfl
  | some s =>
    cases m with
    | runOnce => exact absurd rfl hrun
    | tick time => exact absurd rfl (htick time)
    | planAndInstall g =>
      show ((s.table.plan g).toOption.toList.map Occurrence.installed ++ []).filterMap _ = []
      cases s.table.plan g with
      | error defect => rfl
      | ok p => rfl
    | install | clear | setRate | send | planAndSend | drop => rfl

/-- A move makes of the context what its history says, and keeps the table. -/
theorem becomes {m : Move} {h : Host} {s' : Session} (hs' : (m.perform h).session = some s') :
    ∃ s, h.session = some s ∧ s'.table = s.table ∧
      s.context.Becomes s.table (m.history h) s'.context := by
  obtain ⟨s, hs, ⟨c, hc, rfl, -⟩ | ⟨hc, rfl, -⟩⟩ := session_perform hs'
  · refine ⟨s, hs, (c.evolves s).table, ?_⟩
    rw [history, hs, hc]
    exact c.becomes s
  · refine ⟨s', hs, rfl, ?_⟩
    rw [history, hs, hc]
    exact .nothing

end Move

namespace Host

/-- What occurs in moves in turn. -/
def history (h : Host) : List Move → List Occurrence
  | [] => []
  | m :: moves => m.history h ++ history (m.perform h) moves

/-- The sessions in which a pass is attempted in moves in turn, each as it is before its pass. -/
def attempts (h : Host) (moves : List Move) : List Session :=
  (h.history moves).filterMap Occurrence.attempted?

/-- Where there is no session, none comes and nothing occurs. -/
theorem play_of_session_none {h : Host} (hs : h.session = none) (moves : List Move) :
    (h.play moves).session = none ∧ h.history moves = [] := by
  induction moves generalizing h with
  | nil => exact ⟨hs, rfl⟩
  | cons m moves ih =>
    have hs' : (m.perform h).session = none := by
      refine Option.eq_none_iff_forall_ne_some.2 fun s' hs' => ?_
      obtain ⟨s, hsome, -⟩ := Move.becomes hs'
      cases hs.symm.trans hsome
    obtain ⟨hplay, hhistory⟩ := ih hs'
    refine ⟨hplay, ?_⟩
    rw [history, Move.history_of_session_none hs', hhistory]
    rfl

/-- Moves make of the context what their history says, and keep the table, as long as the session is
there. -/
theorem becomes_play {h : Host} {s : Session} (hs : h.session = some s) (moves : List Move) :
    ∃ c, s.context.Becomes s.table (h.history moves) c ∧
      ∀ s', (h.play moves).session = some s' → s'.table = s.table ∧ s'.context = c := by
  induction moves generalizing h s with
  | nil =>
    refine ⟨s.context, .nothing, fun s' hs' => ?_⟩
    rw [Option.some.inj (hs.symm.trans hs')]
    exact ⟨rfl, rfl⟩
  | cons m moves ih =>
    rw [history]
    cases hs₁ : (m.perform h).session with
    | none =>
      -- A session that is dropped has its last context, and nothing occurs any more.
      obtain ⟨hplay, hhistory⟩ := play_of_session_none hs₁ moves
      rw [Move.history_of_session_none hs₁, hhistory]
      exact ⟨s.context, .nothing, fun s' hs' => nomatch hplay.symm.trans hs'⟩
    | some s₁ =>
      obtain ⟨s₀, hs₀, htable, hfirst⟩ := Move.becomes hs₁
      obtain rfl := Option.some.inj (hs.symm.trans hs₀)
      obtain ⟨c, hrest, hend⟩ := ih hs₁
      rw [htable] at hrest hend
      exact ⟨c, hfirst.trans hrest, hend⟩

end Host

end NodeGraph
