import NodeGraph.Proofs.Session.Pacing
import NodeGraph.Settings.File

/-!
# The rate and the interval

A pacer keeps its rate and the interval of that rate side by side. However a pacer comes about and
whatever rates are tried on it (`Pacer.Arises`), the two agree, and the interval is not nothing
(`Pacer.Arises.steady`). The pacer of a session comes about in this way in every run
(`Host.pacer_arises`), and the settings that a file gives have an interval to start with
(`Settings.exists_interval_of_load`).

The standard pacer is made without the checks that other rates go through. That it agrees with its
rate all the same is `Pacer.intervalOf_standard`.
-/

namespace NodeGraph

namespace Pacer

variable {p : Pacer} {rate : Float32}

/-- The pacers that come about: one at the standard rate or at a rate that has an interval, and what
frames, fresh starts and attempts to change the rate make of them. -/
inductive Arises : Pacer → Prop
  | standard : Arises .standard
  | ofRate {p : Pacer} {rate : Float32} (h : Pacer.ofRate rate = .ok p) : Arises p
  | tick {p : Pacer} (init : Arises p) (time : Duration) : Arises (p.tick time).2
  | reset {p : Pacer} (init : Arises p) : Arises p.reset
  | tryRate {p : Pacer} (init : Arises p) (rate : Float32) : Arises (p.tryRate rate)

/-- The rate and the interval of a pacer agree, so that a frame of no time after a pass is never one
with a pass due, and a rate without an interval changes nothing. -/
structure Steady (p : Pacer) : Prop where
  interval : intervalOf p.rate = .ok p.interval
  interval_ne_zero : p.interval ≠ .zero
  not_due : p.elapsed = .zero → (p.tick .zero).1 = false
  refused : ∀ rate problem, intervalOf rate = .error problem →
    p.setRate rate = .error problem ∧ p.tryRate rate = p

/-- The pacer of a rate has the interval of the rate and has counted nothing. -/
theorem ofRate_eq_ok_iff :
    ofRate rate = .ok p ↔ ∃ d, intervalOf rate = .ok d ∧ p = ⟨rate, d, .zero⟩ := by
  unfold ofRate
  rw [bind_eq_ok_iff]
  constructor
  · rintro ⟨d, hd, hp⟩
    cases hp
    exact ⟨d, hd, rfl⟩
  · rintro ⟨d, hd, rfl⟩
    exact ⟨d, hd, rfl⟩

/-- A rate without an interval is refused, and leaves the pacer as it is. -/
theorem setRate_of_error {problem : SettingsProblem} (h : intervalOf rate = .error problem)
    (p : Pacer) : p.setRate rate = .error problem ∧ p.tryRate rate = p := by
  have hset : p.setRate rate = .error problem := by
    rw [setRate, h]
    rfl
  refine ⟨hset, ?_⟩
  rw [tryRate, hset]

/-- A rate with an interval is taken together with it. -/
theorem tryRate_of_ok {d : Duration} (h : intervalOf rate = .ok d) (p : Pacer) :
    p.tryRate rate = { p with rate, interval := d } := by
  rw [tryRate, setRate, h]
  rfl

/-- A frame does not change the rate. -/
theorem rate_tick (p : Pacer) (time : Duration) : (p.tick time).2.rate = p.rate := by
  unfold tick
  dsimp only
  split <;> rfl

namespace Arises

/-- The interval is always that of the rate. By induction on how the pacer comes about. -/
theorem intervalOf_rate (h : p.Arises) : intervalOf p.rate = .ok p.interval := by
  induction h with
  | standard => exact intervalOf_standard
  | ofRate h =>
    obtain ⟨d, hd, rfl⟩ := ofRate_eq_ok_iff.1 h
    exact hd
  | tick _ time ih => rw [rate_tick, interval_tick, ih]
  | reset _ ih => exact ih
  | @tryRate p _ rate ih =>
    cases hrate : intervalOf rate with
    | error problem => rw [(setRate_of_error hrate p).2, ih]
    | ok d => rw [tryRate_of_ok hrate, hrate]

/-- A pacer that comes about is steady. -/
theorem steady (h : p.Arises) : p.Steady := by
  have hpos : 0 < p.interval.nanos := intervalOf_pos h.intervalOf_rate
  refine ⟨h.intervalOf_rate, fun hzero => ?_, fun helapsed => ?_, fun _ _ hrate =>
    setRate_of_error hrate p⟩
  · rw [hzero] at hpos
    exact absurd hpos (by decide)
  · rw [← Bool.not_eq_true, tick_due_iff, helapsed]
    show ¬p.interval.nanos ≤ 0 + 0
    omega

end Arises

end Pacer

/-- The pacer of a new session comes about, with settings or without. -/
theorem Session.New.pacer_arises {t : OpTable} {s : Session} (h : s.New t) : s.pacer.Arises := by
  cases h with
  | start stream => exact .standard
  | ofSettings h =>
    obtain ⟨p, hp, h⟩ := bind_eq_ok_iff.1 h
    cases h
    exact .ofRate hp

/-- In every run the session's pacer comes about from frames, fresh starts and attempts to change
the rate. -/
theorem Host.pacer_arises {t : OpTable} {h : Host} (hnew : h.New t) (moves : List Move) :
    ∀ p, (h.play moves).pacer? = some p → p.Arises := by
  obtain ⟨s, hs, hnew⟩ := hnew
  refine Pacer.Kept.play ⟨.tick, .reset, .tryRate⟩ (fun p hp => ?_) moves
  rw [Host.pacer?, hs] at hp
  cases hp
  exact hnew.pacer_arises

namespace Session

/-- A rate without an interval leaves the session as it is, whether it is set directly or by a
command. -/
theorem tryRate_of_error {rate : Float32} {problem : SettingsProblem}
    (h : Pacer.intervalOf rate = .error problem) (s : Session) :
    tryRate rate s = { result := .error problem, state := s } ∧
      (obey (.setRate rate) s).state = s := by
  have hset : s.setRate rate = .error problem := by
    rw [setRate, (Pacer.setRate_of_error h s.pacer).1]
    rfl
  have htry : tryRate rate s = { result := .error problem, state := s } := by
    rw [tryRate, hset]
  exact ⟨htry, by rw [← state_tryRate, htry]⟩

/-- Settings whose rate has an interval start a session with this interval. -/
theorem exists_ofSettings {settings : Settings} {d : Duration}
    (h : Pacer.intervalOf settings.rate = .ok d) (t : OpTable) (entropy : Random.Stream) :
    ∃ s, ofSettings settings t entropy = .ok s ∧ s.pacer = ⟨settings.rate, d, .zero⟩ := by
  rw [ofSettings, Pacer.ofRate_eq_ok_iff.2 ⟨d, h, rfl⟩]
  exact ⟨_, rfl, rfl⟩

end Session

namespace Settings

variable {path : String} {file : FileContent} {settings : Settings}

/-- The rate in settings that are loaded has an interval. -/
theorem exists_interval_of_load (h : load path file = .ok settings) :
    ∃ d, Pacer.intervalOf settings.rate = .ok d := by
  unfold load at h
  split at h
  · cases h
  · split at h
    · cases h
    · obtain ⟨_, hvalid, h⟩ := bind_eq_ok_iff.1 h
      cases h
      obtain ⟨d, hd, -⟩ := bind_eq_ok_iff.1 hvalid
      exact ⟨d, hd⟩

/-- The rate in settings that are loaded, or stand in for what cannot be, has an interval. -/
theorem exists_interval_of_loadOrDefault (path : String) (file : FileContent) :
    ∃ d, Pacer.intervalOf (loadOrDefault path file).1.rate = .ok d := by
  unfold loadOrDefault
  split
  · exact ⟨_, Pacer.intervalOf_standard⟩
  · split
    · exact exists_interval_of_load ‹_›
    · exact ⟨_, Pacer.intervalOf_standard⟩

end Settings

/-- The rate and the interval never drift apart. Every pacer that comes about is steady, and so is
the pacer of a session in every run; a rate without an interval leaves the session as it is, however
it arrives. What a settings file gives can be used, and a session starts with its interval. -/
theorem Host.rate_keeps_interval :
    (∀ p : Pacer, p.Arises → p.Steady) ∧
    (∀ (t : OpTable) (h : Host) (moves : List Move) (s : Session), h.New t →
      (h.play moves).session = some s →
      s.pacer.Steady ∧ ∀ rate problem, Pacer.intervalOf rate = .error problem →
        Session.tryRate rate s = { result := .error problem, state := s } ∧
          (Session.obey (.setRate rate) s).state = s) ∧
    ∀ (path : String) (file : FileContent) (settings : Settings),
      Settings.load path file = .ok settings ∨ (Settings.loadOrDefault path file).1 = settings →
      ∃ d, Pacer.intervalOf settings.rate = .ok d ∧ ∀ (t : OpTable) (entropy : Random.Stream),
        ∃ s, Session.ofSettings settings t entropy = .ok s ∧
          s.pacer = ⟨settings.rate, d, .zero⟩ := by
  refine ⟨fun p hp => hp.steady, fun t h moves s hnew hs => ⟨?_, fun rate problem hrate => ?_⟩,
    fun path file settings hsettings => ?_⟩
  · have hp : (h.play moves).pacer? = some s.pacer := by
      rw [pacer?, hs]
      rfl
    exact (pacer_arises hnew moves s.pacer hp).steady
  · exact Session.tryRate_of_error hrate s
  · have hinterval : ∃ d, Pacer.intervalOf settings.rate = .ok d := by
      rcases hsettings with hload | rfl
      · exact Settings.exists_interval_of_load hload
      · exact Settings.exists_interval_of_loadOrDefault path file
    obtain ⟨d, hd⟩ := hinterval
    exact ⟨d, hd, fun t entropy => Session.exists_ofSettings hd t entropy⟩

/-- Of the rates that are tried, directly and through the queue, one is no number, one is negative,
one is so low that the interval is no span, and one is so high that the interval rounds to nothing.
Only the fifth one is taken. -/
theorem Host.rate_keeps_interval_refusals :
    let t : OpTable := ⟨[]⟩
    let h : Host := { session := some (.start t (.ofSeed 0)), attached := true }
    let moves := [.setRate (0 / 0), .send (.setRate 1e-30), .tick (.ofNanos 100000000),
      .send (.setRate 5), .setRate (-1), .tick .zero, .send (.setRate 3.4028235e38), .tick .zero]
    let p : Pacer := ⟨5, .ofNanos 200000000, .ofNanos 100000000⟩
    let file := FileContent.text "updates_per_second = 12.5\n"
    (h.New t ∧ (h.play moves).pacer? = some p ∧ p.Steady) ∧
      Settings.load "settings" file = .ok { rate := 12.5 } ∧
      ∃ s, Session.ofSettings { rate := 12.5 } t (.ofSeed 0) = .ok s ∧
        s.pacer = ⟨12.5, .ofNanos 80000000, .zero⟩ := by
  intro t h moves p file
  have hnew : h.New t := ⟨_, rfl, .start _⟩
  have hp : (h.play moves).pacer? = some p := by decide +kernel
  have hload : Settings.load "settings" file = .ok { rate := 12.5 } := by decide +kernel
  have hrate : Pacer.intervalOf 12.5 = .ok (.ofNanos 80000000) := by decide +kernel
  obtain ⟨-, hsteady, hsettings⟩ := Host.rate_keeps_interval
  obtain ⟨s, hs, hsp⟩ := Option.map_eq_some_iff.1 hp
  obtain ⟨d, hd, hstart⟩ := hsettings _ _ _ (.inl hload)
  rw [hrate] at hd
  cases hd
  exact ⟨⟨hnew, hp, hsp ▸ (hsteady t h moves s hnew hs).1⟩, hload, hstart t (.ofSeed 0)⟩

end NodeGraph
