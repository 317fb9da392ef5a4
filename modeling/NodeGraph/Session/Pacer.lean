import NodeGraph.Failure
import NodeGraph.Binary

/-!
# Pacing

The host tells a pacer how much time has gone by. A pass is due once the time since the last one
reaches the interval of the rate; then counting starts again from nothing. Time beyond the interval
is dropped, so there is at most one pass per call and no catching up.

The interval is computed from the rate once, when the rate is set, and is a whole number of
nanoseconds. A rate for which there is no such interval is refused.
-/

namespace NodeGraph

/-- Passes at a fixed rate, and how far the time to the next one has come. -/
structure Pacer where
  /-- Passes a second, as the rate was given. It is kept to be shown, and the interval is what
  counts. -/
  rate : Float32
  /-- The time between two passes. -/
  interval : Duration
  /-- The time since the last pass, or since counting was last started. -/
  elapsed : Duration
  deriving DecidableEq

namespace Pacer

/-- The time between two passes at a rate. The rate has to be finite and positive, and the time has
to be a span and not nothing. -/
def intervalOf (rate : Float32) : Except SettingsProblem Duration :=
  if !rate.isFinite || rate ≤ 0 then .error (.rateNotPositive rate)
  else
    match Duration.ofSeconds (1 / Binary.widen rate) with
    | .error e => .error (.rateInterval rate e)
    | .ok d => if d = .zero then .error (.rateTooHigh rate) else .ok d

/-- A pacer at a rate. The first pass is due after one interval. -/
def ofRate (rate : Float32) : Except SettingsProblem Pacer := do
  return { rate, interval := ← intervalOf rate, elapsed := .zero }

/-- The rate where none is given: three passes a second. -/
def standardRate : Float32 := 3

/-- A pacer at the standard rate. Its interval is taken right from the quotient, without the checks
that a rate from outside has to pass. -/
def standard : Pacer where
  rate := standardRate
  interval := .ofSpan (1 / Binary.widen standardRate) (by decide +kernel)
  elapsed := .zero

/-- Lets time go by. Tells whether a pass is due. However long the time is, one pass is due at
most. -/
def tick (p : Pacer) (time : Duration) : Bool × Pacer :=
  let elapsed := p.elapsed + time
  if p.interval ≤ elapsed then (true, { p with elapsed := .zero })
  else (false, { p with elapsed })

/-- Changes the rate. The time since the last pass is kept. -/
def setRate (p : Pacer) (rate : Float32) : Except SettingsProblem Pacer := do
  return { p with rate, interval := ← intervalOf rate }

/-- Starts counting from nothing. The rate stays. -/
def reset (p : Pacer) : Pacer :=
  { p with elapsed := .zero }

end Pacer

end NodeGraph
