import NodeGraph.Pass.Basic

/-!
# The readout of a pass

After a pass the sink's slots hold the results, in port order a scalar, a vector of two and a vector
of three components. A sink may declare other ports. What is in its slots is then coerced to these
types when it is read, and a position that it does not have reads as zero.
-/

namespace NodeGraph

/-- The results of a pass, as a host gets them. -/
structure Readout where
  scalar : Float32
  vector2 : Vec2
  vector3 : Vec3
  deriving DecidableEq

namespace Readout

/-- All zero, which a session shows before its first pass. -/
def zero : Readout where
  scalar := 0
  vector2 := ⟨0, 0⟩
  vector3 := ⟨0, 0, 0⟩

instance : Inhabited Readout := ⟨zero⟩

/-- The value at one of the sink's positions, absent if there is none. Positions count the sink's
input ports, and not the numbers of these ports. -/
def sinkValue (sink : Step) (store : SlotStore) (position : Nat) : Value :=
  match sink.results[position]? with
  | none => .absent
  | some d => (store.values[d.slot.index]?).getD .absent

/-- Reads the results of a plan's last pass. What cannot be coerced to its type reads as zero, and
counts as a fallback. The three are read in order, so that reports about them come in order. -/
def read (p : Plan) (store : SlotStore) : Logged Context Readout :=
  match p.sink? with
  | none => return zero
  | some sink => do
    let scalar ← Context.coerce .scalar (sinkValue sink store 0)
    let vector2 ← Context.coerce .vector2 (sinkValue sink store 1)
    let vector3 ← Context.coerce .vector3 (sinkValue sink store 2)
    return { scalar, vector2, vector3 }

/-- The results as shown to people, on one line. -/
def text (r : Readout) : String :=
  "scalar=" ++ Decimal.Style.plain.scalar r.scalar ++ " vector2=" ++ r.vector2.text ++
    " vector3=" ++ r.vector3.text

end Readout

end NodeGraph
