import NodeGraph.Operation.Table

/-!
# Built-in operations

The sink, random vectors, constants, scalar arithmetic and parameter reads. None of them fails: an
input that is not there or of another type is coerced, and every arithmetic operation has a result
for any two scalars.
-/

namespace NodeGraph

namespace Operation

/-- The input at a position, absent if there are fewer. An operation can be invoked with any number
of inputs, whatever it expects. -/
def input (inputs : List Value) (position : Nat) : Value :=
  inputs.getD position .absent

/-- All inputs, unchanged. Their types are settled when they are written to the sink's slots. -/
def passAll : Operation := fun inputs =>
  return inputs

/-- The first input, unchanged. Constants and parameter reads are this operation, with a literal as
their input. -/
def passFirst : Operation := fun inputs =>
  return [input inputs 0]

/-- A vector of three random scalars in `[0, 1)`, drawn in the order of the components. -/
def randomVector3 : Operation := fun _ => do
  let x ← Context.randomScalar
  let y ← Context.randomScalar
  let z ← Context.randomScalar
  return [.vector3 ⟨x, y, z⟩]

/-- A function of the first two inputs as scalars. The first input is coerced first, so that its
fallback is reported before that of the second. -/
def binary (f : Float32 → Float32 → Float32) : Operation := fun inputs => do
  let a ← Context.coerce .scalar (input inputs 0)
  let b ← Context.coerce .scalar (input inputs 1)
  return [.scalar (f a b)]

/-- The sum. If one input is NaN, so is the sum. -/
def add : Operation := binary (· + ·)

/-- The difference of the first input and the second. -/
def subtract : Operation := binary (· - ·)

/-- The product of both inputs. -/
def multiply : Operation := binary (· * ·)

/-- The remainder with the sign of the first input. A zero divisor gives NaN. -/
def modulo : Operation := binary Binary.remainder

/-- The quotient. A zero divisor gives an infinity or NaN. -/
def divide : Operation := binary (· / ·)

end Operation

/-- The table of all built-in operations. The names are those that listings show. -/
def OpTable.builtin : OpTable :=
  .ofList
    [(.sink, ⟨"Main", Operation.passAll⟩),
      (.randomVector3, ⟨"Random Vector3", Operation.randomVector3⟩),
      (.constant .bool, ⟨"Bool", Operation.passFirst⟩),
      (.constant .integer, ⟨"Integer", Operation.passFirst⟩),
      (.constant .scalar, ⟨"Float", Operation.passFirst⟩),
      (.constant .vector2, ⟨"Vector2", Operation.passFirst⟩),
      (.constant .vector3, ⟨"Vector3", Operation.passFirst⟩),
      (.constant .vector4, ⟨"Vector4", Operation.passFirst⟩),
      (.add, ⟨"Add", Operation.add⟩),
      (.subtract, ⟨"Subtract", Operation.subtract⟩),
      (.multiply, ⟨"Multiply", Operation.multiply⟩),
      (.modulo, ⟨"Modulo", Operation.modulo⟩),
      (.divide, ⟨"Divide", Operation.divide⟩),
      (.parameter, ⟨"Get Parameter", Operation.passFirst⟩)]

end NodeGraph
