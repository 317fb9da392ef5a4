import NodeGraph.Failure

/-!
# The slot store

The values of a plan's slots while it runs. A pass starts from a store in which every value is
absent, and its steps change one value after the other. To get or set a value that is not there is a
fault and changes nothing.
-/

namespace NodeGraph

/-- Values by slot: the value of the slot with index `i` is the one at `i`. -/
structure SlotStore where
  values : List Value := []
  deriving DecidableEq

namespace SlotStore

/-- A store with so many slots, all absent. -/
def ofSize (n : Nat) : SlotStore :=
  ⟨List.replicate n .absent⟩

/-- The number of slots, which is as many as the plan that runs on the store asked for. -/
def size (s : SlotStore) : Nat :=
  s.values.length

/-- The store with every value absent, and as many slots as before. -/
def reset (s : SlotStore) : SlotStore :=
  ⟨s.values.map fun _ => .absent⟩

/-- The value of a slot, or the fault with which a pass stops where the slot is out of bounds. -/
def get (s : SlotStore) (slot : Slot) : Except Fault Value :=
  match s.values[slot.index]? with
  | some v => .ok v
  | none => .error (.slotOutOfBounds slot s.size)

/-- The store with the value of a slot changed. A store does not grow by it. -/
def set (s : SlotStore) (slot : Slot) (v : Value) : Except Fault SlotStore :=
  if slot.index < s.size then .ok ⟨s.values.set slot.index v⟩
  else .error (.slotOutOfBounds slot s.size)

end SlotStore

end NodeGraph
