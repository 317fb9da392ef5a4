import NodeGraph.Ident

/-!
# The slot pool

The pool hands out slots, always the one with the least index that is not in use, so that indices
given back are used again. A slot may belong to a port, and the port then keeps it; a slot without
an owner is handed out once and belongs to whoever asked.

Planning only ever asks for slots and gives none back, so that the slots of a plan are numbered
without gaps in the order in which they are first met.
-/

namespace NodeGraph

/-- The slots in use and the ports that own some of them. A slot in use need not have an owner. -/
structure SlotPool where
  owners : List (PortRef × Slot) := []
  /-- The indices in use, in increasing order. -/
  used : List Nat := []
  deriving DecidableEq, Repr

namespace SlotPool

/-- The least number from `start` on that is not in an increasing list of such numbers. -/
def leastFree (start : Nat) : List Nat → Nat
  | [] => start
  | n :: rest => if n = start then leastFree (start + 1) rest else start

/-- Puts a number in its place in an increasing list. It is not asked whether the number is there
already. -/
def insert (n : Nat) : List Nat → List Nat
  | [] => [n]
  | m :: rest => if n < m then n :: m :: rest else m :: insert n rest

/-- The slot of a port, if it has one. -/
def slot? (pool : SlotPool) (key : PortRef) : Option Slot :=
  (pool.owners.find? (·.1 = key)).map (·.2)

/-- Hands out a slot that belongs to no port. The sink gets its slots so, which no other step may
find. -/
def fresh : StateM SlotPool Slot := fun pool =>
  let index := leastFree 0 pool.used
  (⟨index⟩, { pool with used := insert index pool.used })

/-- Hands out the slot of a port, a new one at the port's first request. Later requests get the same
slot, until it is taken back. -/
def claim (key : PortRef) : StateM SlotPool Slot := fun pool =>
  match pool.slot? key with
  | some slot => (slot, pool)
  | none =>
    let (slot, pool) := fresh pool
    (slot, { pool with owners := pool.owners ++ [(key, slot)] })

/-- Takes back the slot of a port. A port without a slot changes nothing. -/
def release (pool : SlotPool) (key : PortRef) : SlotPool :=
  match pool.slot? key with
  | none => pool
  | some slot =>
    { owners := pool.owners.filter (·.1 ≠ key), used := pool.used.erase slot.index }

/-- Takes back a slot, also from the port that owns it. A slot that is not in use changes
nothing. -/
def releaseSlot (pool : SlotPool) (slot : Slot) : SlotPool :=
  { owners := pool.owners.filter (·.2 ≠ slot), used := pool.used.erase slot.index }

/-- The slot with the greatest index in use, if there is any. -/
def greatest? (pool : SlotPool) : Option Slot :=
  pool.used.getLast?.map Slot.mk

/-- The size of a store that holds every slot in use. It may be more than the number of these slots
after some were taken back. -/
def slotCount (pool : SlotPool) : Nat :=
  match pool.greatest? with
  | none => 0
  | some slot => slot.index + 1

/-- The number of slots in use, owned or not. -/
def size (pool : SlotPool) : Nat :=
  pool.used.length

end SlotPool

end NodeGraph
