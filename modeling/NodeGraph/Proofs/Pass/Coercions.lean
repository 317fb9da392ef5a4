import NodeGraph.Proofs.Pass.Remains

/-!
# What coercions leave in the context

A coercion for which there is no conversion is lossy: it falls back to zero, and adds one to both
counts of the context. Any other coercion leaves the context as it is. So the values that a step
writes and those that are read of the sink add to the counts as many as there are lossy coercions
among them (`Destination.context_writeAll`, `Readout.state_read`), and change nothing else.

Coercions are listed as data (`Coercion`), so that what is counted can be said without the context
in which it is counted.
-/

namespace NodeGraph

/-- A value that is coerced, and the type that it is coerced to. -/
structure Coercion where
  value : Value
  type : ValueType

namespace Coercion

/-- Whether there is no conversion, so that the zero of the type stands in. An absent value has one
to every type. -/
def isLossy (k : Coercion) : Bool :=
  (k.value.convert? k.type).isNone

/-- The number of lossy coercions in a list, which is by how much the counts go up. -/
def losses (ks : List Coercion) : Nat :=
  ks.countP isLossy

/-- No coercion is no loss. -/
@[simp] theorem losses_nil : losses [] = 0 :=
  rfl

/-- The first coercion counts if it is lossy. -/
@[simp] theorem losses_cons (k : Coercion) (ks : List Coercion) :
    losses (k :: ks) = k.isLossy.toNat + losses ks := by
  unfold losses
  cases h : k.isLossy with
  | true => rw [List.countP_cons_of_pos h, Bool.toNat_true, Nat.add_comm]
  | false => rw [List.countP_cons_of_neg (by simp [h]), Bool.toNat_false, Nat.zero_add]

/-- Losses add up, so that coercions can be counted part by part. -/
@[simp] theorem losses_append (ks ks' : List Coercion) :
    losses (ks ++ ks') = losses ks + losses ks' :=
  List.countP_append

end Coercion

open Coercion

namespace Tally

/-- The tally after a number of fallbacks, each of which goes to both counts. -/
def add (t : Tally) (n : Nat) : Tally :=
  ⟨t.total + n, t.lastPass + n⟩

/-- The fallbacks of two parts go to a tally together. -/
@[simp] theorem add_add (t : Tally) (m n : Nat) : (t.add m).add n = t.add (m + n) := by
  simp only [add, Nat.add_assoc]

end Tally

namespace Context

/-- The context after a number of fallbacks. The random stream is not touched by them. -/
def countFallbacks (n : Nat) (c : Context) : Context :=
  { c with tally := c.tally.add n }

/-- The fallbacks of one part and of the next one are those of both. -/
@[simp] theorem countFallbacks_countFallbacks (m n : Nat) (c : Context) :
    (c.countFallbacks m).countFallbacks n = c.countFallbacks (m + n) := by
  simp only [countFallbacks, Tally.add_add]

/-- To coerce a value to a type counts if it is lossy, and leaves the context as it is otherwise. -/
theorem state_convert (v : Value) (ty : ValueType) (c : Context) :
    (convert v ty c).state = c.countFallbacks (Coercion.mk v ty).isLossy.toNat := by
  unfold convert isLossy
  cases v.convert? ty with
  | none => rfl
  | some w => rfl

/-- To coerce a value to the data of a type counts if it is lossy. The data is there whenever the
coerced value is. -/
theorem state_coerce (ty : ValueType) (v : Value) (c : Context) :
    (coerce ty v c).state = c.countFallbacks (Coercion.mk v ty).isLossy.toNat := by
  have hlossy : (Coercion.mk v ty).isLossy = (v.as? ty).isNone := by
    cases ty <;> cases v <;> rfl
  unfold coerce
  rw [hlossy]
  cases v.as? ty with
  | none => rfl
  | some payload => rfl

end Context

namespace Destination

/-- The coercions of values that are written to destinations in order, up to the first one for whose
destination there is no slot. That one is still coerced. -/
def coercions (size : Nat) : List Destination → List Value → List Coercion
  | d :: ds, v :: vs => ⟨v, d.type⟩ :: if d.slot.index < size then coercions size ds vs else []
  | _, _ => []

/-- Where there are slots for all destinations, all values that have a destination are coerced. -/
theorem coercions_eq_zipWith {size : Nat} {ds : List Destination}
    (h : ∀ d ∈ ds, d.slot.index < size) (vs : List Value) :
    coercions size ds vs = List.zipWith (fun d v => ⟨v, d.type⟩) ds vs := by
  induction ds generalizing vs with
  | nil => rfl
  | cons d ds ih =>
    cases vs with
    | nil => rfl
    | cons v vs =>
      obtain ⟨hd, hds⟩ := List.forall_mem_cons.1 h
      rw [coercions, if_pos hd, ih hds, List.zipWith_cons_cons]

/-- To write a value counts if its coercion is lossy, also if there is no slot to write it to. -/
theorem context_write (d : Destination) (v : Value) (f : Frame) :
    (d.write v f).state.context =
      f.context.countFallbacks (Coercion.mk v d.type).isLossy.toNat := by
  rw [← Context.state_convert]
  unfold write
  dsimp only
  split <;> rfl

/-- To write a value stops with a fault where there is no slot, and only there. -/
theorem result_write (d : Destination) (v : Value) (f : Frame) :
    (d.write v f).result =
      if d.slot.index < f.store.size then none
      else some (.slotOutOfBounds d.slot f.store.size) := by
  unfold write SlotStore.set
  by_cases hslot : d.slot.index < f.store.size
  · simp only [if_pos hslot]
  · simp only [if_neg hslot]

/-- To write values counts the lossy ones among their coercions. By induction on the destinations:
after a fault no further value is coerced, and none is listed. -/
theorem context_writeAll (ds : List Destination) (vs : List Value) (f : Frame) :
    (writeAll ds vs f).state.context =
      f.context.countFallbacks (losses (coercions f.store.size ds vs)) := by
  induction ds generalizing vs f with
  | nil => rfl
  | cons d ds ih =>
    cases vs with
    | nil => rfl
    | cons v vs =>
      have hresult := result_write d v f
      rw [writeAll, coercions, losses_cons, ← Context.countFallbacks_countFallbacks,
        ← context_write]
      by_cases hslot : d.slot.index < f.store.size
      · rw [if_pos hslot] at hresult ⊢
        rw [Progress.andThen_of_none hresult, ← size_write d v f]
        exact ih vs (d.write v f).state
      · rw [if_neg hslot] at hresult ⊢
        rw [Progress.andThen_of_some hresult]
        rfl

end Destination

namespace Readout

/-- The coercions of the three values that are read of the sink. Without a sink nothing is
coerced. -/
def coercions (p : Plan) (store : SlotStore) : List Coercion :=
  match p.sink? with
  | none => []
  | some sink =>
    [⟨sinkValue sink store 0, .scalar⟩, ⟨sinkValue sink store 1, .vector2⟩,
      ⟨sinkValue sink store 2, .vector3⟩]

/-- To read the sink counts the lossy ones among the coercions, and changes nothing else in the
context. -/
theorem state_read (p : Plan) (store : SlotStore) (c : Context) :
    (read p store c).state = c.countFallbacks (losses (coercions p store)) := by
  unfold read coercions
  cases p.sink? with
  | none => rfl
  | some sink =>
    show (Context.coerce _ _ (Context.coerce _ _ (Context.coerce _ _ c).state).state).state = _
    simp only [Context.state_coerce, Context.countFallbacks_countFallbacks, losses_cons, losses_nil,
      Nat.add_zero, Nat.add_assoc]

end Readout

end NodeGraph
