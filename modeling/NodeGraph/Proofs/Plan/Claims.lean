import Mathlib.Data.List.Nodup
import NodeGraph.Plan.SlotPool

/-!
# Slots in the order of their claims

While a plan is assembled no slot is taken back, so the pool is always dense: the ports that have
claimed a slot own the first ones in the order of their first claims, and slots without an owner
follow (`SlotPool.dense`). What a computation on such a pool does is then said by the list of its
claims and by its result as a function of the slots that ports own (`SlotPool.Claims`). The slots
may be those of any later pool, since a port keeps its slot.

`SlotPool.Claims` has a lemma for each way in which computations are put together, so that the
claims of a step follow from how the step is made.
-/

namespace NodeGraph

/-- A list with the members of another one added at its end, those that it does not have yet. -/
def enroll {α : Type} [DecidableEq α] (keys claims : List α) : List α :=
  claims.foldl (fun keys key => if key ∈ keys then keys else keys ++ [key]) keys

section Enroll

variable {α β : Type} [DecidableEq α] [DecidableEq β] {keys claims : List α} {key : α}

/-- Without claims a list stays as it is. -/
@[simp] theorem enroll_nil (keys : List α) : enroll keys [] = keys := rfl

/-- The first claim is enrolled first. -/
theorem enroll_cons (keys : List α) (key : α) (claims : List α) :
    enroll keys (key :: claims) = enroll (if key ∈ keys then keys else keys ++ [key]) claims := rfl

/-- Claims may be enrolled in two parts, the second one in what the first has left. -/
theorem enroll_append (keys claims later : List α) :
    enroll keys (claims ++ later) = enroll (enroll keys claims) later :=
  List.foldl_append ..

/-- What was there stays in its place, so that a port keeps its slot. -/
theorem prefix_enroll (keys claims : List α) : keys <+: enroll keys claims := by
  induction claims generalizing keys with
  | nil => exact List.prefix_rfl
  | cons key claims ih =>
    rw [enroll_cons]
    split
    · exact ih keys
    · exact (List.prefix_append keys [key]).trans (ih _)

/-- Nothing else than what was there and what was claimed is enrolled. -/
theorem mem_enroll : key ∈ enroll keys claims ↔ key ∈ keys ∨ key ∈ claims := by
  induction claims generalizing keys with
  | nil => simp
  | cons first claims ih =>
    rw [enroll_cons, ih]
    split <;> grind

/-- Nothing is enrolled twice, if nothing was there twice. -/
theorem nodup_enroll (h : keys.Nodup) : (enroll keys claims).Nodup := by
  induction claims generalizing keys with
  | nil => exact h
  | cons key claims ih =>
    rw [enroll_cons]
    split
    · exact ih h
    · rename_i hkey
      refine ih ?_
      rw [← List.concat_eq_append, List.nodup_concat]
      exact ⟨hkey, h⟩

/-- Claims of what is there change nothing. -/
theorem enroll_of_subset (h : ∀ key ∈ claims, key ∈ keys) : enroll keys claims = keys := by
  induction claims with
  | nil => rfl
  | cons key claims ih =>
    obtain ⟨hkey, hclaims⟩ := List.forall_mem_cons.1 h
    rw [enroll_cons, if_pos hkey, ih hclaims]

/-- Claims of what is not there, each once, are added as they are. -/
theorem enroll_of_nodup (h : (keys ++ claims).Nodup) : enroll keys claims = keys ++ claims := by
  induction claims generalizing keys with
  | nil => exact (List.append_nil keys).symm
  | cons key claims ih =>
    rw [← List.singleton_append, ← List.append_assoc] at h
    have hkey : key ∉ keys := fun hk =>
      List.disjoint_of_nodup_append h.of_append_left hk (List.mem_singleton_self key)
    rw [enroll_cons, if_neg hkey, ih h, List.append_assoc, List.singleton_append]

/-- Enrolling commutes with a function that tells the members apart. -/
theorem map_enroll {f : α → β}
    (h : ∀ a ∈ keys ++ claims, ∀ b ∈ keys ++ claims, f a = f b → a = b) :
    (enroll keys claims).map f = enroll (keys.map f) (claims.map f) := by
  induction claims generalizing keys with
  | nil => rfl
  | cons key claims ih =>
    have hmem : f key ∈ keys.map f ↔ key ∈ keys := by
      refine ⟨fun hk => ?_, fun hk => List.mem_map_of_mem hk⟩
      obtain ⟨a, ha, hf⟩ := List.mem_map.1 hk
      exact h a (List.mem_append_left _ ha) key (by simp) hf ▸ ha
    rw [enroll_cons, List.map_cons, enroll_cons]
    by_cases hkey : key ∈ keys
    · rw [if_pos hkey, if_pos (hmem.2 hkey)]
      exact ih fun a ha b hb => h a (by grind) b (by grind)
    · rw [if_neg hkey, if_neg (mt hmem.1 hkey), ih fun a ha b hb => h a (by grind) b (by grind)]
      simp

/-- To enroll a list in an empty one is to keep its first occurrences. -/
theorem eraseDups_append_eq_enroll (h : keys.Nodup) :
    (keys ++ claims).eraseDups = enroll keys claims := by
  induction claims generalizing keys with
  | nil =>
    simp only [List.append_nil, enroll_nil]
    induction keys with
    | nil => rfl
    | cons key keys ih =>
      obtain ⟨hkey, hkeys⟩ := List.nodup_cons.1 h
      have hfilter : keys.filter (fun b => !b == key) = keys :=
        List.filter_eq_self.2 fun a ha => by simpa using ne_of_mem_of_not_mem ha hkey
      rw [List.eraseDups_cons, hfilter, ih hkeys]
  | cons key claims ih =>
    rw [enroll_cons]
    split
    · rename_i hkey
      rw [← ih h, List.eraseDups_append, List.eraseDups_append, List.cons_removeAll,
        if_neg (by simpa using hkey)]
    · rename_i hkey
      rw [← ih (by rw [← List.concat_eq_append, List.nodup_concat]; exact ⟨hkey, h⟩)]
      simp

end Enroll

namespace SlotPool

variable {α β : Type} {keys : List PortRef} {key : PortRef}

/-- The pool in which the given ports own the first slots in turn, and `extra` slots without an
owner follow. -/
def dense (keys : List PortRef) (extra : Nat) : SlotPool where
  owners := keys.zipIdx.map fun (key, i) => (key, ⟨i⟩)
  used := List.range (keys.length + extra)

/-- The slot of a port in a dense pool, whose index is the place of the port among the owners. -/
def slotIn (keys : List PortRef) (key : PortRef) : Slot :=
  ⟨keys.idxOf key⟩

/-- A port keeps its slot when others claim theirs. -/
theorem slotIn_of_isPrefix {later : List PortRef} (h : keys <+: later) (hk : key ∈ keys) :
    slotIn later key = slotIn keys key := by
  obtain ⟨rest, rfl⟩ := h
  rw [slotIn, List.idxOf_append_of_mem hk, slotIn]

/-- Ports that have a slot have different ones. -/
theorem slotIn_inj {key' : PortRef} (hk : key ∈ keys) :
    slotIn keys key = slotIn keys key' ↔ key = key' := by
  rw [slotIn, slotIn, Slot.mk.injEq]
  exact List.idxOf_inj hk

/-- The slots of all ports are the first ones in turn. -/
theorem map_slotIn (h : keys.Nodup) :
    keys.map (slotIn keys) = (List.range keys.length).map Slot.mk := by
  refine List.ext_getElem (by simp) fun i _ _ => ?_
  simp [slotIn, h.idxOf_getElem]

/-- The owners of a dense pool, looked up from some index on. This is the general form that the
induction on the owners needs. -/
theorem find?_zipIdx (keys : List PortRef) (key : PortRef) (start : Nat) :
    ((keys.zipIdx start).map fun (k, i) => (k, Slot.mk i)).find? (·.1 = key) =
      if key ∈ keys then some (key, ⟨start + keys.idxOf key⟩) else none := by
  induction keys generalizing start with
  | nil => rfl
  | cons k keys ih =>
    rw [List.zipIdx_cons, List.map_cons]
    by_cases hk : k = key
    · simp [hk]
    · rw [List.find?_cons_of_neg (by simpa using hk), ih, List.idxOf_cons_ne _ hk]
      simp [Ne.symm hk, Nat.add_comm, Nat.add_left_comm]

/-- A port has a slot in a dense pool exactly if it is one of the owners. -/
theorem slot?_dense (keys : List PortRef) (extra : Nat) (key : PortRef) :
    (dense keys extra).slot? key = if key ∈ keys then some (slotIn keys key) else none := by
  rw [slot?, dense, find?_zipIdx]
  split <;> simp [slotIn]

/-- The least number beyond a range is its end. -/
theorem leastFree_range' (start n : Nat) : leastFree start (List.range' start n) = start + n := by
  induction n generalizing start with
  | zero => rfl
  | succ n ih =>
    rw [List.range'_succ, leastFree, if_pos rfl, ih]
    omega

/-- A number greater than all others goes to the end. -/
theorem insert_of_lt {n : Nat} {l : List Nat} (h : ∀ m ∈ l, m < n) : insert n l = l ++ [n] := by
  induction l with
  | nil => rfl
  | cons m l ih =>
    obtain ⟨hm, hl⟩ := List.forall_mem_cons.1 h
    rw [insert, if_neg (by omega), ih hl, List.cons_append]

/-- A dense pool hands out the slot after the last one, and is dense again. -/
theorem fresh_dense (keys : List PortRef) (extra : Nat) :
    fresh (dense keys extra) = (⟨keys.length + extra⟩, dense keys (extra + 1)) := by
  have hleast : leastFree 0 (List.range (keys.length + extra)) = keys.length + extra := by
    rw [List.range_eq_range', leastFree_range', Nat.zero_add]
  have hinsert : insert (keys.length + extra) (List.range (keys.length + extra)) =
      List.range (keys.length + (extra + 1)) := by
    rw [insert_of_lt (by simp), ← List.range_succ]
    rfl
  simp only [fresh, dense, hleast, hinsert]

/-- A claim in a dense pool enrolls the port, unless it has a slot, and gives its slot. -/
theorem claim_dense (keys : List PortRef) (key : PortRef) :
    claim key (dense keys 0) =
      (slotIn (enroll keys [key]) key, dense (enroll keys [key]) 0) := by
  rw [enroll_cons, enroll_nil, claim, slot?_dense]
  by_cases hk : key ∈ keys
  · simp only [if_pos hk]
  · simp only [if_neg hk, fresh_dense]
    have hslot : slotIn (keys ++ [key]) key = ⟨keys.length⟩ := by
      simp [slotIn, List.idxOf_append, hk]
    rw [hslot]
    simp [dense, List.zipIdx_append]

/-- A dense pool needs room for its slots and no more. -/
theorem slotCount_dense (keys : List PortRef) (extra : Nat) :
    (dense keys extra).slotCount = keys.length + extra := by
  simp only [slotCount, greatest?, dense]
  cases h : keys.length + extra with
  | zero => rfl
  | succ n => simp [List.range_succ]

/-- A computation claims the slots of the given ports in turn, and otherwise only looks at the slots
that ports have. These are the same in every later pool. -/
def Claims (x : StateM SlotPool α) (claims : List PortRef) (result : (PortRef → Slot) → α) : Prop :=
  ∀ keys, ∃ a, x (dense keys 0) = (a, dense (enroll keys claims) 0) ∧
    ∀ later, enroll keys claims <+: later → a = result (slotIn later)

namespace Claims

/-- A result that is already known claims nothing. -/
theorem pure (a : α) : Claims (Pure.pure a) [] fun _ => a :=
  fun _ => ⟨a, rfl, fun _ _ => rfl⟩

/-- A claim gives the slot of the port. -/
theorem claim (key : PortRef) : Claims (SlotPool.claim key) [key] fun slots => slots key := by
  intro keys
  refine ⟨_, claim_dense keys key, fun later h => (slotIn_of_isPrefix h ?_).symm⟩
  exact mem_enroll.2 (.inr (List.mem_singleton_self key))

/-- One computation after another makes the claims of both. What the second one claims must not
depend on the result of the first. -/
theorem bind {x : StateM SlotPool α} {f : α → StateM SlotPool β} {claims claims' : List PortRef}
    {result : (PortRef → Slot) → α} {result' : α → (PortRef → Slot) → β}
    (hx : Claims x claims result) (hf : ∀ a, Claims (f a) claims' (result' a)) :
    Claims (x >>= f) (claims ++ claims') fun slots => result' (result slots) slots := by
  intro keys
  obtain ⟨a, hxa, ha⟩ := hx keys
  obtain ⟨b, hfb, hb⟩ := hf a (enroll keys claims)
  rw [enroll_append]
  refine ⟨b, ?_, fun later h => ?_⟩
  · show (let (a, pool) := x (dense keys 0); f a pool) = _
    rw [hxa]
    exact hfb
  · rw [hb later h, ha later ((prefix_enroll _ claims').trans h)]

/-- What is made of the result claims nothing. -/
theorem map {x : StateM SlotPool α} {claims : List PortRef} {result : (PortRef → Slot) → α}
    (hx : Claims x claims result) (f : α → β) :
    Claims (do return f (← x)) claims fun slots => f (result slots) := by
  have := hx.bind fun a => pure (f a)
  rwa [List.append_nil] at this

/-- A computation for every member of a list makes the claims of all, in the order of the list. -/
theorem mapM {f : α → StateM SlotPool β} {claims : α → List PortRef}
    {result : α → (PortRef → Slot) → β} (h : ∀ a, Claims (f a) (claims a) (result a))
    (l : List α) : Claims (l.mapM f) (l.flatMap claims) fun slots => l.map (result · slots) := by
  induction l with
  | nil => exact pure []
  | cons a l ih =>
    rw [List.mapM_cons, List.flatMap_cons]
    exact (h a).bind fun b => ih.map (b :: ·)

end Claims

end SlotPool

end NodeGraph
