import Mathlib.Data.List.Nodup
import NodeGraph.Plan.SlotPool
import NodeGraph.Proofs.Plan.Checks

/-!
# Who owns which slot

A pool keeps two things side by side: the slots in use and the ports that own some of them. Slots
are taken back from a port by its name and from anybody by their number, so the two have to change
together (`SlotPool.Valid`). What is true of a pool after any requests can be said by the `Log` of
the requests and their answers alone: who holds a slot is who got it last and has not lost it since
(`SlotPool.Log.slot?`), and a slot is in use if it was handed out and not taken back since
(`SlotPool.Log.isOut`). `SlotPool.ownership` says that the pool is always as its log has it, and
what the next request will do.

Each request keeps a pool valid and in agreement with its log, for which there is a lemma by kind of
request; that any requests do follows by induction (`SlotPool.Ledger.Agrees.ofRequests`).
-/

namespace NodeGraph.SlotPool

variable {pool : SlotPool} {key : PortRef} {slot : Slot}

/-- A slot is in use, with an owner or without. -/
def InUse (pool : SlotPool) (slot : Slot) : Prop :=
  slot.index ∈ pool.used

/-! ## Requests and their log -/

/-- What can be asked of a pool. A slot can be taken back by the port that owns it, or by its
number. -/
inductive Request where
  | claim (key : PortRef)
  | fresh
  | release (key : PortRef)
  | releaseSlot (slot : Slot)

/-- The slot that a request is answered with, and the pool that follows. Taking back has no
answer. -/
def Request.perform : Request → SlotPool → Option Slot × SlotPool
  | .claim key, pool => ((SlotPool.claim key pool).1, (SlotPool.claim key pool).2)
  | .fresh, pool => ((SlotPool.fresh pool).1, (SlotPool.fresh pool).2)
  | .release key, pool => (none, pool.release key)
  | .releaseSlot slot, pool => (none, pool.releaseSlot slot)

/-- Requests with their answers, the latest first. -/
abbrev Log := List (Request × Option Slot)

namespace Log

/-- The slot that a port got when it last claimed one, if it was not taken back since, either from
the port or by its number. -/
def slot? (key : PortRef) : Log → Option Slot
  | [] => none
  | (.claim key', answer) :: log => if key' = key then answer else slot? key log
  | (.fresh, _) :: log => slot? key log
  | (.release key', _) :: log => if key' = key then none else slot? key log
  | (.releaseSlot slot, _) :: log => (slot? key log).filter (· ≠ slot)

/-- Whether a slot was handed out and not taken back since, either by its number or from the port
that held it. -/
def isOut (slot : Slot) : Log → Bool
  | [] => false
  | (.claim _, answer) :: log | (.fresh, answer) :: log => answer = some slot || isOut slot log
  | (.release key, _) :: log => slot? key log ≠ some slot && isOut slot log
  | (.releaseSlot slot', _) :: log => slot' ≠ slot && isOut slot log

end Log

/-- A pool with the log of what it has been asked. -/
structure Ledger where
  pool : SlotPool := {}
  log : Log := []

namespace Ledger

/-- Answers one more request, and puts it on the log. -/
def serve (l : Ledger) (r : Request) : Ledger where
  pool := (r.perform l.pool).2
  log := (r, (r.perform l.pool).1) :: l.log

/-- The ledger of a new pool after requests in turn. -/
def ofRequests (requests : List Request) : Ledger :=
  requests.foldl serve {}

end Ledger

/-! ## The numbers in use -/

/-- The search for a number starts at its start. -/
theorem le_leastFree (start : Nat) (used : List Nat) : start ≤ leastFree start used := by
  induction used generalizing start with
  | nil => exact Nat.le_refl start
  | cons m used ih =>
    rw [leastFree]
    split
    · exact Nat.le_of_succ_le (ih (start + 1))
    · exact Nat.le_refl start

/-- The number found is not in an increasing list, and all before it are. -/
theorem leastFree_isLeast {start : Nat} {used : List Nat} (h : used.Pairwise (· < ·))
    (hstart : ∀ n ∈ used, start ≤ n) :
    leastFree start used ∉ used ∧ ∀ n, start ≤ n → n < leastFree start used → n ∈ used := by
  induction used generalizing start with
  | nil => exact ⟨List.not_mem_nil, fun n hle hlt => absurd hlt (Nat.not_lt_of_le hle)⟩
  | cons m used ih =>
    obtain ⟨hm, hused⟩ := List.pairwise_cons.1 h
    rw [leastFree]
    split
    · rename_i heq
      subst heq
      obtain ⟨hfree, hbefore⟩ := ih hused hm
      have hle := le_leastFree (m + 1) used
      refine ⟨fun hmem => ?_, fun n hn hlt => ?_⟩
      · rcases List.mem_cons.1 hmem with heq | hmem
        · omega
        · exact hfree hmem
      · rcases Nat.eq_or_lt_of_le hn with rfl | hn
        · exact List.mem_cons_self
        · exact List.mem_cons_of_mem m (hbefore n hn hlt)
    · rename_i hne
      have hlt : start < m := Nat.lt_of_le_of_ne (hstart m List.mem_cons_self) (Ne.symm hne)
      refine ⟨fun hmem => ?_, fun n hle hlt => absurd hlt (Nat.not_lt_of_le hle)⟩
      rcases List.mem_cons.1 hmem with heq | hmem
      · omega
      · have := hm start hmem
        omega

/-- A number is put among the others, and none is lost. -/
theorem mem_insert {m n : Nat} {used : List Nat} : m ∈ insert n used ↔ m = n ∨ m ∈ used := by
  induction used with
  | nil => simp [insert]
  | cons k used ih =>
    rw [insert]
    split
    · simp
    · simp only [List.mem_cons, ih]
      tauto

/-- A number is put in its place, so that the list is increasing again. -/
theorem pairwise_insert {n : Nat} {used : List Nat} (h : used.Pairwise (· < ·)) (hn : n ∉ used) :
    (insert n used).Pairwise (· < ·) := by
  induction used with
  | nil => simp [insert]
  | cons k used ih =>
    obtain ⟨hk, hused⟩ := List.pairwise_cons.1 h
    obtain ⟨hne, hn⟩ := List.ne_and_not_mem_of_not_mem_cons hn
    rw [insert]
    split
    · rename_i hlt
      refine List.pairwise_cons.2 ⟨fun m hm => ?_, h⟩
      rcases List.mem_cons.1 hm with rfl | hm
      · exact hlt
      · exact Nat.lt_trans hlt (hk m hm)
    · rename_i hlt
      refine List.pairwise_cons.2 ⟨fun m hm => ?_, ih hused hn⟩
      rcases mem_insert.1 hm with rfl | hm
      · omega
      · exact hk m hm

/-- A number that is put among the others and taken away leaves the others. -/
theorem erase_insert {n : Nat} {used : List Nat} (hn : n ∉ used) :
    (insert n used).erase n = used := by
  induction used with
  | nil => simp [insert]
  | cons k used ih =>
    obtain ⟨hne, hn⟩ := List.ne_and_not_mem_of_not_mem_cons hn
    rw [insert]
    split
    · exact List.erase_cons_head ..
    · rw [List.erase_cons_tail (by simpa using Ne.symm hne), ih hn]

/-! ## Pools that arise -/

/-- The numbers in use are in order, no port owns two slots, no slot has two owners, and every slot
that has one is in use. -/
structure Valid (pool : SlotPool) : Prop where
  increasing : pool.used.Pairwise (· < ·)
  keys : (pool.owners.map (·.1)).Nodup
  slots : (pool.owners.map (·.2)).Nodup
  inUse : ∀ o ∈ pool.owners, pool.InUse o.2

/-- A slot handed out is one more in use. -/
theorem inUse_fresh {slot : Slot} :
    (fresh pool).2.InUse slot ↔ slot = (fresh pool).1 ∨ pool.InUse slot := by
  have hslot : slot = (fresh pool).1 ↔ slot.index = leastFree 0 pool.used := by
    obtain ⟨index⟩ := slot
    exact Slot.mk.injEq .. |>.to_iff
  rw [hslot]
  exact mem_insert

/-- A slot handed out for a port that has none is one more in use, and the port is its owner. -/
theorem claim_of_slot?_none (h : pool.slot? key = none) :
    claim key pool =
      ((fresh pool).1,
        { (fresh pool).2 with owners := pool.owners ++ [(key, (fresh pool).1)] }) := by
  rw [claim, h]
  rfl

/-- A port that has a slot is given it again, and the pool stays as it is. -/
theorem claim_of_slot?_some (h : pool.slot? key = some slot) : claim key pool = (slot, pool) := by
  rw [claim, h]

/-- A port that has no slot loses none. -/
theorem release_of_slot?_none (h : pool.slot? key = none) : pool.release key = pool := by
  rw [release, h]

namespace Valid

/-- The slot of a port is the one that it owns. -/
theorem slot?_eq_some_iff (h : pool.Valid) :
    pool.slot? key = some slot ↔ (key, slot) ∈ pool.owners := by
  rw [slot?, Option.map_eq_some_iff]
  constructor
  · rintro ⟨o, ho, rfl⟩
    obtain ⟨hmem, rfl⟩ := (Graph.find?_eq_some_iff_of_nodup h.keys).1 ho
    exact hmem
  · intro hmem
    exact ⟨(key, slot), (Graph.find?_eq_some_iff_of_nodup h.keys).2 ⟨hmem, rfl⟩, rfl⟩

/-- No slot belongs to two ports. -/
theorem key_eq (h : pool.Valid) {key' : PortRef} (hkey : pool.slot? key = some slot)
    (hkey' : pool.slot? key' = some slot) : key = key' := by
  rw [h.slot?_eq_some_iff] at hkey hkey'
  exact congrArg Prod.fst (List.inj_on_of_nodup_map h.slots hkey hkey' rfl)

/-- A port without a slot is no owner. -/
theorem notMem_keys (h : pool.Valid) (hkey : pool.slot? key = none) :
    key ∉ pool.owners.map (·.1) := by
  intro hmem
  obtain ⟨⟨key', slot⟩, ho, rfl⟩ := List.mem_map.1 hmem
  rw [h.slot?_eq_some_iff.2 ho] at hkey
  cases hkey

/-- The slot that is handed out next is the first that is not in use. -/
theorem fresh_isLeast (h : pool.Valid) :
    ¬pool.InUse (fresh pool).1 ∧
      ∀ slot, ¬pool.InUse slot → (fresh pool).1.index ≤ slot.index := by
  obtain ⟨hfree, hbefore⟩ := leastFree_isLeast h.increasing fun n _ => Nat.zero_le n
  refine ⟨hfree, fun slot hslot => Nat.le_of_not_lt fun hlt => ?_⟩
  exact hslot (hbefore slot.index (Nat.zero_le _) hlt)

/-- A slot that nobody uses has no owner. -/
theorem slot?_ne_of_not_inUse (h : pool.Valid) (hslot : ¬pool.InUse slot) (key : PortRef) :
    pool.slot? key ≠ some slot := by
  intro hkey
  exact hslot (h.inUse _ (h.slot?_eq_some_iff.1 hkey))

/-- A new pool has nothing in use, and nobody owns anything. -/
theorem empty : Valid {} :=
  ⟨.nil, .nil, .nil, fun _ ho => absurd ho List.not_mem_nil⟩

/-- To hand out a slot without an owner keeps a pool valid. -/
theorem fresh (h : pool.Valid) : (SlotPool.fresh pool).2.Valid where
  increasing := pairwise_insert h.increasing h.fresh_isLeast.1
  keys := h.keys
  slots := h.slots
  inUse o ho := inUse_fresh.2 (.inr (h.inUse o ho))

/-- To hand out a slot to a port keeps a pool valid, whether it is the port's first one or the one
that it has. -/
theorem claim (h : pool.Valid) (key : PortRef) : (SlotPool.claim key pool).2.Valid := by
  cases hkey : pool.slot? key with
  | some slot =>
    rw [claim_of_slot?_some hkey]
    exact h
  | none =>
    rw [claim_of_slot?_none hkey]
    refine ⟨h.fresh.increasing, ?_, ?_, fun o ho => ?_⟩
    · rw [List.map_append, List.map_singleton, ← List.concat_eq_append, List.nodup_concat]
      exact ⟨h.notMem_keys hkey, h.keys⟩
    · rw [List.map_append, List.map_singleton, ← List.concat_eq_append, List.nodup_concat]
      refine ⟨fun hmem => ?_, h.slots⟩
      obtain ⟨o, ho, hslot⟩ := List.mem_map.1 hmem
      have hinUse := h.inUse o ho
      rw [hslot] at hinUse
      exact h.fresh_isLeast.1 hinUse
    · rcases List.mem_append.1 ho with ho | ho
      · exact inUse_fresh.2 (.inr (h.inUse o ho))
      · cases List.mem_singleton.1 ho
        exact inUse_fresh.2 (.inl rfl)

/-- Only the port that claims a slot gets one. -/
theorem slot?_claim (h : pool.Valid) (key key' : PortRef) :
    (SlotPool.claim key pool).2.slot? key' =
      if key = key' then some (SlotPool.claim key pool).1 else pool.slot? key' := by
  have hclaimed := h.claim key
  cases hkey : pool.slot? key with
  | some slot =>
    rw [claim_of_slot?_some hkey]
    split
    · rename_i heq
      rw [← heq, hkey]
    · rfl
  | none =>
    rw [claim_of_slot?_none hkey] at hclaimed ⊢
    ext slot
    rw [hclaimed.slot?_eq_some_iff]
    split
    · rename_i heq
      subst heq
      have hnone : ∀ slot, (key, slot) ∉ pool.owners := fun slot hmem =>
        h.notMem_keys hkey (List.mem_map_of_mem hmem)
      simp [hnone, eq_comm]
    · rename_i hne
      simp [h.slot?_eq_some_iff, Ne.symm hne]

/-- To take back the slot of a port is to take back the slot, so that there is one way of taking
back to look at. -/
theorem release_eq (h : pool.Valid) (hkey : pool.slot? key = some slot) :
    pool.release key = pool.releaseSlot slot := by
  have hmem := h.slot?_eq_some_iff.1 hkey
  have howner : ∀ o ∈ pool.owners, decide (o.1 ≠ key) = decide (o.2 ≠ slot) := by
    intro o ho
    refine decide_eq_decide.2 (not_congr ⟨fun heq => ?_, fun heq => ?_⟩)
    · exact congrArg Prod.snd (List.inj_on_of_nodup_map h.keys ho hmem heq)
    · exact congrArg Prod.fst (List.inj_on_of_nodup_map h.slots ho hmem heq)
  rw [release, hkey, releaseSlot]
  exact congrArg (SlotPool.mk · _) (List.filter_congr howner)

/-- A slot taken back is no longer in use, and all others are as before. -/
theorem inUse_releaseSlot (h : pool.Valid) (slot slot' : Slot) :
    (pool.releaseSlot slot).InUse slot' ↔ slot ≠ slot' ∧ pool.InUse slot' := by
  have hne : slot'.index ≠ slot.index ↔ slot ≠ slot' := by
    obtain ⟨index⟩ := slot
    obtain ⟨index'⟩ := slot'
    simp [eq_comm]
  rw [← hne]
  exact List.Nodup.mem_erase_iff (h.increasing.imp Nat.ne_of_lt)

/-- To take back a slot keeps a pool valid, since its owner goes with it. -/
theorem releaseSlot (h : pool.Valid) (slot : Slot) : (pool.releaseSlot slot).Valid where
  increasing := h.increasing.sublist List.erase_sublist
  keys := h.keys.sublist (List.filter_sublist.map _)
  slots := h.slots.sublist (List.filter_sublist.map _)
  inUse o ho := by
    obtain ⟨ho, hne⟩ := List.mem_filter.1 ho
    exact (h.inUse_releaseSlot slot o.2).2 ⟨Ne.symm (by simpa using hne), h.inUse o ho⟩

/-- Only the port that owns it loses a slot that is taken back. -/
theorem slot?_releaseSlot (h : pool.Valid) (slot : Slot) (key : PortRef) :
    (pool.releaseSlot slot).slot? key = (pool.slot? key).filter (· ≠ slot) := by
  ext slot'
  rw [(h.releaseSlot slot).slot?_eq_some_iff, Option.filter_eq_some_iff, h.slot?_eq_some_iff]
  exact List.mem_filter

/-- To take back the slot of a port keeps a pool valid. -/
theorem release (h : pool.Valid) (key : PortRef) : (pool.release key).Valid := by
  cases hkey : pool.slot? key with
  | none =>
    rw [release_of_slot?_none hkey]
    exact h
  | some slot =>
    rw [h.release_eq hkey]
    exact h.releaseSlot slot

/-- The slot of a port that is taken back is no longer in use. -/
theorem inUse_release (h : pool.Valid) (key : PortRef) (slot : Slot) :
    (pool.release key).InUse slot ↔ pool.slot? key ≠ some slot ∧ pool.InUse slot := by
  cases hkey : pool.slot? key with
  | none => simp [release_of_slot?_none hkey]
  | some held => simp [h.release_eq hkey, h.inUse_releaseSlot]

/-- Only the port whose slot is taken back loses one. -/
theorem slot?_release (h : pool.Valid) (key key' : PortRef) :
    (pool.release key).slot? key' = if key = key' then none else pool.slot? key' := by
  cases hkey : pool.slot? key with
  | none =>
    rw [release_of_slot?_none hkey]
    split
    · rename_i heq
      rw [← heq, hkey]
    · rfl
  | some held =>
    rw [h.release_eq hkey, h.slot?_releaseSlot]
    split
    · rename_i heq
      simp [← heq, hkey]
    · rename_i hne
      cases hslot : pool.slot? key' with
      | none => rfl
      | some slot =>
        have hother : slot ≠ held := by
          rintro rfl
          exact hne (h.key_eq hkey hslot)
        simp [hother]

/-- To take back a slot that nobody uses changes nothing. -/
theorem releaseSlot_of_not_inUse (h : pool.Valid) (hslot : ¬pool.InUse slot) :
    pool.releaseSlot slot = pool := by
  have howners : pool.owners.filter (·.2 ≠ slot) = pool.owners :=
    List.filter_eq_self.2 fun o ho => decide_eq_true fun heq => hslot (heq ▸ h.inUse o ho)
  rw [SlotPool.releaseSlot, howners, List.erase_of_not_mem hslot]

/-- To take back the slot that a port has claimed for the first time leaves the pool as it was. -/
theorem release_claim (h : pool.Valid) (hkey : pool.slot? key = none) :
    (SlotPool.claim key pool).2.release key = pool := by
  have hslot : (SlotPool.claim key pool).2.slot? key = some (SlotPool.claim key pool).1 := by
    rw [h.slot?_claim, if_pos rfl]
  have hothers : pool.owners.filter (·.1 ≠ key) = pool.owners := by
    refine List.filter_eq_self.2 fun o ho => decide_eq_true fun heq => h.notMem_keys hkey ?_
    exact heq ▸ List.mem_map_of_mem ho
  have howners :
      (pool.owners ++ [(key, (SlotPool.fresh pool).1)]).filter (·.1 ≠ key) = pool.owners := by
    rw [List.filter_append, hothers]
    simp
  rw [SlotPool.release, hslot, claim_of_slot?_none hkey]
  show SlotPool.mk ((pool.owners ++ [(key, (SlotPool.fresh pool).1)]).filter (·.1 ≠ key))
    ((insert (SlotPool.fresh pool).1.index pool.used).erase (SlotPool.fresh pool).1.index) = pool
  rw [howners, erase_insert h.fresh_isLeast.1]

end Valid

/-- A store for the slots in use ends with the last of them, or is empty if there is none. -/
theorem Valid.slotCount_eq (h : pool.Valid) :
    (pool.slotCount = 0 ∧ ∀ slot, ¬pool.InUse slot) ∨
      ∃ slot, pool.slotCount = slot.index + 1 ∧ pool.InUse slot ∧
        ∀ slot', pool.InUse slot' → slot'.index ≤ slot.index := by
  rcases List.eq_nil_or_concat pool.used with hused | ⟨init, last, hused⟩
  · refine .inl ⟨?_, fun slot hslot => ?_⟩
    · rw [slotCount, greatest?, hused]
      rfl
    · rw [InUse, hused] at hslot
      exact List.not_mem_nil hslot
  · have hincreasing := h.increasing
    rw [List.concat_eq_append] at hused
    rw [hused, List.pairwise_append] at hincreasing
    refine .inr ⟨⟨last⟩, ?_, ?_, fun slot hslot => ?_⟩
    · rw [slotCount, greatest?, hused, List.getLast?_concat]
      rfl
    · rw [InUse, hused]
      exact List.mem_append_right init (List.mem_singleton_self last)
    · rw [InUse, hused, List.mem_append, List.mem_singleton] at hslot
      rcases hslot with hslot | hslot
      · exact Nat.le_of_lt (hincreasing.2.2 _ hslot last (List.mem_singleton_self last))
      · exact Nat.le_of_eq hslot

namespace Ledger

variable {l : Ledger}

/-- The pool is valid and as the log has it, in what is in use and in who holds what. -/
structure Agrees (l : Ledger) : Prop where
  valid : l.pool.Valid
  slot? : ∀ key, l.pool.slot? key = Log.slot? key l.log
  inUse : ∀ slot, l.pool.InUse slot ↔ Log.isOut slot l.log

namespace Agrees

/-- A slot handed out for a port is on the log. -/
theorem claim (h : l.Agrees) (key : PortRef) : (l.serve (.claim key)).Agrees where
  valid := h.valid.claim key
  slot? key' := by
    rw [serve, Log.slot?, ← h.slot?]
    exact h.valid.slot?_claim key key'
  inUse slot := by
    show (SlotPool.claim key l.pool).2.InUse slot ↔ Log.isOut slot ((.claim key, _) :: l.log)
    rw [Log.isOut, Bool.or_eq_true, decide_eq_true_eq, ← h.inUse]
    cases hkey : l.pool.slot? key with
    | some held =>
      have hheld := h.valid.inUse _ (h.valid.slot?_eq_some_iff.1 hkey)
      simp only [Request.perform, claim_of_slot?_some hkey, Option.some.injEq]
      exact ⟨.inr, fun hslot => hslot.elim (fun heq => heq ▸ hheld) id⟩
    | none =>
      simp only [Request.perform, claim_of_slot?_none hkey, Option.some.injEq]
      rw [eq_comm]
      exact inUse_fresh

/-- A slot handed out without an owner is on the log, and no port holds it. -/
theorem fresh (h : l.Agrees) : (l.serve .fresh).Agrees where
  valid := h.valid.fresh
  slot? := h.slot?
  inUse slot := by
    show (SlotPool.fresh l.pool).2.InUse slot ↔ Log.isOut slot ((.fresh, _) :: l.log)
    rw [Log.isOut, Bool.or_eq_true, decide_eq_true_eq, ← h.inUse, inUse_fresh]
    simp only [Request.perform, Option.some.injEq]
    rw [eq_comm]

/-- A slot taken back by its number is on the log, and so is that its owner has lost it. -/
theorem releaseSlot (h : l.Agrees) (slot : Slot) : (l.serve (.releaseSlot slot)).Agrees where
  valid := h.valid.releaseSlot slot
  slot? key := by
    rw [serve, Log.slot?, ← h.slot?]
    exact h.valid.slot?_releaseSlot slot key
  inUse slot' := by
    rw [serve, Log.isOut, Bool.and_eq_true, decide_eq_true_eq, ← h.inUse]
    exact h.valid.inUse_releaseSlot slot slot'

/-- A slot taken back from a port is on the log. -/
theorem release (h : l.Agrees) (key : PortRef) : (l.serve (.release key)).Agrees where
  valid := h.valid.release key
  slot? key' := by
    rw [serve, Log.slot?, ← h.slot?]
    exact h.valid.slot?_release key key'
  inUse slot := by
    rw [serve, Log.isOut, Bool.and_eq_true, decide_eq_true_eq, ← h.slot?, ← h.inUse]
    exact h.valid.inUse_release key slot

/-- A request and its answer are on the log, whichever kind it is. -/
theorem serve (h : l.Agrees) (r : Request) : (l.serve r).Agrees := by
  cases r with
  | claim key => exact h.claim key
  | fresh => exact h.fresh
  | release key => exact h.release key
  | releaseSlot slot => exact h.releaseSlot slot

/-- After any requests the pool is as the log has it. By induction on the requests. -/
theorem ofRequests (requests : List Request) : (ofRequests requests).Agrees := by
  have hrun : ∀ {l : Ledger}, l.Agrees → (requests.foldl Ledger.serve l).Agrees := by
    induction requests with
    | nil => exact fun h => h
    | cons r requests ih => exact fun h => ih (h.serve r)
  exact hrun ⟨.empty, fun _ => rfl, fun _ => by simp [InUse, Log.isOut]⟩

end Agrees

/-- What holds of a pool and its log, and what the next request will do. -/
structure Lawful (l : Ledger) : Prop where
  /-- Different ports hold different slots. -/
  key_eq {key key' : PortRef} {slot : Slot} (h : l.pool.slot? key = some slot)
    (h' : l.pool.slot? key' = some slot) : key = key'
  /-- Every slot that a port holds is in use. -/
  inUse {key : PortRef} {slot : Slot} (h : l.pool.slot? key = some slot) : l.pool.InUse slot
  /-- The slots in use are those handed out and not taken back since. -/
  inUse_iff (slot : Slot) : l.pool.InUse slot ↔ Log.isOut slot l.log
  /-- A port holds the slot that it got last, unless that was taken back since. -/
  slot?_eq (key : PortRef) : l.pool.slot? key = Log.slot? key l.log
  /-- A port that holds a slot gets it again. -/
  claim_again {key : PortRef} {slot : Slot} (h : l.pool.slot? key = some slot) :
    claim key l.pool = (slot, l.pool)
  /-- A port that holds none gets what anybody would get, and nobody else holds it. -/
  claim_first {key : PortRef} (h : l.pool.slot? key = none) :
    (claim key l.pool).1 = (fresh l.pool).1 ∧
      ∀ key', (claim key l.pool).2.slot? key' = some (fresh l.pool).1 ↔ key' = key
  /-- What anybody gets is the first slot that is not in use, and no port holds it. -/
  fresh_isLeast : ¬l.pool.InUse (fresh l.pool).1 ∧
    (∀ slot, ¬l.pool.InUse slot → (fresh l.pool).1.index ≤ slot.index) ∧
    ∀ key, (fresh l.pool).2.slot? key ≠ some (fresh l.pool).1
  /-- The slots in use end right before the slot count. -/
  slotCount_eq : (l.pool.slotCount = 0 ∧ ∀ slot, ¬l.pool.InUse slot) ∨
    ∃ slot, l.pool.slotCount = slot.index + 1 ∧ l.pool.InUse slot ∧
      ∀ slot', l.pool.InUse slot' → slot'.index ≤ slot.index
  /-- To take back what is not held changes nothing. -/
  release_unheld {key : PortRef} (h : l.pool.slot? key = none) : l.pool.release key = l.pool
  releaseSlot_unused {slot : Slot} (h : ¬l.pool.InUse slot) : l.pool.releaseSlot slot = l.pool
  /-- To take back what was claimed for the first time leaves the pool as it was. -/
  release_claim {key : PortRef} (h : l.pool.slot? key = none) :
    (claim key l.pool).2.release key = l.pool

end Ledger

/-- Ownership of slots. After any requests, the slots in use and their owners are what the log of
the requests has them to be, no slot has two owners, and the next slot handed out is the first that
is not in use. -/
theorem ownership (requests : List Request) : (Ledger.ofRequests requests).Lawful := by
  obtain ⟨hvalid, hslot, hinUse⟩ := Ledger.Agrees.ofRequests requests
  obtain ⟨hfree, hleast⟩ := hvalid.fresh_isLeast
  refine ⟨hvalid.key_eq, fun hkey => hvalid.inUse _ (hvalid.slot?_eq_some_iff.1 hkey), hinUse,
    hslot, claim_of_slot?_some, fun {key} hkey => ⟨?_, fun key' => ?_⟩,
    ⟨hfree, hleast, fun key => hvalid.slot?_ne_of_not_inUse hfree key⟩, hvalid.slotCount_eq,
    release_of_slot?_none, hvalid.releaseSlot_of_not_inUse, hvalid.release_claim⟩
  · rw [claim_of_slot?_none hkey]
  · have hnone := hvalid.slot?_ne_of_not_inUse hfree key'
    rw [hvalid.slot?_claim, claim_of_slot?_none hkey]
    split
    · rename_i heq
      exact ⟨fun _ => heq.symm, fun _ => rfl⟩
    · rename_i hne
      exact ⟨fun h => absurd h hnone, fun h => absurd h.symm hne⟩

/-- A slot that is taken back by its number is lost to the port that holds it. It is handed out
again before a new one, and the port gets another. -/
example :
    let a : PortRef := ⟨⟨1⟩, 0⟩
    let b : PortRef := ⟨⟨1⟩, 2⟩
    (Ledger.ofRequests [.claim a, .claim b, .releaseSlot ⟨0⟩, .fresh, .claim a]).pool =
      { owners := [(b, ⟨1⟩), (a, ⟨2⟩)], used := [0, 1, 2] } := by
  decide

end NodeGraph.SlotPool
