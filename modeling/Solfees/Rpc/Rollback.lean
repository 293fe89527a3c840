import Solfees.Core.Descent
import Solfees.Rpc.UpdateLoop

/-!
# The rollback walk

A rollback step counts the slot down to a stored block whose height is one
lower.  Such a walk is the greedy descent of the stored blocks by slot and
height: it does not know a block's parent.
-/

namespace Solfees.Rollback

open Solfees.Descent
open Solfees.Draining
open Solfees.LatestBlockhash
open Solfees.Json
open Solfees.Message

/-- The height of the block after one of the given height, as the walk computes
it. -/
def nextHeight (height : Height) : Height := height + 1

theorem nextHeight_injective : Function.Injective nextHeight :=
  fun _ _ h => add_right_cancel h

/-- One block of a descent by slot and height. -/
abbrev BelowBlock (slots : OrderedMap Slot LatestBlockhashSlot) :
    Slot × LatestBlockhashSlot → Slot × LatestBlockhashSlot → Prop :=
  Below slots LatestBlockhashSlot.height nextHeight

abbrev NearestBlock (slots : OrderedMap Slot LatestBlockhashSlot) :
    Slot × LatestBlockhashSlot → Slot × LatestBlockhashSlot → Prop :=
  Nearest slots LatestBlockhashSlot.height nextHeight

variable {slots : OrderedMap Slot LatestBlockhashSlot}

/-- A slot that does not hold the block looked for can be stepped over. -/
theorem belowBlock_succ_iff {slot : Slot} {value : LatestBlockhashSlot}
    (hskip : ∀ prevValue, slots[slot]? = some prevValue →
      prevValue.height + 1 ≠ value.height)
    (lower : Slot × LatestBlockhashSlot) :
    BelowBlock slots (slot + 1, value) lower ↔
      BelowBlock slots (slot, value) lower := by
  constructor
  · rintro ⟨hstored, hlt, hheight⟩
    refine ⟨hstored, lt_of_le_of_ne (Nat.lt_succ_iff.1 hlt) ?_, hheight⟩
    intro heq
    rw [heq] at hstored
    exact hskip lower.2 hstored hheight
  · rintro ⟨hstored, hlt, hheight⟩
    exact ⟨hstored, hlt.trans (Nat.lt_succ_self slot), hheight⟩

theorem nearestBlock_succ_iff {slot : Slot} {value : LatestBlockhashSlot}
    (hskip : ∀ prevValue, slots[slot]? = some prevValue →
      prevValue.height + 1 ≠ value.height)
    {lower : Slot × LatestBlockhashSlot} :
    NearestBlock slots (slot + 1, value) lower ↔
      NearestBlock slots (slot, value) lower := by
  have hbelow := belowBlock_succ_iff hskip
  constructor
  · rintro ⟨hlower, hgreatest⟩
    exact ⟨(hbelow lower).1 hlower,
      fun other hother => hgreatest other ((hbelow other).2 hother)⟩
  · rintro ⟨hlower, hgreatest⟩
    exact ⟨(hbelow lower).2 hlower,
      fun other hother => hgreatest other ((hbelow other).1 hother)⟩

/-- A rollback step finds the nearest block one lower, if there is one. -/
theorem walkBack_found_iff {firstAvailableSlot : Slot}
    (hfirst : ∀ slot ∈ slots, firstAvailableSlot ≤ slot)
    {value : LatestBlockhashSlot} {slot : Slot}
    (lower : Slot × LatestBlockhashSlot) :
    walkBack slots firstAvailableSlot value slot = .found lower.1 lower.2 ↔
      NearestBlock slots (slot, value) lower := by
  induction slot with
  | zero =>
      simp only [walkBack, reduceCtorEq, false_iff]
      exact fun h => Nat.not_lt_zero lower.1 h.lt
  | succ slot ih =>
      rw [walkBack]
      cases hget : slots[slot]? with
      | some prevValue =>
          by_cases hheight : prevValue.height + 1 = value.height
          · have hnearest : NearestBlock slots (slot + 1, value) (slot, prevValue) :=
              ⟨⟨hget, Nat.lt_succ_self slot, hheight⟩,
                fun other hother => Nat.lt_succ_iff.1 hother.lt⟩
            simp only [hheight, if_true, Walk.found.injEq]
            constructor
            · rintro ⟨hslot, hvalue⟩
              rwa [← show (slot, prevValue) = lower from Prod.ext hslot hvalue]
            · intro h
              obtain rfl := hnearest.unique h
              exact ⟨rfl, rfl⟩
          · simp only [hheight, if_false]
            rw [ih, nearestBlock_succ_iff]
            intro other hother
            rwa [← Option.some.inj (hget.symm.trans hother)]
      | none =>
          have hskip : ∀ prevValue, slots[slot]? = some prevValue →
              prevValue.height + 1 ≠ value.height := by
            simp [hget]
          by_cases hlt : slot < firstAvailableSlot
          · simp only [hlt, if_true, reduceCtorEq, false_iff]
            rw [nearestBlock_succ_iff hskip]
            intro h
            have hle := hfirst lower.1 (mem_of_getElem? h.stored)
            exact absurd (h.lt.trans hlt) (not_lt.2 hle)
          · simp only [hlt, if_false]
            rw [ih, nearestBlock_succ_iff hskip]

/-- The walk of a whole rollback is the greedy descent. -/
theorem rollbackWalk_found_iff {firstAvailableSlot : Slot}
    (hfirst : ∀ slot ∈ slots, firstAvailableSlot ≤ slot) {rollback : ℕ}
    {slot : Slot} {value : LatestBlockhashSlot}
    {lower : Slot × LatestBlockhashSlot} :
    rollbackWalk slots firstAvailableSlot rollback slot value =
        .found lower.1 lower.2 ↔
      Steps (NearestBlock slots) rollback (slot, value) lower := by
  induction rollback generalizing slot value with
  | zero =>
      rw [rollbackWalk, steps_zero_iff, Walk.found.injEq, Prod.ext_iff]
      exact and_congr eq_comm eq_comm
  | succ rollback ih =>
      rw [rollbackWalk, steps_succ_iff]
      have hstuck (hwalk : ∀ prev : Slot × LatestBlockhashSlot,
          walkBack slots firstAvailableSlot value slot ≠ .found prev.1 prev.2) :
          ¬ ∃ prev, NearestBlock slots (slot, value) prev ∧
            Steps (NearestBlock slots) rollback prev lower := by
        rintro ⟨prev, hprev, -⟩
        exact hwalk prev ((walkBack_found_iff hfirst prev).2 hprev)
      cases hwalk : walkBack slots firstAvailableSlot value slot with
      | found prevSlot prevValue =>
          have hnearest :=
            (walkBack_found_iff hfirst (prevSlot, prevValue)).1 hwalk
          simp only [ih]
          constructor
          · exact fun hrest => ⟨(prevSlot, prevValue), hnearest, hrest⟩
          · rintro ⟨prev, hprev, hrest⟩
            rwa [hnearest.unique hprev]
      | notEnough =>
          simp only [reduceCtorEq, false_iff]
          exact hstuck (by simp [hwalk])
      | slotUnderflow =>
          simp only [reduceCtorEq, false_iff]
          exact hstuck (by simp [hwalk])

/-- The answer that a walk gives. -/
def answer (jsonrpc : Option JsonrpcVersion) (id : JsonrpcId) :
    Walk → Except Fault JsonrpcOutput
  | .found slot value => .ok (latestBlockhashSuccess jsonrpc id slot value)
  | .notEnough =>
      .ok (createFailure jsonrpc id (.invalidParams "not enought slots in the storage"))
  | .slotUnderflow => .error .slotUnderflow

/-- A request for a stored slot is answered by the walk from it. -/
theorem latestBlockhash_eq_answer {storage : LatestBlockhashStorage}
    {commitment : CommitmentLevel} {value : LatestBlockhashSlot}
    (hget : storage.slots[storage.slotAt commitment]? = some value)
    {firstAvailableSlot : Slot} (hhead : storage.slots.keys.head? = some firstAvailableSlot)
    {rollback : ℕ} (hrollback : rollback ≤ maxRecentBlockhashes)
    {minContextSlot : Option Slot}
    (hmin : ∀ least ∈ minContextSlot, least ≤ storage.slotAt commitment)
    (jsonrpc : Option JsonrpcVersion) (id : JsonrpcId) :
    latestBlockhash storage jsonrpc id commitment rollback minContextSlot =
      answer jsonrpc id (rollbackWalk storage.slots firstAvailableSlot rollback
        (storage.slotAt commitment) value) := by
  have hreached : minContextSlot.any
      (fun least => decide (storage.slotAt commitment < least)) = false := by
    cases minContextSlot with
    | none => rfl
    | some least => exact decide_eq_false (not_lt.2 (hmin least rfl))
  rw [latestBlockhash, if_neg (not_lt.2 hrollback)]
  simp only [hreached, Bool.false_eq_true, if_false, hget]
  by_cases hpos : 0 < rollback
  · rw [if_pos hpos, hhead]
    rfl
  · obtain rfl := Nat.eq_zero_of_not_pos hpos
    rw [if_neg hpos]
    rfl

/-- A request whose rollback is a greedy descent from the stored slot of its
level is answered from the end of that descent. -/
theorem latestBlockhash_of_greedy {storage : LatestBlockhashStorage}
    {commitment : CommitmentLevel} {value : LatestBlockhashSlot}
    (hget : storage.slots[storage.slotAt commitment]? = some value)
    {rollback : ℕ} (hrollback : rollback ≤ maxRecentBlockhashes)
    {lower : Slot × LatestBlockhashSlot}
    (hgreedy : Steps (NearestBlock storage.slots) rollback
      (storage.slotAt commitment, value) lower)
    (jsonrpc : Option JsonrpcVersion) (id : JsonrpcId) :
    latestBlockhash storage jsonrpc id commitment rollback none =
      .ok (latestBlockhashSuccess jsonrpc id lower.1 lower.2) := by
  obtain ⟨first, hhead, hfirst⟩ := exists_head_keys (mem_of_getElem? hget)
  rw [latestBlockhash_eq_answer hget hhead hrollback (fun _ hmem => by cases hmem),
    (rollbackWalk_found_iff hfirst).2 hgreedy]
  rfl

end Solfees.Rollback
