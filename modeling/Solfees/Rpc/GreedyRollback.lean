import Solfees.Rpc.Rollback

/-!
# The rollback walk as a search

Over a store whose slots are positive and whose heights leave room for the answer,
the walk neither underflows nor overflows.  It takes the first block one lower each
time, and no other choice would have got further: it succeeds whenever some chain of
stored blocks is long enough, and it ends where the greatest of them ends.
-/

namespace Solfees.GreedyRollback

open Solfees.Descent
open Solfees.Draining
open Solfees.Json
open Solfees.LatestBlockhash
open Solfees.Message
open Solfees.Rollback
open Std (ExtTreeMap)

/-- `lower` is a stored block with a smaller slot than `upper`, one height lower. -/
structure OneLower (slots : OrderedMap Slot LatestBlockhashSlot)
    (upper lower : Slot × LatestBlockhashSlot) : Prop where
  stored : slots[lower.1]? = some lower.2
  lt : lower.1 < upper.1
  height : upper.2.height.toNat = lower.2.height.toNat + 1

/-- A chain of as many blocks as are rolled back, below the start. -/
structure IsChainBelow (slots : OrderedMap Slot LatestBlockhashSlot)
    (start : Slot × LatestBlockhashSlot) (rollback : ℕ)
    (lowers : List (Slot × LatestBlockhashSlot)) : Prop where
  chain : (start :: lowers).IsChain (OneLower slots)
  length : lowers.length = rollback

/-- The chain is, place by place, at or above every chain of its length. -/
structure IsGreatestChain (slots : OrderedMap Slot LatestBlockhashSlot)
    (start : Slot × LatestBlockhashSlot) (rollback : ℕ)
    (lowers : List (Slot × LatestBlockhashSlot)) : Prop extends
    IsChainBelow slots start rollback lowers where
  greatest : ∀ others, IsChainBelow slots start rollback others →
    List.Forall₂ (fun other lower => other.1 ≤ lower.1) others lowers

variable {slots : OrderedMap Slot LatestBlockhashSlot}

/-! ## Heights that do not overflow -/

/-- The heights leave room for the last valid block height. -/
def HeightsFit (slots : OrderedMap Slot LatestBlockhashSlot) : Prop :=
  ∀ (slot : Slot) (value : LatestBlockhashSlot), slots[slot]? = some value →
    value.height.toNat < 2 ^ 64 - 300

theorem toNat_add_one {height : Height} (h : height.toNat < 2 ^ 64 - 300) :
    (height + 1).toNat = height.toNat + 1 := by
  rw [UInt64.toNat_add, UInt64.toNat_one, Nat.mod_eq_of_lt (by omega)]

theorem toNat_lastValid {height : Height} (h : height.toNat < 2 ^ 64 - 300) :
    (height + UInt64.ofNat maxRecentBlockhashes).toNat = height.toNat + 300 := by
  rw [UInt64.toNat_add]
  change (height.toNat + 300) % 2 ^ 64 = height.toNat + 300
  exact Nat.mod_eq_of_lt (by omega)

/-- The walk compares heights as the chains do. -/
theorem oneLower_eq (hheights : HeightsFit slots) : OneLower slots = BelowBlock slots := by
  funext upper lower
  apply propext
  constructor
  · rintro ⟨hstored, hlt, hheight⟩
    refine ⟨hstored, hlt, ?_⟩
    apply UInt64.toNat_inj.1
    rw [nextHeight, toNat_add_one (hheights _ _ hstored), hheight]
  · rintro ⟨hstored, hlt, hheight⟩
    refine ⟨hstored, hlt, ?_⟩
    rw [← hheight, nextHeight, toNat_add_one (hheights _ _ hstored)]

/-- A chain from a stored block ends at a stored block. -/
theorem IsChainBelow.stored {start reached : Slot × LatestBlockhashSlot} {rollback : ℕ}
    {lowers : List (Slot × LatestBlockhashSlot)}
    (h : IsChainBelow slots start rollback lowers) (hheights : HeightsFit slots)
    (hstart : slots[start.1]? = some start.2)
    (hlast : (start :: lowers).getLast? = some reached) :
    slots[reached.1]? = some reached.2 := by
  have hchain := h.chain
  rw [oneLower_eq hheights] at hchain
  exact steps_below_stored hstart (steps_iff_chain.2 ⟨lowers, hchain, rfl, hlast⟩)

/-! ## Slots that do not underflow -/

/-- The walk sees an absent slot below the first one before it leaves slot 1. -/
theorem walkBack_ne_slotUnderflow {firstAvailableSlot : Slot}
    (hfirst : 0 < firstAvailableSlot) (hzero : slots[0]? = none)
    (value : LatestBlockhashSlot) {slot : Slot} (hslot : slot ≠ 0) :
    walkBack slots firstAvailableSlot value slot ≠ .slotUnderflow := by
  induction slot with
  | zero => exact absurd rfl hslot
  | succ slot ih =>
      rw [walkBack]
      cases hget : slots[slot]? with
      | some prevValue =>
          have hne : slot ≠ 0 := by
            rintro rfl
            rw [hzero] at hget
            cases hget
          by_cases hheight : prevValue.height + 1 = value.height
          · simp [hheight]
          · simp only [hheight, if_false]
            exact ih hne
      | none =>
          by_cases hlt : slot < firstAvailableSlot
          · simp [hlt]
          · simp only [hlt, if_false]
            exact ih (hfirst.trans_le (not_lt.1 hlt)).ne'

theorem rollbackWalk_ne_slotUnderflow {firstAvailableSlot : Slot}
    (hfirst : ∀ slot ∈ slots, firstAvailableSlot ≤ slot) (hpos : 0 < firstAvailableSlot)
    (rollback : ℕ) {slot : Slot} (hslot : slot ≠ 0) (value : LatestBlockhashSlot) :
    rollbackWalk slots firstAvailableSlot rollback slot value ≠ .slotUnderflow := by
  have hzero : slots[0]? = none := by
    apply (notMem_iff slots 0).1
    exact fun hmem => absurd (hfirst 0 hmem) (not_le.2 hpos)
  induction rollback generalizing slot value with
  | zero => simp [rollbackWalk]
  | succ rollback ih =>
      rw [rollbackWalk]
      cases hwalk : walkBack slots firstAvailableSlot value slot with
      | found prevSlot prevValue =>
          have hnearest := (walkBack_found_iff hfirst (prevSlot, prevValue)).1 hwalk
          have hprev := hfirst prevSlot (mem_of_getElem? hnearest.stored)
          exact ih (hpos.trans_le hprev).ne' prevValue
      | notEnough => simp
      | slotUnderflow =>
          exact absurd hwalk (walkBack_ne_slotUnderflow hpos hzero value hslot)

/-- Among positive slots the first one is positive. -/
theorem exists_positive_first {slot : Slot} {value : LatestBlockhashSlot}
    (hget : slots[slot]? = some value) (hslots : ∀ slot ∈ slots, 1 ≤ slot) :
    ∃ first, slots.keys.head? = some first ∧ (∀ slot ∈ slots, first ≤ slot) ∧
      0 < first := by
  obtain ⟨first, hhead, hfirst⟩ := exists_head_keys (mem_of_getElem? hget)
  have hmem := ExtTreeMap.mem_keys.1 (List.mem_of_head? hhead)
  exact ⟨first, hhead, hfirst, hslots first hmem⟩

/-! ## The walk is the greatest chain -/

/-- The walk arrives somewhere exactly when some chain of its length goes down from
its start. -/
theorem exists_found_iff_chain {firstAvailableSlot : Slot}
    (hfirst : ∀ slot ∈ slots, firstAvailableSlot ≤ slot) (hheights : HeightsFit slots)
    {rollback : ℕ} {slot : Slot} {value : LatestBlockhashSlot} :
    (∃ reached block, rollbackWalk slots firstAvailableSlot rollback slot value =
        .found reached block) ↔
      ∃ lowers, IsChainBelow slots (slot, value) rollback lowers := by
  constructor
  · rintro ⟨reached, block, hwalk⟩
    have hsteps : Steps (NearestBlock slots) rollback (slot, value) (reached, block) :=
      (rollbackWalk_found_iff hfirst).1 hwalk
    obtain ⟨lowers, hchain, hlength, -⟩ := steps_iff_chain.1 hsteps
    apply Exists.intro lowers
    refine ⟨?_, hlength⟩
    rw [oneLower_eq hheights]
    exact hchain.imp fun _ _ => Nearest.toBelow
  · rintro ⟨lowers, hchain, hlength⟩
    rw [oneLower_eq hheights] at hchain
    obtain ⟨greedy, hgreedy, -⟩ := exists_greedy nextHeight_injective
      (steps_iff_chain.2 ⟨lowers, hchain, hlength,
        List.getLast?_eq_some_getLast (List.cons_ne_nil _ _)⟩) le_rfl rfl
    exact ⟨greedy.1, greedy.2, (rollbackWalk_found_iff hfirst).2 hgreedy⟩

/-- A greedy descent is a greatest chain. -/
theorem isGreatestChain_of_greedy (hheights : HeightsFit slots)
    {start : Slot × LatestBlockhashSlot} {lowers : List (Slot × LatestBlockhashSlot)}
    (hgreedy : (start :: lowers).IsChain (NearestBlock slots)) :
    IsGreatestChain slots start lowers.length lowers := by
  refine ⟨⟨?_, rfl⟩, ?_⟩
  · rw [oneLower_eq hheights]
    exact hgreedy.imp fun _ _ => Nearest.toBelow
  · rintro others ⟨hothers, hlength⟩
    rw [oneLower_eq hheights] at hothers
    exact forall₂_le_greedy nextHeight_injective hothers hgreedy hlength le_rfl rfl

/-- The walk ends where the greatest chain ends, or there is no chain. -/
theorem rollbackWalk_cases {firstAvailableSlot : Slot}
    (hfirst : ∀ slot ∈ slots, firstAvailableSlot ≤ slot) (hpos : 0 < firstAvailableSlot)
    (hheights : HeightsFit slots) (rollback : ℕ) {slot : Slot} (hslot : slot ≠ 0)
    (value : LatestBlockhashSlot) :
    (∃ lowers reached, IsGreatestChain slots (slot, value) rollback lowers ∧
      ((slot, value) :: lowers).getLast? = some reached ∧
      rollbackWalk slots firstAvailableSlot rollback slot value =
        .found reached.1 reached.2) ∨
    ((∀ lowers, ¬ IsChainBelow slots (slot, value) rollback lowers) ∧
      rollbackWalk slots firstAvailableSlot rollback slot value = .notEnough) := by
  cases hwalk : rollbackWalk slots firstAvailableSlot rollback slot value with
  | found reached block =>
      left
      have hsteps : Steps (NearestBlock slots) rollback (slot, value) (reached, block) :=
        (rollbackWalk_found_iff hfirst).1 hwalk
      obtain ⟨lowers, hchain, rfl, hlast⟩ := steps_iff_chain.1 hsteps
      exact ⟨lowers, (reached, block), isGreatestChain_of_greedy hheights hchain, hlast, rfl⟩
  | notEnough =>
      right
      refine ⟨fun lowers hlowers => ?_, rfl⟩
      obtain ⟨reached, block, hfound⟩ :=
        (exists_found_iff_chain hfirst hheights).2 ⟨lowers, hlowers⟩
      rw [hfound] at hwalk
      cases hwalk
  | slotUnderflow =>
      exact absurd hwalk (rollbackWalk_ne_slotUnderflow hfirst hpos rollback hslot value)

/-- A walk goes on where a shorter one has ended. -/
theorem rollbackWalk_add (firstAvailableSlot : Slot) (front back : ℕ) (slot : Slot)
    (value : LatestBlockhashSlot) :
    rollbackWalk slots firstAvailableSlot (front + back) slot value =
      match rollbackWalk slots firstAvailableSlot front slot value with
      | .found slot value => rollbackWalk slots firstAvailableSlot back slot value
      | walk => walk := by
  induction front generalizing slot value with
  | zero => rw [Nat.zero_add, rollbackWalk]
  | succ front ih =>
      rw [Nat.succ_add, rollbackWalk, rollbackWalk]
      cases walkBack slots firstAvailableSlot value slot with
      | found prevSlot prevValue => exact ih prevSlot prevValue
      | notEnough => rfl
      | slotUnderflow => rfl

/-! ## The answer -/

/-- The answer to a rollback that goes further than the store does. -/
def notEnoughSlots (jsonrpc : Option JsonrpcVersion) (id : JsonrpcId) : JsonrpcOutput :=
  createFailure jsonrpc id (.invalidParams "not enought slots in the storage")

section Answer

variable {storage : LatestBlockhashStorage} {commitment : CommitmentLevel}
  {value : LatestBlockhashSlot}
  (hget : storage.slots[storage.slotAt commitment]? = some value)
  (hslots : ∀ slot ∈ storage.slots, 1 ≤ slot) (hheights : HeightsFit storage.slots)
  {minContextSlot : Option Slot}
  (hmin : ∀ least ∈ minContextSlot, least ≤ storage.slotAt commitment)
  (jsonrpc : Option JsonrpcVersion) (id : JsonrpcId)

include hget hslots hheights hmin

/-- The answer comes from the end of the greatest chain, or there is no chain. -/
theorem latestBlockhash_cases {rollback : ℕ} (hrollback : rollback ≤ maxRecentBlockhashes) :
    (∃ lowers reached,
      IsGreatestChain storage.slots (storage.slotAt commitment, value) rollback lowers ∧
      ((storage.slotAt commitment, value) :: lowers).getLast? = some reached ∧
      latestBlockhash storage jsonrpc id commitment rollback minContextSlot =
        .ok (latestBlockhashSuccess jsonrpc id reached.1 reached.2)) ∨
    ((∀ lowers, ¬ IsChainBelow storage.slots (storage.slotAt commitment, value)
        rollback lowers) ∧
      latestBlockhash storage jsonrpc id commitment rollback minContextSlot =
        .ok (notEnoughSlots jsonrpc id)) := by
  obtain ⟨first, hhead, hfirst, hfirstPos⟩ := exists_positive_first hget hslots
  have hstart : storage.slotAt commitment ≠ 0 :=
    Nat.one_le_iff_ne_zero.1 (hslots _ (mem_of_getElem? hget))
  rw [latestBlockhash_eq_answer hget hhead hrollback hmin]
  rcases rollbackWalk_cases hfirst hfirstPos hheights rollback hstart value with
    ⟨lowers, reached, hgreatest, hlast, hwalk⟩ | ⟨hnone, hwalk⟩
  · rw [hwalk]
    exact Or.inl ⟨lowers, reached, hgreatest, hlast, rfl⟩
  · rw [hwalk]
    exact Or.inr ⟨hnone, rfl⟩

/-- The answer can be had in two parts, the second from the slot that the first one
reaches. -/
theorem latestBlockhash_add {front back : ℕ}
    (hrollback : front + back ≤ maxRecentBlockhashes) :
    (∃ reached : Slot × LatestBlockhashSlot,
      latestBlockhash storage jsonrpc id commitment front minContextSlot =
        .ok (latestBlockhashSuccess jsonrpc id reached.1 reached.2) ∧
      ∀ storage' : LatestBlockhashStorage, storage'.slots = storage.slots →
        storage'.slotAt commitment = reached.1 →
        latestBlockhash storage' jsonrpc id commitment back none =
          latestBlockhash storage jsonrpc id commitment (front + back) minContextSlot) ∨
    (latestBlockhash storage jsonrpc id commitment front minContextSlot =
        .ok (notEnoughSlots jsonrpc id) ∧
      latestBlockhash storage jsonrpc id commitment (front + back) minContextSlot =
        .ok (notEnoughSlots jsonrpc id)) := by
  obtain ⟨first, hhead, hfirst, hfirstPos⟩ := exists_positive_first hget hslots
  have hstart : storage.slotAt commitment ≠ 0 :=
    Nat.one_le_iff_ne_zero.1 (hslots _ (mem_of_getElem? hget))
  have hfront : front ≤ maxRecentBlockhashes := (Nat.le_add_right front back).trans hrollback
  have hback : back ≤ maxRecentBlockhashes := (Nat.le_add_left back front).trans hrollback
  rw [latestBlockhash_eq_answer hget hhead hrollback hmin,
    latestBlockhash_eq_answer hget hhead hfront hmin, rollbackWalk_add]
  rcases rollbackWalk_cases hfirst hfirstPos hheights front hstart value with
    ⟨lowers, reached, hgreatest, hlast, hwalk⟩ | ⟨-, hwalk⟩
  · left
    have hstored := hgreatest.toIsChainBelow.stored hheights hget hlast
    rw [hwalk]
    refine ⟨reached, rfl, fun storage' hsame hslot => ?_⟩
    rw [← hsame] at hhead hstored
    rw [← hslot] at hstored
    rw [latestBlockhash_eq_answer hstored hhead hback (fun _ hmem => by cases hmem), hsame,
      hslot]
  · right
    rw [hwalk]
    exact ⟨rfl, rfl⟩

end Answer

/-- A rollback from a stored slot, over positive slots and heights that fit.  It is
answered from the end of the greatest chain of its length, and by an error if there
is no chain; and it can be made in two parts, the second from the slot that the
first one reaches. -/
theorem rollback_greatest_chain {storage : LatestBlockhashStorage}
    {commitment : CommitmentLevel} {value : LatestBlockhashSlot}
    (hget : storage.slots[storage.slotAt commitment]? = some value)
    (hslots : ∀ slot ∈ storage.slots, 1 ≤ slot) (hheights : HeightsFit storage.slots)
    {rollback : ℕ} (hpos : 1 ≤ rollback) (hrollback : rollback ≤ maxRecentBlockhashes)
    {minContextSlot : Option Slot}
    (hmin : ∀ least ∈ minContextSlot, least ≤ storage.slotAt commitment)
    (jsonrpc : Option JsonrpcVersion) (id : JsonrpcId) :
    ((∃ lowers reached,
        IsGreatestChain storage.slots (storage.slotAt commitment, value) rollback lowers ∧
        lowers.getLast? = some reached ∧
        ∃ lastValid : Height, lastValid.toNat = reached.2.height.toNat + 300 ∧
          latestBlockhash storage jsonrpc id commitment rollback minContextSlot =
            .ok (createSuccess jsonrpc id
              (.latestBlockhash reached.1 reached.2.hash lastValid))) ∨
      ((∀ lowers, ¬ IsChainBelow storage.slots (storage.slotAt commitment, value)
          rollback lowers) ∧
        latestBlockhash storage jsonrpc id commitment rollback minContextSlot =
          .ok (notEnoughSlots jsonrpc id))) ∧
    ∀ front back, front + back = rollback →
      (∃ reached : Slot × LatestBlockhashSlot,
        latestBlockhash storage jsonrpc id commitment front minContextSlot =
          .ok (latestBlockhashSuccess jsonrpc id reached.1 reached.2) ∧
        ∀ storage' : LatestBlockhashStorage, storage'.slots = storage.slots →
          storage'.slotAt commitment = reached.1 →
          latestBlockhash storage' jsonrpc id commitment back none =
            latestBlockhash storage jsonrpc id commitment rollback minContextSlot) ∨
      (latestBlockhash storage jsonrpc id commitment front minContextSlot =
          .ok (notEnoughSlots jsonrpc id) ∧
        latestBlockhash storage jsonrpc id commitment rollback minContextSlot =
          .ok (notEnoughSlots jsonrpc id)) := by
  constructor
  · rcases latestBlockhash_cases hget hslots hheights hmin jsonrpc id hrollback with
      ⟨lowers, reached, hgreatest, hlast, hanswer⟩ | hnone
    · left
      obtain ⟨lower, rest, rfl⟩ : ∃ lower rest, lowers = lower :: rest := by
        apply List.exists_cons_of_length_pos
        rw [hgreatest.length]
        exact hpos
      have hstored := hgreatest.toIsChainBelow.stored hheights hget hlast
      rw [List.getLast?_cons_cons] at hlast
      exact ⟨lower :: rest, reached, hgreatest, hlast, _,
        toNat_lastValid (hheights _ _ hstored), hanswer⟩
    · exact Or.inr hnone
  · rintro front back rfl
    exact latestBlockhash_add hget hslots hheights hmin jsonrpc id hrollback

/-! ## A fork within a rollback -/

/-- Two blocks of height 4, of which the walk takes the one with the greater slot. -/
def forkedStore : LatestBlockhashStorage where
  slots := ExtTreeMap.ofList [(7, ⟨70, 3, .finalized⟩), (8, ⟨80, 4, .processed⟩),
    (10, ⟨100, 4, .confirmed⟩), (11, ⟨110, 5, .processed⟩)] compare
  finalizedTotal := 1
  slotProcessed := 11
  slotConfirmed := 10
  slotFinalized := 7

theorem rollback_greatest_chain_forkedStore :
    ∃ lowers reached,
      IsGreatestChain forkedStore.slots (11, ⟨110, 5, .processed⟩) 2 lowers ∧
      lowers.getLast? = some reached ∧
      ∃ lastValid : Height, lastValid.toNat = reached.2.height.toNat + 300 ∧
        latestBlockhash forkedStore none .null .processed 2 none =
          .ok (createSuccess none .null
            (.latestBlockhash reached.1 reached.2.hash lastValid)) := by
  have hslots : ∀ slot ∈ forkedStore.slots, 1 ≤ slot := by
    intro slot hmem
    have hkeys : ∀ slot ∈ forkedStore.slots.keys, 1 ≤ slot := by decide
    exact hkeys slot (ExtTreeMap.mem_keys.2 hmem)
  have hheights : HeightsFit forkedStore.slots := by
    intro slot value hget
    have hentries : ∀ entry ∈ forkedStore.slots.toList,
        entry.2.height.toNat < 2 ^ 64 - 300 := by decide
    exact hentries (slot, value) (ExtTreeMap.mem_toList_iff_getElem?_eq_some.2 hget)
  have hget : forkedStore.slots[forkedStore.slotAt .processed]? =
      some ⟨110, 5, .processed⟩ := by decide
  have hmin : ∀ least ∈ (none : Option Slot), least ≤ forkedStore.slotAt .processed :=
    fun _ hmem => by cases hmem
  have hrollback : 2 ≤ maxRecentBlockhashes := by decide
  obtain ⟨hanswer, -⟩ := rollback_greatest_chain hget hslots hheights
    one_le_two hrollback hmin none .null
  exact hanswer.resolve_right fun hfailed => absurd hfailed.2 (by decide)

end Solfees.GreedyRollback
