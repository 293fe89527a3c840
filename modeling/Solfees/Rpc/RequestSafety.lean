import Solfees.Rpc.GreedyRollback
import Solfees.Rpc.MessageJournal

/-!
# Requests that stop the update loop

The backward walk gives up at a slot that is absent and below the first one.  Where
the first one is slot 0 there is no such slot: a walk that finds too few blocks then
counts down past slot 0.  No other request and no other store stops the loop.
-/

namespace Solfees.RequestSafety

open Solfees.Draining
open Solfees.GreedyRollback
open Solfees.Journal
open Solfees.LatestBlockhash
open Solfees.Json
open Solfees.Message
open Solfees.MessageJournal
open Solfees.Rollback
open Solfees.UpdateLoop
open Std (ExtTreeMap)

/-! ## Walks over a store with slot 0 -/

section Walks

variable {slots : OrderedMap Slot LatestBlockhashSlot}

/-- No slot is below slot 0, so the walk has nowhere to give up. -/
theorem walkBack_ne_notEnough (value : LatestBlockhashSlot) (slot : Slot) :
    walkBack slots 0 value slot ≠ .notEnough := by
  induction slot with
  | zero => simp [walkBack]
  | succ slot ih =>
      rw [walkBack]
      cases slots[slot]? with
      | some prevValue =>
          by_cases hheight : prevValue.height + 1 = value.height
          · simp [hheight]
          · simpa [hheight] using ih
      | none => simpa using ih

theorem rollbackWalk_ne_notEnough (rollback : ℕ) (slot : Slot)
    (value : LatestBlockhashSlot) :
    rollbackWalk slots 0 rollback slot value ≠ .notEnough := by
  induction rollback generalizing slot value with
  | zero => simp [rollbackWalk]
  | succ rollback ih =>
      rw [rollbackWalk]
      cases hwalk : walkBack slots 0 value slot with
      | found prevSlot prevValue => exact ih prevSlot prevValue
      | notEnough => exact absurd hwalk (walkBack_ne_notEnough value slot)
      | slotUnderflow => simp

/-- The walk from a stored block stays above slot 0 exactly when slot 0 is not stored
or some chain is long enough. -/
theorem rollbackWalk_ne_slotUnderflow_iff {firstAvailableSlot : Slot}
    (hfirst : ∀ slot ∈ slots, firstAvailableSlot ≤ slot)
    (hmem : firstAvailableSlot ∈ slots) (hheights : HeightsFit slots) {rollback : ℕ}
    {slot : Slot} (hslot : slot ∈ slots) {value : LatestBlockhashSlot} :
    rollbackWalk slots firstAvailableSlot rollback slot value ≠ .slotUnderflow ↔
      (0 ∈ slots → ∃ lowers, IsChainBelow slots (slot, value) rollback lowers) := by
  rw [← exists_found_iff_chain hfirst hheights]
  constructor
  · intro hwalk hzero
    obtain rfl : firstAvailableSlot = 0 := Nat.le_zero.1 (hfirst 0 hzero)
    cases hcase : rollbackWalk slots 0 rollback slot value with
    | found reached block => exact ⟨reached, block, rfl⟩
    | notEnough => exact absurd hcase (rollbackWalk_ne_notEnough rollback slot value)
    | slotUnderflow => exact absurd hcase hwalk
  · intro hfound
    by_cases hzero : 0 ∈ slots
    · obtain ⟨reached, block, hwalk⟩ := hfound hzero
      rw [hwalk]
      simp
    · have hne {stored : Slot} (hstored : stored ∈ slots) : stored ≠ 0 :=
        ne_of_mem_of_not_mem hstored hzero
      exact rollbackWalk_ne_slotUnderflow hfirst (Nat.pos_of_ne_zero (hne hmem)) rollback
        (hne hslot) value

end Walks

/-! ## Requests over a store -/

/-- If the request walks back over a store with slot 0, the store has a chain of as
many blocks as are rolled back. -/
def HoldsRollback (storage : LatestBlockhashStorage) : RpcRequest → Prop
  | .latestBlockhash _ _ commitment rollback minContextSlot =>
      rollback ≤ maxRecentBlockhashes →
      (∀ least ∈ minContextSlot, least ≤ storage.slotAt commitment) →
      ∀ value, storage.slots[storage.slotAt commitment]? = some value →
        0 ∈ storage.slots →
        ∃ lowers, IsChainBelow storage.slots (storage.slotAt commitment, value)
          rollback lowers
  | _ => True

theorem exists_answer_iff (jsonrpc : Option JsonrpcVersion) (id : JsonrpcId) (walk : Walk) :
    (∃ output, answer jsonrpc id walk = .ok output) ↔ walk ≠ .slotUnderflow := by
  cases walk <;> simp [answer]

/-- A request that does not walk is answered. -/
theorem latestBlockhash_ok_of_no_walk {storage : LatestBlockhashStorage}
    {commitment : CommitmentLevel} {rollback : ℕ} {minContextSlot : Option Slot}
    (hrefused : rollback ≤ maxRecentBlockhashes →
      (∀ least ∈ minContextSlot, least ≤ storage.slotAt commitment) →
      storage.slots[storage.slotAt commitment]? = none)
    (jsonrpc : Option JsonrpcVersion) (id : JsonrpcId) :
    ∃ output, latestBlockhash storage jsonrpc id commitment rollback minContextSlot =
      .ok output := by
  rw [latestBlockhash]
  by_cases hrollback : maxRecentBlockhashes < rollback
  · rw [if_pos hrollback]
    exact ⟨_, rfl⟩
  rw [if_neg hrollback]
  by_cases hreached : (minContextSlot.any fun least =>
      decide (storage.slotAt commitment < least)) = true
  · simp only [hreached, if_true]
    exact ⟨_, rfl⟩
  · have hmin : ∀ least ∈ minContextSlot, least ≤ storage.slotAt commitment := by
      intro least hleast
      rw [Option.mem_def.1 hleast] at hreached
      simpa using hreached
    simp only [hreached, hrefused (not_lt.1 hrollback) hmin]
    exact ⟨_, rfl⟩

/-- A request for a blockhash is answered exactly when it does not walk past
slot 0. -/
theorem latestBlockhash_ok_iff {storage : LatestBlockhashStorage}
    (hheights : HeightsFit storage.slots) (jsonrpc : Option JsonrpcVersion)
    (id : JsonrpcId) (commitment : CommitmentLevel) (rollback : ℕ)
    (minContextSlot : Option Slot) :
    (∃ output, latestBlockhash storage jsonrpc id commitment rollback minContextSlot =
        .ok output) ↔
      HoldsRollback storage
        (.latestBlockhash jsonrpc id commitment rollback minContextSlot) := by
  by_cases hwalks : rollback ≤ maxRecentBlockhashes ∧
      (∀ least ∈ minContextSlot, least ≤ storage.slotAt commitment) ∧
      ∃ value, storage.slots[storage.slotAt commitment]? = some value
  · obtain ⟨hrollback, hmin, value, hget⟩ := hwalks
    have hstored := mem_of_getElem? hget
    obtain ⟨first, hhead, hfirst⟩ := exists_head_keys hstored
    have hmem := ExtTreeMap.mem_keys.1 (List.mem_of_head? hhead)
    rw [latestBlockhash_eq_answer hget hhead hrollback hmin, exists_answer_iff,
      rollbackWalk_ne_slotUnderflow_iff hfirst hmem hheights hstored]
    constructor
    · intro hchain _ _ value' hget' hzero
      rw [← Option.some.inj (hget.symm.trans hget')]
      exact hchain hzero
    · exact fun h => h hrollback hmin value hget
  · have hnone (hrollback : rollback ≤ maxRecentBlockhashes)
        (hmin : ∀ least ∈ minContextSlot, least ≤ storage.slotAt commitment) :
        storage.slots[storage.slotAt commitment]? = none := by
      apply Option.eq_none_iff_forall_ne_some.2
      exact fun value hget => hwalks ⟨hrollback, hmin, value, hget⟩
    apply iff_of_true (latestBlockhash_ok_of_no_walk hnone jsonrpc id)
    intro hrollback hmin value hget
    rw [hnone hrollback hmin] at hget
    cases hget

/-- Every request is answered, unless it walks past slot 0. -/
theorem onRequest_ok_iff {state : LoopState}
    (hheights : HeightsFit state.latestBlockhashStorage.slots) (request : RpcRequest) :
    (∃ output, state.onRequest request = .ok output) ↔
      HoldsRollback state.latestBlockhashStorage request := by
  cases request with
  | latestBlockhash jsonrpc id commitment rollback minContextSlot =>
      exact latestBlockhash_ok_iff hheights jsonrpc id commitment rollback minContextSlot
  | recentPrioritizationFees jsonrpc id pubkeys percentile =>
      exact iff_of_true ⟨_, rfl⟩ trivial
  | slot jsonrpc id commitment minContextSlot => exact iff_of_true ⟨_, rfl⟩ trivial
  | solfeesSlots jsonrpc id filter frontend =>
      apply iff_of_true _ trivial
      rw [LoopState.onRequest]
      cases frontend with
      | true => exact ⟨_, rfl⟩
      | false =>
          cases (state.solfeesSlots filter).mapM SolfeesPrioritizationFee.tryFrom with
          | ok outputs => exact ⟨_, rfl⟩
          | error error => exact ⟨_, rfl⟩

/-! ## Requests in a run -/

/-- The heights of the stored blocks fit when those of the blocks received do. -/
theorem heightsFit_of_run {messages : List GeyserMessage}
    (hheights : ∀ block, .slot block ∈ messages → block.height.toNat < 2 ^ 64 - 300)
    {state : LoopState} (hrun : LoopState.runUpdateLoop messages = .ok state) :
    HeightsFit state.latestBlockhashStorage.slots := by
  intro slot value hget
  obtain ⟨info, hinfo, rfl⟩ := (storesShow_of_run hrun).2.storage slot value hget
  obtain ⟨before, block, since, rfl, -, -, rfl⟩ := exists_latest_block hinfo
  exact hheights block (by simp)

/-- In every state that a run reaches, every request is answered exactly when it does
not walk back over a store that has slot 0 and no chain of as many blocks as are
rolled back. -/
theorem request_answered_iff {messages : List GeyserMessage}
    (hheights : ∀ block, .slot block ∈ messages → block.height.toNat < 2 ^ 64 - 300) :
    ∃ state, LoopState.runUpdateLoop messages = .ok state ∧
      ∀ request, (∃ output, state.onRequest request = .ok output) ↔
        HoldsRollback state.latestBlockhashStorage request := by
  obtain ⟨state, hrun, -⟩ := Eviction.runUpdateLoop_ok messages
  exact ⟨state, hrun, onRequest_ok_iff (heightsFit_of_run hheights hrun)⟩

/-- The first two blocks of a cluster. -/
def genesis : List GeyserMessage :=
  [.slot (.bare 0 0 0 1), .slot (.bare 1 0 1 2), .status 1 .processed]

/-- One block can be rolled back from block 1, but not two. -/
theorem request_answered_iff_genesis :
    ∃ state, LoopState.runUpdateLoop genesis = .ok state ∧
      HoldsRollback state.latestBlockhashStorage
        (.latestBlockhash none .null .processed 1 none) ∧
      ¬ HoldsRollback state.latestBlockhashStorage
        (.latestBlockhash none .null .processed 2 none) := by
  have hheights : ∀ block, .slot block ∈ genesis →
      block.height.toNat < 2 ^ 64 - 300 := by
    simp [genesis, Block.bare]
  obtain ⟨state, hrun, hrequest⟩ := request_answered_iff hheights
  have hone : (LoopState.runUpdateLoop genesis >>= fun state =>
      state.onRequest (.latestBlockhash none .null .processed 1 none)) =
        .ok (createSuccess none .null (.latestBlockhash 0 1 300)) := by
    decide
  have htwo : (LoopState.runUpdateLoop genesis >>= fun state =>
      state.onRequest (.latestBlockhash none .null .processed 2 none)) =
        .error .slotUnderflow := by
    decide
  rw [hrun] at hone htwo
  refine ⟨state, hrun, (hrequest _).1 ⟨_, hone⟩, ?_⟩
  rw [← hrequest]
  rintro ⟨output, houtput⟩
  cases houtput.symm.trans htwo

/-- The walk from block 1 finds block 0, and goes on below it. -/
theorem walk_leaves_slot_zero :
    (LoopState.runUpdateLoop genesis >>= fun state =>
        state.onRequest (.latestBlockhash none .null .processed 2 none)) =
      .error .slotUnderflow := by
  decide

end Solfees.RequestSafety
