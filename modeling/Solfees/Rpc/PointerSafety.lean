import Solfees.Rpc.WellOrdered

/-!
# The pointers stay in the store

Eviction pops the smallest slots whatever their commitment, yet along a
well-ordered sequence none of the three slots the store points at is ever
popped: each pointer stays at or above the finalized one, which the counter
protects.
-/

namespace Solfees.PointerSafety

open Std (ExtTreeMap)
open Solfees.Draining
open Solfees.Eviction
open Solfees.Json
open Solfees.LatestBlockhash
open Solfees.Message
open Solfees.Run
open Solfees.UpdateLoop
open Solfees.WellOrdered

/-- The pointers after the messages `before` of a well-ordered sequence. -/
structure Pointers (before : List GeyserMessage)
    (storage : LatestBlockhashStorage) : Prop where
  processedStored : storage.slotProcessed ∈ storage.slots ∨
    (storage.slotProcessed = 0 ∧ ∀ slot, .status slot .processed ∉ before)
  processedTop : ∀ slot, .status slot .processed ∈ before →
    slot ≤ storage.slotProcessed ∨
      ∃ other, .status other .finalized ∈ before ∧ slot < other
  confirmedStored : ∀ slot, .status slot .confirmed ∈ before →
    storage.slotConfirmed ∈ storage.slots
  confirmedTop : ∀ slot, .status slot .confirmed ∈ before →
    slot ≤ storage.slotConfirmed

namespace Pointers

variable {before : List GeyserMessage} {storage : LatestBlockhashStorage}

theorem empty : Pointers [] .empty where
  processedStored := Or.inr ⟨rfl, by simp⟩
  processedTop slot h := by simp at h
  confirmedStored slot h := by simp at h
  confirmedTop slot h := by simp at h

/-- A processed slot stays covered by a pointer that has not gone down. -/
theorem covered_concat (h : Pointers before storage) {slot pointer : Slot}
    (hslot : .status slot .processed ∈ before) (hle : storage.slotProcessed ≤ pointer)
    (message : GeyserMessage) :
    slot ≤ pointer ∨
      ∃ other, .status other .finalized ∈ before ++ [message] ∧ slot < other := by
  rcases h.processedTop slot hslot with htop | ⟨other, hother, hlt⟩
  · exact Or.inl (htop.trans hle)
  · exact Or.inr ⟨other, List.mem_append_left _ hother, hlt⟩

theorem push (h : Pointers before storage) (block : Block) :
    Pointers (before ++ [GeyserMessage.slot block])
      (storage.pushBlock block.slot block.height block.hash) where
  processedStored := by
    rcases h.processedStored with hstored | ⟨hzero, hnone⟩
    · exact Or.inl (mem_insert.2 (Or.inr hstored))
    · exact Or.inr ⟨hzero, fun slot hmem =>
        hnone slot (status_mem_concat_slot.1 hmem)⟩
  processedTop slot hmem :=
    h.covered_concat (status_mem_concat_slot.1 hmem) le_rfl _
  confirmedStored slot hmem :=
    mem_insert.2 (Or.inr (h.confirmedStored slot (status_mem_concat_slot.1 hmem)))
  confirmedTop slot hmem :=
    h.confirmedTop slot (status_mem_concat_slot.1 hmem)

/-- With a processed status the processed pointer is at a stored slot; if that of the
status is not stored, the pointer was set before. -/
theorem slotProcessed_mem (h : Pointers before storage)
    (hstore : OrderedStore before storage) (hbefore : Admitted wellOrdered before)
    {target : Slot} (hblock : HasBlock before target) :
    (storage.recordCommitment target .processed).slotProcessed ∈ storage.slots := by
  rw [recordCommitment_slotProcessed]
  by_cases hin : target ∈ storage.slots
  · rw [if_pos ⟨hin, rfl⟩]
    rcases le_total storage.slotProcessed target with hle | hle
    · rwa [max_eq_right hle]
    · rw [max_eq_left hle]
      rcases h.processedStored with hstored | ⟨hzero, -⟩
      · exact hstored
      · obtain rfl : target = storage.slotProcessed :=
          le_antisymm hle (hzero ▸ Nat.zero_le target)
        exact hin
  · rw [if_neg fun hboth => hin hboth.1]
    have hfinalized := (hstore.lt_slotFinalized hblock hin).1
    rcases h.processedStored with hstored | ⟨-, hnone⟩
    · exact hstored
    · exact absurd (processed_of_confirmed hbefore
        (confirmed_of_finalized hbefore hfinalized)) (hnone _)

/-- The slot of a processed status is covered by the pointer, or was evicted, and then
some greater slot is finalized. -/
theorem covered_target (hstore : OrderedStore before storage) {target : Slot}
    (hblock : HasBlock before target) (message : GeyserMessage) :
    target ≤ (storage.recordCommitment target .processed).slotProcessed ∨
      ∃ other, .status other .finalized ∈ before ++ [message] ∧ target < other := by
  rw [recordCommitment_slotProcessed]
  by_cases hin : target ∈ storage.slots
  · rw [if_pos ⟨hin, rfl⟩]
    exact Or.inl (le_max_right _ _)
  · obtain ⟨htop, hlt⟩ := hstore.lt_slotFinalized hblock hin
    exact Or.inr ⟨_, List.mem_append_left _ htop, hlt⟩

/-- A processed status; its slot may have been evicted. -/
theorem processed (h : Pointers before storage)
    (hstore : OrderedStore before storage)
    (hbefore : Admitted wellOrdered before) {target : Slot}
    (hblock : HasBlock before target) {after : LatestBlockhashStorage}
    (hevicted : Evicted (storage.recordCommitment target .processed) after) :
    Pointers (before ++ [GeyserMessage.status target .processed]) after := by
  obtain rfl := hevicted.eq_of_ne_finalized hstore.bound (by simp)
  have hconfirmed := recordCommitment_slotConfirmed storage target .processed
  rw [if_neg (by simp)] at hconfirmed
  have hraised : storage.slotProcessed ≤
      (storage.recordCommitment target .processed).slotProcessed := by
    rw [recordCommitment_slotProcessed]
    exact le_ite_max _ _
  refine ⟨?_, ?_, ?_, ?_⟩
  · rw [mem_recordCommitment_slots]
    exact Or.inl (h.slotProcessed_mem hstore hbefore hblock)
  · intro slot hslot
    rcases status_mem_concat_status.1 hslot with hslot | ⟨rfl, -⟩
    · exact h.covered_concat hslot hraised _
    · exact covered_target hstore hblock _
  · intro slot hslot
    rw [hconfirmed, mem_recordCommitment_slots]
    exact h.confirmedStored slot (by simpa using hslot)
  · intro slot hslot
    rw [hconfirmed]
    exact h.confirmedTop slot (by simpa using hslot)

/-- A confirmed status; its slot is above the finalized ones, so it is still
stored. -/
theorem confirmed (h : Pointers before storage)
    (hstore : OrderedStore before storage)
    (hbefore : Admitted wellOrdered before) {target : Slot}
    (hblock : HasBlock before target) (habove : Above before .confirmed target)
    {after : LatestBlockhashStorage}
    (hevicted : Evicted (storage.recordCommitment target .confirmed) after) :
    Pointers (before ++ [GeyserMessage.status target .confirmed]) after := by
  have hin : target ∈ storage.slots := hstore.mem_of_above hblock
    fun earlier hmem => habove earlier (confirmed_of_finalized hbefore hmem)
  obtain rfl := hevicted.eq_of_ne_finalized hstore.bound (by simp)
  have hprocessed := recordCommitment_slotProcessed storage target .confirmed
  rw [if_neg (by simp)] at hprocessed
  have hpointer := recordCommitment_slotConfirmed storage target .confirmed
  rw [if_pos ⟨hin, rfl⟩] at hpointer
  refine ⟨?_, ?_, ?_, ?_⟩
  · rw [hprocessed, mem_recordCommitment_slots]
    rcases h.processedStored with hstored | ⟨hzero, hnone⟩
    · exact Or.inl hstored
    · exact Or.inr ⟨hzero, by simpa using hnone⟩
  · intro slot hslot
    rw [hprocessed]
    exact h.covered_concat (by simpa using hslot) le_rfl _
  · intro slot _
    rwa [hpointer, mem_recordCommitment_slots]
  · intro slot hslot
    rw [hpointer]
    rcases status_mem_concat_status.1 hslot with hslot | ⟨rfl, -⟩
    · exact (habove slot hslot).le
    · exact le_rfl

/-- A finalized status; the eviction it starts stops below the new finalized
slot, and the other pointers are not below it. -/
theorem finalized (h : Pointers before storage)
    (hbefore : Admitted wellOrdered before) {target : Slot}
    (hconfirmed : .status target .confirmed ∈ before)
    (habove : Above before .finalized target) {after : LatestBlockhashStorage}
    (hafter : OrderedStore (before ++ [GeyserMessage.status target .finalized]) after)
    (hevicted : Evicted (storage.recordCommitment target .finalized) after) :
    Pointers (before ++ [GeyserMessage.status target .finalized]) after := by
  have hprocessedPointer : after.slotProcessed = storage.slotProcessed := by
    rw [hevicted.slotProcessed, recordCommitment_slotProcessed, if_neg (by simp)]
  have hconfirmedPointer : after.slotConfirmed = storage.slotConfirmed := by
    rw [hevicted.slotConfirmed, recordCommitment_slotConfirmed, if_neg (by simp)]
  have hprocessed := processed_of_confirmed hbefore hconfirmed
  -- what is stored at or above a kept finalized slot is kept
  have hkeep : ∀ slot ∈ storage.slots, target ≤ slot → slot ∈ after.slots := by
    intro slot hslot hle
    have hlast : .status target .finalized ∈
        before ++ [GeyserMessage.status target .finalized] := by
      simp
    obtain ⟨-, htop, hkept⟩ := hafter.top target hlast
    have hpointer : after.slotFinalized ≤ target := by
      rcases status_mem_concat_status.1 htop with hmem | ⟨heq, -⟩
      · exact (habove _ hmem).le
      · exact heq.le
    refine hevicted.upper.mem_of_le hkept ?_ (hpointer.trans hle)
    rwa [mem_recordCommitment_slots]
  refine ⟨?_, ?_, ?_, ?_⟩
  · left
    rw [hprocessedPointer]
    have hstored : storage.slotProcessed ∈ storage.slots :=
      h.processedStored.resolve_right fun hnone => hnone.2 target hprocessed
    refine hkeep _ hstored ?_
    rcases h.processedTop target hprocessed with hle | ⟨other, hother, hlt⟩
    · exact hle
    · exact absurd (habove other hother) (lt_asymm hlt)
  · intro slot hslot
    rw [hprocessedPointer]
    exact h.covered_concat (by simpa using hslot) le_rfl _
  · intro slot _
    rw [hconfirmedPointer]
    exact hkeep _ (h.confirmedStored target hconfirmed)
      (h.confirmedTop target hconfirmed)
  · intro slot hslot
    rw [hconfirmedPointer]
    exact h.confirmedTop slot (by simpa using hslot)

/-- The slot of a level that has been reported is in the store. -/
theorem slotAt_mem (h : Pointers before storage)
    (hstore : OrderedStore before storage) {slot : Slot}
    {commitment : CommitmentLevel} (hmem : .status slot commitment ∈ before) :
    storage.slotAt commitment ∈ storage.slots := by
  cases commitment with
  | processed =>
      exact h.processedStored.resolve_right fun hnone => hnone.2 slot hmem
  | confirmed => exact h.confirmedStored slot hmem
  | finalized => exact (hstore.top slot hmem).2.2

end Pointers

theorem pointers_step {before : List GeyserMessage} {state next : LoopState}
    {message : GeyserMessage}
    (hordered : Admitted wellOrdered (before ++ [message]))
    (hstore : OrderedStore before state.latestBlockhashStorage)
    (h : Pointers before state.latestBlockhashStorage)
    (hstepped : Stepped state message next) :
    Pointers (before ++ [message]) next.latestBlockhashStorage := by
  have hbefore : Admitted wellOrdered before := hordered.append_left
  have hadmits := hordered.last
  have hstore' := orderedStore_step (ordered_of_wellOrdered hordered) hstore hstepped
  cases hstepped with
  | slot block => exact h.push block
  | status target commitment hevicted =>
      cases commitment with
      | processed => exact h.processed hstore hbefore hadmits.1 hevicted
      | confirmed =>
          exact h.confirmed hstore hbefore hadmits.1 hadmits.2.2 hevicted
      | finalized =>
          exact h.finalized hbefore hadmits.2.1 hadmits.2.2 hstore' hevicted

theorem runUpdateLoop_pointers {messages : List GeyserMessage}
    (h : Admitted wellOrdered messages) :
    ∃ state, LoopState.runUpdateLoop messages = .ok state ∧
      OrderedStore messages state.latestBlockhashStorage ∧
      Pointers messages state.latestBlockhashStorage := by
  obtain ⟨state, hrun, -, hinv⟩ := runUpdateLoop_invariant
    (fun before state => OrderedStore before state.latestBlockhashStorage ∧
      Pointers before state.latestBlockhashStorage)
    ⟨OrderedStore.empty, Pointers.empty⟩
    (by
      rintro before state message next hordered _ ⟨hstore, hpointers⟩ hstepped
      exact ⟨orderedStore_step (ordered_of_wellOrdered hordered) hstore hstepped,
        pointers_step hordered hstore hpointers hstepped⟩) h
  exact ⟨state, hrun, hinv⟩

/-- A request without rollback is answered from the pointer of its level. -/
theorem latestBlockhash_of_stored {storage : LatestBlockhashStorage}
    {commitment : CommitmentLevel} {value : LatestBlockhashSlot}
    (hget : storage.slots[storage.slotAt commitment]? = some value)
    (jsonrpc : Option JsonrpcVersion) (id : JsonrpcId) :
    latestBlockhash storage jsonrpc id commitment 0 none =
      .ok (latestBlockhashSuccess jsonrpc id (storage.slotAt commitment) value) := by
  simp [latestBlockhash, hget]

/-- Along every well-ordered sequence, once a status of a level has been
delivered the slot of that level is stored, and a request at that level finds
its block. -/
theorem pointer_never_lost {messages : List GeyserMessage}
    (hordered : Admitted wellOrdered messages) {before : List GeyserMessage}
    (hpre : before <+: messages) :
    ∃ state, LoopState.runUpdateLoop before = .ok state ∧
      ∀ slot commitment, .status slot commitment ∈ before →
        ∃ value, state.latestBlockhashStorage.slots[
            state.latestBlockhashStorage.slotAt commitment]? = some value ∧
          ∀ jsonrpc id,
            state.onRequest (.latestBlockhash jsonrpc id commitment 0 none) =
              .ok (latestBlockhashSuccess jsonrpc id
                (state.latestBlockhashStorage.slotAt commitment) value) ∧
            state.onRequest (.latestBlockhash jsonrpc id commitment 0 none) ≠
              .ok (createFailure jsonrpc id (internalErrorWithData "no slot")) := by
  obtain ⟨state, hrun, hstore, hpointers⟩ :=
    runUpdateLoop_pointers (hordered.of_isPrefix hpre)
  refine ⟨state, hrun, fun slot commitment hmem => ?_⟩
  obtain ⟨value, hget⟩ :=
    (mem_iff_exists _ _).1 (hpointers.slotAt_mem hstore hmem)
  refine ⟨value, hget, fun jsonrpc id => ?_⟩
  have hanswer := latestBlockhash_of_stored hget jsonrpc id
  refine ⟨hanswer, ?_⟩
  rw [LoopState.onRequest, hanswer]
  simp [latestBlockhashSuccess, createSuccess, createFailure]

/-- Slots 8 and 9 are both children of 7; of the fork only 9 is finalized, after 7. -/
def forkedSlots : List GeyserMessage :=
  [.slot (.bare 7 6 3 1), .status 7 .processed, .status 7 .confirmed,
    .slot (.bare 8 7 4 2), .status 8 .processed, .slot (.bare 9 7 4 3),
    .status 7 .finalized, .status 9 .processed, .status 9 .confirmed,
    .status 9 .finalized]

theorem admitted_forkedSlots : Admitted wellOrdered forkedSlots := by
  change Admitted wellOrdered
    ([] ++ [_] ++ [_] ++ [_] ++ [_] ++ [_] ++ [_] ++ [_] ++ [_] ++ [_] ++ [_])
  refine ((((((((((admitted_nil _).concat ?_).concat ?_).concat ?_).concat ?_).concat
    ?_).concat ?_).concat ?_).concat ?_).concat ?_).concat ?_
  all_goals simp [wellOrdered, HasBlock, Above, Block.bare]

theorem pointer_never_lost_forkedSlots :
    ∃ state, LoopState.runUpdateLoop forkedSlots = .ok state ∧
      state.latestBlockhashStorage.slotAt .finalized = 9 ∧
      ∀ commitment, ∃ value, state.latestBlockhashStorage.slots[
        state.latestBlockhashStorage.slotAt commitment]? = some value := by
  obtain ⟨state, hrun, hpointers⟩ :=
    pointer_never_lost admitted_forkedSlots (List.prefix_refl forkedSlots)
  have hview : (LoopState.runUpdateLoop forkedSlots).toOption.map
      (fun state => state.latestBlockhashStorage.slotAt .finalized) = some 9 := by
    decide +kernel
  rw [hrun] at hview
  refine ⟨state, hrun, Option.some.inj hview, fun commitment => ?_⟩
  obtain ⟨value, hget, -⟩ := hpointers 9 commitment (by cases commitment <;> decide)
  exact ⟨value, hget⟩

end Solfees.PointerSafety
