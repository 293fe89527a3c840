import Solfees.Rpc.FinalizedCounter
import Solfees.Rpc.MessageJournal

/-!
# The order of the slots that `getSlot` returns

Each commitment level has a pointer and a rule of its own.  The processed
pointer only moves up, the finalized pointer moves up because the deduplication
drops what is below its tip, and the confirmed pointer goes wherever the last
confirmed status of a stored block sends it.
-/

namespace Solfees.SlotOrder

open Solfees.Draining
open Solfees.Eviction
open Solfees.FinalizedCounter
open Solfees.Json
open Solfees.LatestBlockhash
open Solfees.Message
open Solfees.MessageJournal
open Solfees.Run
open Solfees.Subscribe
open Solfees.UpdateLoop

/-! ## The finalized slots that get through -/

/-- What one message does to the tip. -/
theorem tip_of_deduplicate (state : Deduplication) (message : GeyserMessage) :
    (state.deduplicate message = (state, none) ∧
        message.slotOf < state.finalizedSlotTip) ∨
      state.finalizedSlotTip ≤ message.slotOf ∧
        (state.deduplicate message).1.finalizedSlotTip =
          (if message.commitmentOf = some .finalized then message.slotOf
            else state.finalizedSlotTip) ∧
        ((state.deduplicate message).2 = none ∨
          (state.deduplicate message).2 = some message) := by
  by_cases hlow : message.slotOf < state.finalizedSlotTip
  · left
    exact ⟨by rw [Deduplication.deduplicate, if_pos hlow], hlow⟩
  · right
    refine ⟨not_lt.1 hlow, ?_, ?_⟩
    · rw [Deduplication.deduplicate, if_neg hlow]
    · rw [Deduplication.deduplicate, if_neg hlow]
      dsimp only
      split
      · exact Or.inl rfl
      · exact Or.inr rfl

theorem forwarded_concat (messages : List GeyserMessage) (message : GeyserMessage) :
    forwarded (messages ++ [message]) = forwarded messages ++
      ((stateAfter Deduplication.deduplicate .init messages).deduplicate
        message).2.toList :=
  outputs_concat _ _ _ _

/-- The finalized slots that get through do not go down, and the tip is at or
above them. -/
theorem finalizedSlots_forwarded (messages : List GeyserMessage) :
    (finalizedSlots (forwarded messages)).Pairwise (· ≤ ·) ∧
      ∀ slot ∈ finalizedSlots (forwarded messages),
        slot ≤ (stateAfter Deduplication.deduplicate .init messages).finalizedSlotTip := by
  induction messages using List.reverseRecOn with
  | nil => exact ⟨List.Pairwise.nil, by simp [forwarded, outputs, finalizedSlots]⟩
  | append_singleton messages message ih =>
      obtain ⟨hsorted, htip⟩ := ih
      rw [forwarded_concat, stateAfter_concat]
      rcases tip_of_deduplicate
          (stateAfter Deduplication.deduplicate .init messages) message with
        ⟨hdropped, -⟩ | ⟨hle, hnext, hout⟩
      · rw [hdropped, Option.toList_none, List.append_nil]
        exact ⟨hsorted, htip⟩
      · rw [hnext]
        have hraised : ∀ slot ∈ finalizedSlots (forwarded messages), slot ≤
            (if message.commitmentOf = some .finalized then message.slotOf
              else (stateAfter Deduplication.deduplicate .init
                messages).finalizedSlotTip) := by
          intro slot hslot
          split
          · exact (htip slot hslot).trans hle
          · exact htip slot hslot
        rcases hout with hout | hout
        · rw [hout, Option.toList_none, List.append_nil]
          exact ⟨hsorted, hraised⟩
        · rw [hout, Option.toList_some, finalizedSlots_concat]
          by_cases hfinalized : message.commitmentOf = some .finalized
          · rw [if_pos hfinalized] at hraised ⊢
            simp only [List.pairwise_append, List.pairwise_singleton,
              List.mem_append, List.mem_singleton, if_pos hfinalized]
            refine ⟨⟨hsorted, trivial, ?_⟩, ?_⟩
            · rintro slot hslot last rfl
              exact hraised slot hslot
            · rintro slot (hslot | rfl)
              · exact hraised slot hslot
              · exact le_rfl
          · rw [if_neg hfinalized, List.append_nil]
            exact ⟨hsorted, hraised⟩

/-- A finalized status that gets through is not below an earlier one. -/
theorem finalized_le_of_forwarded {messages before : List GeyserMessage}
    {earlier slot : Slot} (hpre : before ++ [.status slot .finalized] <+: forwarded messages)
    (hmem : .status earlier .finalized ∈ before) : earlier ≤ slot := by
  obtain ⟨after, hsplit⟩ := hpre
  have hsorted := (finalizedSlots_forwarded messages).1
  rw [← hsplit, finalizedSlots, List.filterMap_append, ← finalizedSlots,
    finalizedSlots_concat, List.pairwise_append, List.pairwise_append] at hsorted
  exact hsorted.1.2.2 earlier (mem_finalizedSlots.2 hmem) slot (by
    simp [GeyserMessage.commitmentOf, GeyserMessage.slotOf])

/-! ## The pointers -/

/-- The finalized pointer is still 0 or the slot of a finalized status. -/
theorem slotFinalized_mem {messages : List GeyserMessage} {state : LoopState}
    (hrun : LoopState.runUpdateLoop messages = .ok state) :
    state.latestBlockhashStorage.slotFinalized = 0 ∨
      .status state.latestBlockhashStorage.slotFinalized .finalized ∈ messages := by
  apply And.right
  apply invariant_of_run
    (fun before state => state.latestBlockhashStorage.slotFinalized = 0 ∨
      .status state.latestBlockhashStorage.slotFinalized .finalized ∈ before)
    (Or.inl rfl) _ (admitted_true messages) hrun
  intro before state message next _ _ hinv hstepped
  have hkept : state.latestBlockhashStorage.slotFinalized = 0 ∨
      .status state.latestBlockhashStorage.slotFinalized .finalized ∈ before ++ [message] :=
    hinv.imp_right (List.mem_append_left _)
  cases hstepped with
  | slot block => exact hkept
  | status slot commitment hevicted =>
      dsimp only
      rw [hevicted.slotFinalized, recordCommitment_slotFinalized]
      split
      · rename_i hset
        rw [hset.2]
        exact Or.inr (by simp)
      · exact hkept

/-- Among the messages that get through, the processed and the finalized pointer
never move down, and the confirmed pointer does only with a confirmed status of
a stored block below it. -/
theorem slotAt_le_iff {messages before : List GeyserMessage}
    {message : GeyserMessage} {state next : LoopState}
    (hpre : before ++ [message] <+: forwarded messages)
    (hrun : LoopState.runUpdateLoop before = .ok state)
    (hnext : LoopState.runUpdateLoop (before ++ [message]) = .ok next) :
    (∀ commitment, state.latestBlockhashStorage.slotAt commitment ≤
        next.latestBlockhashStorage.slotAt commitment) ↔
      ∀ slot, message = .status slot .confirmed →
        slot ∈ state.latestBlockhashStorage.slots →
        state.latestBlockhashStorage.slotConfirmed ≤ slot := by
  cases stepped_of_run hrun hnext with
  | slot block =>
      refine iff_of_true (fun commitment => ?_) (fun slot h => by simp at h)
      cases commitment <;> exact le_rfl
  | status target level hevicted =>
      have hprocessed := hevicted.slotProcessed.trans
        (recordCommitment_slotProcessed state.latestBlockhashStorage target level)
      have hconfirmed := hevicted.slotConfirmed.trans
        (recordCommitment_slotConfirmed state.latestBlockhashStorage target level)
      have hfinalized := hevicted.slotFinalized.trans
        (recordCommitment_slotFinalized state.latestBlockhashStorage target level)
      constructor
      · rintro hrises slot heq hmem
        obtain ⟨rfl, rfl⟩ := GeyserMessage.status.inj heq
        rw [if_pos ⟨hmem, rfl⟩] at hconfirmed
        exact (hrises .confirmed).trans_eq hconfirmed
      · intro hlate commitment
        cases commitment with
        | processed =>
            rw [LatestBlockhashStorage.slotAt, LatestBlockhashStorage.slotAt, hprocessed]
            exact le_ite_max _ _
        | confirmed =>
            rw [LatestBlockhashStorage.slotAt, LatestBlockhashStorage.slotAt, hconfirmed]
            split
            · rename_i hset
              exact hlate target (by rw [hset.2]) hset.1
            · exact le_rfl
        | finalized =>
            rw [LatestBlockhashStorage.slotAt, LatestBlockhashStorage.slotAt, hfinalized]
            split
            · rename_i hset
              rcases slotFinalized_mem hrun with hzero | hmem
              · rw [hzero]
                exact Nat.zero_le target
              · rw [hset.2] at hpre
                exact finalized_le_of_forwarded hpre hmem
            · exact le_rfl

/-- The pointer that `getSlot` reads. -/
theorem onRequest_slot (state : LoopState) (commitment : CommitmentLevel)
    (jsonrpc : Option JsonrpcVersion) (id : JsonrpcId) :
    state.onRequest (.slot jsonrpc id commitment none) =
      .ok (createSuccess jsonrpc id
        (.slot (state.latestBlockhashStorage.slotAt commitment))) := by
  simp [LoopState.onRequest, getSlot]

/-- Along what the deduplication lets through, no `getSlot` answer is below an
earlier one of its level exactly when no confirmed status finds its block stored
while its slot is below the confirmed pointer. -/
theorem getSlot_rises_iff (messages : List GeyserMessage) :
    (∀ earlier later state state', earlier <+: later → later <+: forwarded messages →
        LoopState.runUpdateLoop earlier = .ok state →
        LoopState.runUpdateLoop later = .ok state' →
        ∀ commitment jsonrpc id, ∃ slot slot',
          state.onRequest (.slot jsonrpc id commitment none) =
            .ok (createSuccess jsonrpc id (.slot slot)) ∧
          state'.onRequest (.slot jsonrpc id commitment none) =
            .ok (createSuccess jsonrpc id (.slot slot')) ∧
          slot ≤ slot') ↔
      ∀ before slot state, before ++ [.status slot .confirmed] <+: forwarded messages →
        LoopState.runUpdateLoop before = .ok state →
        slot ∈ state.latestBlockhashStorage.slots →
        state.latestBlockhashStorage.slotConfirmed ≤ slot := by
  constructor
  · intro hrises before slot state hpre hrun
    obtain ⟨next, hnext, -⟩ := runUpdateLoop_ok (before ++ [.status slot .confirmed])
    refine (slotAt_le_iff hpre hrun hnext).1 (fun commitment => ?_) slot rfl
    obtain ⟨low, high, hlow, hhigh, hle⟩ := hrises before _ state next
      (List.prefix_append _ _) hpre hrun hnext commitment none .null
    rw [onRequest_slot, createSuccess, createSuccess] at hlow hhigh
    simp only [Except.ok.injEq, JsonrpcOutput.success.injEq, RpcResult.slot.injEq,
      true_and, and_true] at hlow hhigh
    rwa [hlow, hhigh]
  · intro hlate earlier later state state' hearlier hlater hrun hrun' commitment
      jsonrpc id
    refine ⟨_, _, onRequest_slot _ _ _ _, onRequest_slot _ _ _ _, ?_⟩
    obtain ⟨since, rfl⟩ := hearlier
    induction since using List.reverseRecOn generalizing state' with
    | nil =>
        rw [List.append_nil] at hrun'
        rw [Except.ok.inj (hrun.symm.trans hrun')]
    | append_singleton since message ih =>
        rw [← List.append_assoc] at hlater hrun'
        obtain ⟨middle, hmiddle, -⟩ := runUpdateLoop_ok (earlier ++ since)
        have hstep := (slotAt_le_iff hlater hmiddle hrun').2
          (by
            rintro slot rfl hmem
            exact hlate _ slot middle hlater hmiddle hmem)
        exact (ih middle ((List.prefix_append _ _).trans hlater) hmiddle).trans
          (hstep commitment)

/-- The confirmed statuses of slots 6 and 5, the later one first. -/
def lateConfirmed : List GeyserMessage :=
  [.slot (.bare 5 4 1 1), .slot (.bare 6 5 2 2), .status 6 .confirmed,
    .status 5 .confirmed]

/-- Both statuses get through, and `getSlot` at confirmed goes from 6 back
to 5. -/
theorem getSlot_goes_back :
    forwarded lateConfirmed = lateConfirmed ∧
    (LoopState.runUpdateLoop (lateConfirmed.take 3) >>= fun state =>
        state.onRequest (.slot none .null .confirmed none)) =
      .ok (createSuccess none .null (.slot 6)) ∧
    (LoopState.runUpdateLoop lateConfirmed >>= fun state =>
        state.onRequest (.slot none .null .confirmed none)) =
      .ok (createSuccess none .null (.slot 5)) := by
  decide

end Solfees.SlotOrder
