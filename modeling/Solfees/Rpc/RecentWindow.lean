import Solfees.Rpc.MessageJournal

/-!
# The window of recent fees

`getRecentPrioritizationFees` answers from the recent slots.  They are the 150
greatest of all slots whose block was received, in whatever order, each as its
latest block and the statuses since have left it.
-/

namespace Solfees.RecentWindow

open Std (ExtTreeMap)
open Solfees.Draining
open Solfees.Eviction
open Solfees.Fees
open Solfees.Journal
open Solfees.Json
open Solfees.Message
open Solfees.MessageJournal
open Solfees.UpdateLoop
open Solfees.WellOrdered

/-- The distinct slots whose block was received. -/
def pushedSlots (messages : List GeyserMessage) : Finset Slot :=
  (messages.filterMap fun
    | .slot block => some block.slot
    | .status _ _ => none).toFinset

theorem mem_pushedSlots {messages : List GeyserMessage} {slot : Slot} :
    slot ∈ pushedSlots messages ↔ HasBlock messages slot := by
  rw [pushedSlots, List.mem_toFinset, List.mem_filterMap]
  constructor
  · rintro ⟨message, hmem, hslot⟩
    cases message with
    | slot block => exact ⟨block, hmem, Option.some.inj hslot⟩
    | status target commitment => simp at hslot
  · rintro ⟨block, hmem, rfl⟩
    exact ⟨_, hmem, rfl⟩

theorem keySet_messageJournal (messages : List GeyserMessage) :
    keySet (messageJournal messages) = pushedSlots messages := by
  ext slot
  rw [mem_keySet, mem_messageJournal, mem_pushedSlots]

/-- The recent slots are the greatest of the pushed ones. -/
theorem keySet_slotsInfo {messages : List GeyserMessage} {state : LoopState}
    (hshow : StoresShow messages state) :
    keySet state.slotsInfo = newest maxNumRecentSlotInfo (pushedSlots messages) := by
  rw [hshow.slotsInfo, keySet_keepGreatest, keySet_messageJournal]

/-- The slots of the answer, in order. -/
theorem slots_recentPrioritizationFees (state : LoopState) (pubkeys : List Pubkey)
    (percentile : Option UInt16) :
    (state.recentPrioritizationFees pubkeys percentile).map (·.slot) =
      (keySet state.slotsInfo).sort (· ≤ ·) := by
  rw [LoopState.recentPrioritizationFees, List.map_map, ← keys_eq_sort,
    ← ExtTreeMap.map_fst_toList_eq_keys]
  rfl

/-- Each entry of the answer is the fee of its slot. -/
theorem mem_recentPrioritizationFees {state : LoopState} {pubkeys : List Pubkey}
    {percentile : Option UInt16} {fee : RpcPrioritizationFee} :
    fee ∈ state.recentPrioritizationFees pubkeys percentile ↔
      ∃ info, state.slotsInfo[fee.slot]? = some info ∧
        fee.prioritizationFee = info.fees.getFee pubkeys percentile := by
  rw [LoopState.recentPrioritizationFees, List.mem_map]
  constructor
  · rintro ⟨⟨slot, info⟩, hmem, rfl⟩
    exact ⟨info, ExtTreeMap.mem_toList_iff_getElem?_eq_some.1 hmem, rfl⟩
  · rintro ⟨info, hget, hfee⟩
    refine ⟨(fee.slot, info), ExtTreeMap.mem_toList_iff_getElem?_eq_some.2 hget, ?_⟩
    rw [← hfee]

/-- After every sequence of messages the recent slots are the `min 150 d`
greatest of the `d` slots pushed, each with its latest block and the latest
status received since, and `getRecentPrioritizationFees` answers one entry for
each, in increasing order. -/
theorem recent_window (messages : List GeyserMessage) :
    ∃ state, LoopState.runUpdateLoop messages = .ok state ∧
      keySet state.slotsInfo = newest 150 (pushedSlots messages) ∧
      state.slotsInfo.size = min 150 (pushedSlots messages).card ∧
      (∀ (slot : Slot) (info : StreamsSlotInfo), state.slotsInfo[slot]? = some info →
        ∃ before block since, messages = before ++ .slot block :: since ∧
          block.slot = slot ∧ ¬ HasBlock since slot ∧ info = infoSince block since) ∧
      ∀ jsonrpc id pubkeys percentile, ∃ fees,
        state.onRequest (.recentPrioritizationFees jsonrpc id pubkeys percentile) =
          .ok (createSuccess jsonrpc id (.recentPrioritizationFees fees)) ∧
        fees.map (·.slot) = (newest 150 (pushedSlots messages)).sort (· ≤ ·) ∧
        (fees.map (·.slot)).Pairwise (· < ·) ∧
        ∀ fee ∈ fees, ∃ info, state.slotsInfo[fee.slot]? = some info ∧
          fee.prioritizationFee = info.fees.getFee pubkeys percentile := by
  obtain ⟨state, hrun, -⟩ := runUpdateLoop_ok messages
  have hshow := (storesShow_of_run hrun).2
  have hkeys := keySet_slotsInfo hshow
  refine ⟨state, hrun, hkeys, ?_, ?_, ?_⟩
  · rw [← card_keySet, hkeys, ← keySet_messageJournal]
    exact card_newest_keySet _ _
  · intro slot info hget
    obtain ⟨info, hinfo, rfl⟩ := hshow.recent slot info hget
    exact exists_latest_block hinfo
  · intro jsonrpc id pubkeys percentile
    have hslots := slots_recentPrioritizationFees state pubkeys percentile
    rw [hkeys] at hslots
    refine ⟨_, rfl, hslots, ?_, fun fee hmem => mem_recentPrioritizationFees.1 hmem⟩
    rw [hslots]
    exact (Finset.sortedLT_sort _).pairwise

end Solfees.RecentWindow
