import Solfees.Rpc.MessageJournal

/-!
# The two stores agree

The recent slots and the blockhash storage are written by separate code and
evict by different rules, but both show a part of one journal.  On an ordered
sequence the storage also contains every recent slot: what it has evicted lies
below 310 finalized blocks, and a recent slot has fewer than 150 above it.
-/

namespace Solfees.StoreAgreement

open Solfees.Draining
open Solfees.Eviction
open Solfees.Fees
open Solfees.Journal
open Solfees.LatestBlockhash
open Solfees.Message
open Solfees.MessageJournal
open Solfees.Run
open Solfees.UpdateLoop
open Solfees.WellOrdered

/-! ## Nothing is evicted before the counter is at its bound -/

/-- A block that has been received and is not stored means that the counter is
at its bound. -/
def FullOnceEvicted (before : List GeyserMessage) (storage : LatestBlockhashStorage) :
    Prop :=
  ∀ slot, HasBlock before slot → slot ∉ storage.slots →
    storage.finalizedTotal = finalizedMax

theorem fullOnceEvicted_step {before : List GeyserMessage} {state next : LoopState}
    {message : GeyserMessage}
    (h : FullOnceEvicted before state.latestBlockhashStorage)
    (hstepped : Stepped state message next) :
    FullOnceEvicted (before ++ [message]) next.latestBlockhashStorage := by
  cases hstepped with
  | slot block =>
      intro slot hblock hslot
      rw [LatestBlockhashStorage.pushBlock, mem_insert, not_or] at hslot
      exact h slot ((hasBlock_concat_slot.1 hblock).resolve_right (Ne.symm hslot.1))
        hslot.2
  | status target commitment hevicted =>
      intro slot hblock hslot
      rw [hasBlock_concat_status] at hblock
      have hrecord := recordCommitment_finalizedTotal state.latestBlockhashStorage
        target commitment
      have hbound := hevicted.total
      dsimp only at hslot ⊢
      by_cases hlow : (state.latestBlockhashStorage.recordCommitment target
          commitment).finalizedTotal ≤ finalizedMax
      · obtain rfl := hevicted.unchanged hlow
        rw [mem_recordCommitment_slots] at hslot
        have hfull := h slot hblock hslot
        split at hrecord <;> omega
      · omega

/-! ## Counting the blocks above a recent slot -/

/-- An evicted slot lies below every finalized block that is stored. -/
theorem finalizedEntries_le_above {messages : List GeyserMessage} {state : LoopState}
    (hshow : StoresShow messages state)
    (hstore : OrderedStore messages state.latestBlockhashStorage) {slot : Slot}
    (hblock : HasBlock messages slot)
    (hslot : slot ∉ state.latestBlockhashStorage.slots) :
    finalizedEntries state.latestBlockhashStorage ≤
      ((keySet (messageJournal messages)).filter (slot < ·)).card := by
  apply countWhere_le_card
  intro kept value hget hvalue
  have hkept := mem_of_getElem? hget
  have hfinalized : .status kept .finalized ∈ messages :=
    (hstore.finalized kept value hget).1 (by simpa [isFinalized] using hvalue)
  rw [Finset.mem_filter, mem_keySet]
  exact ⟨hshow.storage.mem hkept,
    (hstore.evicted slot hblock hslot).2 kept hkept hfinalized⟩

/-- A recent slot has not been evicted from the storage. -/
theorem mem_storage_of_recent {messages : List GeyserMessage} {state : LoopState}
    (hshow : StoresShow messages state)
    (hstore : OrderedStore messages state.latestBlockhashStorage)
    (hfull : FullOnceEvicted messages state.latestBlockhashStorage) {slot : Slot}
    (hrecent : slot ∈ state.slotsInfo) : slot ∈ state.latestBlockhashStorage.slots := by
  by_contra hslot
  have hblock := mem_messageJournal.1 (hshow.recent.mem hrecent)
  have hnewest : slot ∈ newest maxNumRecentSlotInfo (keySet (messageJournal messages)) := by
    rw [← keySet_keepGreatest, ← hshow.slotsInfo]
    exact mem_keySet.2 hrecent
  have hcount : finalizedMax < maxNumRecentSlotInfo := calc
    finalizedMax = state.latestBlockhashStorage.finalizedTotal :=
      (hfull slot hblock hslot).symm
    _ = finalizedEntries state.latestBlockhashStorage := hstore.entries
    _ ≤ ((keySet (messageJournal messages)).filter (slot < ·)).card :=
      finalizedEntries_le_above hshow hstore hblock hslot
    _ < maxNumRecentSlotInfo := (Finset.mem_filter.1 hnewest).2
  exact absurd hcount (by decide)

/-! ## Both stores after a run -/

theorem fullOnceEvicted_of_run {messages : List GeyserMessage} {state : LoopState}
    (hrun : LoopState.runUpdateLoop messages = .ok state) :
    FullOnceEvicted messages state.latestBlockhashStorage :=
  (invariant_of_run
    (fun before state => FullOnceEvicted before state.latestBlockhashStorage)
    (fun slot hblock => by simp [HasBlock] at hblock)
    (fun _ _ _ _ _ _ hinv hstepped => fullOnceEvicted_step hinv hstepped)
    (admitted_true messages) hrun).2

theorem orderedStore_of_run {messages : List GeyserMessage}
    (hordered : Admitted ordered messages) {state : LoopState}
    (hrun : LoopState.runUpdateLoop messages = .ok state) :
    OrderedStore messages state.latestBlockhashStorage :=
  (invariant_of_run
    (fun before state => OrderedStore before state.latestBlockhashStorage)
    OrderedStore.empty
    (fun _ _ _ _ hadmitted _ hinv hstepped =>
      orderedStore_step hadmitted hinv hstepped) hordered hrun).2

/-- After every sequence of messages the two stores agree on the slots they
share, and on an ordered sequence the storage has every recent slot. -/
theorem stores_agree (messages : List GeyserMessage) :
    ∃ state, LoopState.runUpdateLoop messages = .ok state ∧
      (∀ (slot : Slot) (info : StreamsSlotInfo) (value : LatestBlockhashSlot),
        state.slotsInfo[slot]? = some info →
        state.latestBlockhashStorage.slots[slot]? = some value →
        info.hash = value.hash ∧ info.height = value.height ∧
          info.commitment = value.commitment) ∧
      (Admitted ordered messages → ∀ slot ∈ state.slotsInfo,
        slot ∈ state.latestBlockhashStorage.slots) := by
  obtain ⟨state, hrun, -⟩ := runUpdateLoop_ok messages
  have hshow := (storesShow_of_run hrun).2
  refine ⟨state, hrun, ?_, fun hordered slot hrecent => ?_⟩
  · intro slot info value hinfo hvalue
    obtain ⟨info, rfl, rfl⟩ := hshow.recent.agree hshow.storage hinfo hvalue
    exact ⟨rfl, rfl, rfl⟩
  · exact mem_storage_of_recent hshow (orderedStore_of_run hordered hrun)
      (fullOnceEvicted_of_run hrun) hrecent

/-- Two blocks, the first of them finalized. -/
def twoBlocks : List GeyserMessage :=
  [.slot (.bare 5 4 1 1), .slot (.bare 6 5 2 2), .status 5 .confirmed,
    .status 5 .finalized]

theorem stores_agree_twoBlocks :
    ∃ state, LoopState.runUpdateLoop twoBlocks = .ok state ∧
      ∀ slot ∈ state.slotsInfo, slot ∈ state.latestBlockhashStorage.slots := by
  have hordered : Admitted ordered twoBlocks := by
    change Admitted ordered ([] ++ [_] ++ [_] ++ [_] ++ [_])
    refine ((((admitted_nil _).concat ?_).concat ?_).concat ?_).concat ?_
    all_goals simp [ordered, HasBlock, Above, Block.bare]
  obtain ⟨state, hrun, -, hincluded⟩ := stores_agree twoBlocks
  exact ⟨state, hrun, hincluded hordered⟩

end Solfees.StoreAgreement
