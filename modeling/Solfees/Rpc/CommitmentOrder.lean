import Solfees.Rpc.FinalizedCounter
import Solfees.Rpc.MessageJournal

/-!
# The order of a slot's commitments

A status overwrites the commitment of its slot and a block puts it back to
processed, whatever was recorded before.  So the commitment of a stored slot is
the level of the last message about it, and it goes backwards exactly when a
message about a stored slot is of a lower level than the one before.
-/

namespace Solfees.CommitmentOrder

open Std (ExtTreeMap)
open Solfees.Draining
open Solfees.Eviction
open Solfees.Fees
open Solfees.FinalizedCounter
open Solfees.LatestBlockhash
open Solfees.Message
open Solfees.MessageJournal
open Solfees.Run
open Solfees.SnapshotReplay
open Solfees.UpdateLoop
open Solfees.WellOrdered
open Solfees.Window

/-- The place of a level in the order of the commitments. -/
def rank : CommitmentLevel → ℕ
  | .processed => 0
  | .confirmed => 1
  | .finalized => 2

theorem rank_le_finalized (commitment : CommitmentLevel) :
    rank commitment ≤ rank .finalized := by
  cases commitment <;> decide

/-- The level at which a message leaves its slot; a block is processed. -/
def levelOf (message : GeyserMessage) : CommitmentLevel :=
  message.commitmentOf.getD .processed

/-- The last message about a slot. -/
def lastMessage (slot : Slot) (messages : List GeyserMessage) : Option GeyserMessage :=
  (messages.filter fun message => decide (message.slotOf = slot)).getLast?

/-- The commitment of a slot in `slots_info`. -/
def recentLevel (state : LoopState) (slot : Slot) : Option CommitmentLevel :=
  state.slotsInfo[slot]?.map (·.commitment)

/-- The commitment of a slot in the blockhash storage. -/
def storageLevel (state : LoopState) (slot : Slot) : Option CommitmentLevel :=
  state.latestBlockhashStorage.slots[slot]?.map (·.commitment)

/-- No slot that has a commitment before and after has a lower one after. -/
def Rises (before after : Slot → Option CommitmentLevel) : Prop :=
  ∀ slot commitment commitment', before slot = some commitment →
    after slot = some commitment' → rank commitment ≤ rank commitment'

/-- In neither store does the commitment of a slot go backwards. -/
structure Advances (state next : LoopState) : Prop where
  recent : Rises (recentLevel state) (recentLevel next)
  storage : Rises (storageLevel state) (storageLevel next)

/-- The slot is in one of the stores. -/
def Stored (state : LoopState) (slot : Slot) : Prop :=
  slot ∈ state.slotsInfo ∨ slot ∈ state.latestBlockhashStorage.slots

/-- The message is of no lower level than the last one about its slot. -/
def Follows (before : List GeyserMessage) (message : GeyserMessage) : Prop :=
  ∀ earlier, lastMessage message.slotOf before = some earlier →
    rank (levelOf earlier) ≤ rank (levelOf message)

/-! ## The commitment of a slot is the level of its last message -/

theorem lastMessage_concat (slot : Slot) (before : List GeyserMessage)
    (message : GeyserMessage) :
    lastMessage slot (before ++ [message]) =
      if message.slotOf = slot then some message else lastMessage slot before := by
  rw [lastMessage, List.filter_append]
  by_cases hslot : message.slotOf = slot
  · simp [hslot]
  · simp [hslot, lastMessage]

theorem commitment_of_journal {messages : List GeyserMessage} {slot : Slot}
    {info : StreamsSlotInfo} (hget : (messageJournal messages)[slot]? = some info) :
    ∃ last, lastMessage slot messages = some last ∧ info.commitment = levelOf last := by
  induction messages using List.reverseRecOn generalizing info with
  | nil => simp [messageJournal, Journal.journal] at hget
  | append_singleton before message ih =>
      rw [messageJournal_concat] at hget
      rw [lastMessage_concat]
      cases message with
      | slot block =>
          rw [toUpdate, applyFull, getElem?_insert] at hget
          by_cases hslot : block.slot = slot
          · rw [if_pos hslot] at hget
            refine ⟨_, if_pos hslot, ?_⟩
            rw [← Option.some.inj hget]
            rfl
          · rw [if_neg hslot] at hget
            rw [GeyserMessage.slotOf, if_neg hslot]
            exact ih hget
      | status target commitment =>
          rw [toUpdate, applyFull, getElem?_modify] at hget
          by_cases hslot : target = slot
          · rw [if_pos hslot] at hget
            obtain ⟨old, -, rfl⟩ := Option.map_eq_some_iff.1 hget
            exact ⟨_, if_pos hslot, rfl⟩
          · rw [if_neg hslot] at hget
            rw [GeyserMessage.slotOf, if_neg hslot]
            exact ih hget

/-- Every commitment is the level of the last message about its slot. -/
def FromLast (messages : List GeyserMessage) (level : Slot → Option CommitmentLevel) :
    Prop :=
  ∀ slot commitment, level slot = some commitment →
    ∃ last, lastMessage slot messages = some last ∧ commitment = levelOf last

theorem recentLevel_fromLast {messages : List GeyserMessage} {state : LoopState}
    (h : StoresShow messages state) : FromLast messages (recentLevel state) := by
  intro slot commitment hlevel
  obtain ⟨info, hinfo, rfl⟩ := Option.map_eq_some_iff.1 hlevel
  obtain ⟨info, hjournal, rfl⟩ := h.recent slot info hinfo
  exact commitment_of_journal hjournal

theorem storageLevel_fromLast {messages : List GeyserMessage} {state : LoopState}
    (h : StoresShow messages state) : FromLast messages (storageLevel state) := by
  intro slot commitment hlevel
  obtain ⟨value, hvalue, rfl⟩ := Option.map_eq_some_iff.1 hlevel
  obtain ⟨info, hjournal, rfl⟩ := h.storage slot value hvalue
  exact commitment_of_journal hjournal

/-! ## One message -/

section Step

variable {before : List GeyserMessage} {message : GeyserMessage}

/-- Commitments that follow the last messages rise with one more message exactly
when it follows the last message about its slot, or its slot has no commitment. -/
theorem rises_iff {level level' : Slot → Option CommitmentLevel}
    (hlevel : FromLast before level) (hlevel' : FromLast (before ++ [message]) level')
    (hstays : (level message.slotOf).isSome → levelOf message ≠ .finalized →
      (level' message.slotOf).isSome) :
    Rises level level' ↔ ((level message.slotOf).isSome → Follows before message) := by
  constructor
  · intro hrises hstored earlier hearlier
    by_cases hfinalized : levelOf message = .finalized
    · rw [hfinalized]
      exact rank_le_finalized _
    · obtain ⟨commitment, hget⟩ := Option.isSome_iff_exists.1 hstored
      obtain ⟨commitment', hget'⟩ :=
        Option.isSome_iff_exists.1 (hstays hstored hfinalized)
      have hle := hrises _ _ _ hget hget'
      obtain ⟨last, hlast, rfl⟩ := hlevel _ _ hget
      obtain ⟨last', hlast', rfl⟩ := hlevel' _ _ hget'
      rw [lastMessage_concat, if_pos rfl] at hlast'
      rwa [← Option.some.inj (hlast.symm.trans hearlier), Option.some.inj hlast']
  · intro hfollows slot commitment commitment' hget hget'
    obtain ⟨last, hlast, rfl⟩ := hlevel _ _ hget
    obtain ⟨last', hlast', rfl⟩ := hlevel' _ _ hget'
    rw [lastMessage_concat] at hlast'
    by_cases hslot : message.slotOf = slot
    · subst hslot
      rw [if_pos rfl] at hlast'
      rw [← Option.some.inj hlast']
      exact hfollows (Option.isSome_of_eq_some hget) last hlast
    · rw [if_neg hslot] at hlast'
      rw [Option.some.inj (hlast.symm.trans hlast')]

variable {state next : LoopState}

/-- A slot of the window keeps its place when a message about it arrives. -/
theorem mem_slotsInfo_of_stepped (hshow : StoresShow before state)
    (hstepped : Stepped state message next) (hmem : message.slotOf ∈ state.slotsInfo) :
    message.slotOf ∈ next.slotsInfo := by
  cases hstepped with
  | status slot commitment hevicted => exact ExtTreeMap.mem_modify.2 hmem
  | slot block =>
      change block.slot ∈ state.slotsInfo at hmem
      -- the window does not grow, so nothing is popped
      have hfull : (state.slotsInfo.insert block.slot (infoOf block)).size ≤
          maxNumRecentSlotInfo := by
        rw [size_insert, if_pos hmem, hshow.slotsInfo, size_keepGreatest]
        exact min_le_left _ _
      have hkeep := eq_keepGreatest (IsUpper.refl _) (min_eq_right hfull).symm
      show block.slot ∈ keepGreatest _ _
      rw [← hkeep]
      exact mem_insert.2 (Or.inl rfl)

/-- A block of the storage stays when a message about it arrives, unless that is
a finalized status. -/
theorem mem_storage_of_stepped
    (htotal : state.latestBlockhashStorage.finalizedTotal ≤ finalizedMax)
    (hstepped : Stepped state message next) (hlevel : levelOf message ≠ .finalized)
    (hmem : message.slotOf ∈ state.latestBlockhashStorage.slots) :
    message.slotOf ∈ next.latestBlockhashStorage.slots := by
  cases hstepped with
  | slot block => exact mem_insert.2 (Or.inr hmem)
  | status slot commitment hevicted =>
      obtain rfl := hevicted.eq_of_ne_finalized htotal hlevel
      exact (mem_recordCommitment_slots _ _ _ _).2 hmem

theorem isSome_recentLevel (state : LoopState) (slot : Slot) :
    (recentLevel state slot).isSome ↔ slot ∈ state.slotsInfo := by
  rw [recentLevel, Option.isSome_map, ExtTreeMap.mem_iff_isSome_getElem?]

theorem isSome_storageLevel (state : LoopState) (slot : Slot) :
    (storageLevel state slot).isSome ↔ slot ∈ state.latestBlockhashStorage.slots := by
  rw [storageLevel, Option.isSome_map, ExtTreeMap.mem_iff_isSome_getElem?]

/-- No commitment goes backwards with a message exactly when it follows the last
message about its slot, or its slot is not stored. -/
theorem advances_iff
    (htotal : state.latestBlockhashStorage.finalizedTotal ≤ finalizedMax)
    (hshow : StoresShow before state) (hstepped : Stepped state message next) :
    Advances state next ↔ (Stored state message.slotOf → Follows before message) := by
  have hshow' := hshow.step hstepped
  have hrecent : Rises (recentLevel state) (recentLevel next) ↔
      (message.slotOf ∈ state.slotsInfo → Follows before message) := by
    rw [← isSome_recentLevel]
    apply rises_iff (recentLevel_fromLast hshow) (recentLevel_fromLast hshow')
    intro hstored _
    rw [isSome_recentLevel] at hstored ⊢
    exact mem_slotsInfo_of_stepped hshow hstepped hstored
  have hstorage : Rises (storageLevel state) (storageLevel next) ↔
      (message.slotOf ∈ state.latestBlockhashStorage.slots →
        Follows before message) := by
    rw [← isSome_storageLevel]
    apply rises_iff (storageLevel_fromLast hshow) (storageLevel_fromLast hshow')
    intro hstored hlevel
    rw [isSome_storageLevel] at hstored ⊢
    exact mem_storage_of_stepped htotal hstepped hlevel hstored
  calc Advances state next
      ↔ Rises (recentLevel state) (recentLevel next) ∧
          Rises (storageLevel state) (storageLevel next) :=
        ⟨fun h => ⟨h.recent, h.storage⟩, fun h => ⟨h.1, h.2⟩⟩
    _ ↔ (Stored state message.slotOf → Follows before message) := by
        rw [hrecent, hstorage, Stored, or_imp]

end Step

/-- Along what the deduplication lets through, no commitment goes backwards
exactly when every message about a stored slot follows the last message about
it. -/
theorem commitment_advances_iff (messages : List GeyserMessage) :
    (∀ before message state next, before ++ [message] <+: forwarded messages →
        LoopState.runUpdateLoop before = .ok state →
        LoopState.runUpdateLoop (before ++ [message]) = .ok next →
        Advances state next) ↔
      ∀ before message state, before ++ [message] <+: forwarded messages →
        LoopState.runUpdateLoop before = .ok state →
        Stored state message.slotOf → Follows before message := by
  constructor
  · intro hadvances before message state hpre hrun
    obtain ⟨next, hnext, -⟩ := runUpdateLoop_ok (before ++ [message])
    obtain ⟨htotal, hshow⟩ := storesShow_of_run hrun
    rw [← advances_iff htotal hshow (stepped_of_run hrun hnext)]
    exact hadvances before message state next hpre hrun hnext
  · intro hfollows before message state next hpre hrun hnext
    obtain ⟨htotal, hshow⟩ := storesShow_of_run hrun
    rw [advances_iff htotal hshow (stepped_of_run hrun hnext)]
    exact hfollows before message state hpre hrun

/-- The confirmed status of slot 5 overtakes its processed one. -/
def lateProcessed : List GeyserMessage :=
  [.slot (.bare 5 4 1 1), .status 5 .confirmed, .status 5 .processed]

/-- Both statuses get through, and the second one takes slot 5 back from
confirmed to processed in both stores. -/
theorem commitment_goes_back :
    forwarded lateProcessed = lateProcessed ∧
    (LoopState.runUpdateLoop (lateProcessed.take 2)).map (fun state =>
        (recentLevel state 5, storageLevel state 5)) =
      .ok (some .confirmed, some .confirmed) ∧
    (LoopState.runUpdateLoop lateProcessed).map (fun state =>
        (recentLevel state 5, storageLevel state 5)) =
      .ok (some .processed, some .processed) := by
  decide

end Solfees.CommitmentOrder
