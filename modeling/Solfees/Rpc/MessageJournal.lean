import Solfees.Core.Journal
import Solfees.Rpc.SnapshotReplay
import Solfees.Rpc.WellOrdered

/-!
# The stores and the journal of the messages

The journal of a message sequence keeps, for every slot ever pushed, the latest
block and the latest status received after it.  Both stores of the update loop
show a part of it: the recent slots are its 150 greatest, and the blockhash
storage what the eviction has left.
-/

namespace Solfees.MessageJournal

open Solfees.Draining
open Solfees.Eviction
open Solfees.Fees
open Solfees.Journal
open Solfees.LatestBlockhash
open Solfees.Message
open Solfees.Run
open Solfees.SnapshotReplay
open Solfees.UpdateLoop
open Solfees.WellOrdered
open Solfees.Window

/-- Every slot pushed, with its latest block and the latest status since. -/
def messageJournal (messages : List GeyserMessage) : OrderedMap Slot StreamsSlotInfo :=
  journal StreamsSlotInfo.setCommitment (messages.map toUpdate)

/-- What the blockhash storage keeps of a slot. -/
def blockhashOf (info : StreamsSlotInfo) : LatestBlockhashSlot :=
  ⟨info.hash, info.height, info.commitment⟩

theorem messageJournal_concat (before : List GeyserMessage)
    (message : GeyserMessage) :
    messageJournal (before ++ [message]) =
      applyFull StreamsSlotInfo.setCommitment (messageJournal before)
        (toUpdate message) := by
  rw [messageJournal, List.map_append, List.map_singleton, journal_concat]
  rfl

/-! ## The two stores -/

/-- Both stores hold what the journal says. -/
structure StoresShow (messages : List GeyserMessage) (state : LoopState) : Prop where
  slotsInfo : state.slotsInfo =
    keepGreatest maxNumRecentSlotInfo (messageJournal messages)
  storage : Shows blockhashOf state.latestBlockhashStorage.slots
    (messageJournal messages)

theorem StoresShow.recent {messages : List GeyserMessage} {state : LoopState}
    (h : StoresShow messages state) :
    Shows id state.slotsInfo (messageJournal messages) := by
  apply (shows_refl _).of_upper
  rw [h.slotsInfo]
  exact keepGreatest_isUpper _ _

theorem StoresShow.step {before : List GeyserMessage} {state next : LoopState}
    {message : GeyserMessage} (h : StoresShow before state)
    (hstepped : Stepped state message next) :
    StoresShow (before ++ [message]) next := by
  constructor
  · rw [messageJournal_concat, keepGreatest_applyFull, ← h.slotsInfo]
    cases hstepped with
    | slot block => rfl
    | status slot commitment hevicted => rfl
  · rw [messageJournal_concat]
    cases hstepped with
    | slot block => exact h.storage.insert block.slot (infoOf block)
    | status slot commitment hevicted =>
        apply Shows.of_upper hevicted.upper
        rw [recordCommitment_slots]
        exact h.storage.modify slot fun _ => rfl

/-- The stores show the journal after every sequence of messages. -/
theorem storesShow_of_run {messages : List GeyserMessage} {state : LoopState}
    (hrun : LoopState.runUpdateLoop messages = .ok state) :
    state.latestBlockhashStorage.finalizedTotal ≤ finalizedMax ∧
      StoresShow messages state :=
  invariant_of_run StoresShow ⟨(keepGreatest_empty _).symm, shows_empty _ _⟩
    (fun _ _ _ _ _ _ hinv hstepped => hinv.step hstepped) (admitted_true messages) hrun

/-- The step from one state of the update loop to the next. -/
theorem stepped_of_run {before : List GeyserMessage} {message : GeyserMessage}
    {state next : LoopState} (hrun : LoopState.runUpdateLoop before = .ok state)
    (hnext : LoopState.runUpdateLoop (before ++ [message]) = .ok next) :
    Stepped state message next := by
  apply stepped_of_onMessage (storesShow_of_run hrun).1
  exact (run_concat_of_ok hrun message).symm.trans hnext

/-! ## What the journal holds -/

/-- The journal has an entry for every slot whose block was received. -/
theorem mem_messageJournal {messages : List GeyserMessage} {slot : Slot} :
    slot ∈ messageJournal messages ↔ HasBlock messages slot := by
  rw [messageJournal, mem_journal]
  constructor
  · rintro ⟨info, hmem⟩
    obtain ⟨message, hmessage, hupdate⟩ := List.mem_map.1 hmem
    cases message with
    | slot block => exact ⟨block, hmessage, (Update.put.inj hupdate).1⟩
    | status target commitment => simp [toUpdate] at hupdate
  · rintro ⟨block, hmem, rfl⟩
    exact ⟨infoOf block, List.mem_map.2 ⟨_, hmem, rfl⟩⟩

/-- The levels of the statuses of a slot, oldest first. -/
def statusesOf (slot : Slot) (messages : List GeyserMessage) : List CommitmentLevel :=
  messages.filterMap fun
    | .status target commitment => if target = slot then some commitment else none
    | .slot _ => none

theorem marks_toUpdate (slot : Slot) (messages : List GeyserMessage) :
    marks slot (messages.map toUpdate) = statusesOf slot messages := by
  rw [marks, List.filterMap_map, statusesOf]
  congr 1
  funext message
  cases message <;> rfl

/-- What the update loop knows of a slot from its latest block and the messages
received since. -/
def infoSince (block : Block) (since : List GeyserMessage) : StreamsSlotInfo :=
  (infoOf block).setCommitment ((statusesOf block.slot since).getLast?.getD .processed)

/-- An entry of the journal is the latest block of its slot, with the latest
status received after it. -/
theorem exists_latest_block {messages : List GeyserMessage} {slot : Slot}
    {info : StreamsSlotInfo} (hget : (messageJournal messages)[slot]? = some info) :
    ∃ before block since, messages = before ++ .slot block :: since ∧
      block.slot = slot ∧ ¬ HasBlock since slot ∧ info = infoSince block since := by
  have hmark (commitment commitment' : CommitmentLevel) (info : StreamsSlotInfo) :
      (info.setCommitment commitment').setCommitment commitment =
        info.setCommitment commitment := rfl
  obtain ⟨front, put, back, hsplit, hsince, rfl⟩ := exists_last_put hmark hget
  obtain ⟨before, rest, rfl, rfl, hrest⟩ := List.map_eq_append_iff.1 hsplit
  obtain ⟨message, since, rfl, hmessage, rfl⟩ := List.map_eq_cons_iff.1 hrest
  cases message with
  | status target commitment => simp [toUpdate] at hmessage
  | slot block =>
      obtain ⟨rfl, rfl⟩ := Update.put.inj hmessage
      refine ⟨before, block, since, rfl, rfl, ?_, ?_⟩
      · rintro ⟨other, hmem, heq⟩
        refine hsince (infoOf other) (List.mem_map.2 ⟨_, hmem, ?_⟩)
        rw [toUpdate, heq]
      · rw [marks_toUpdate, relabel, infoSince]
        cases (statusesOf block.slot since).getLast? <;> rfl

end Solfees.MessageJournal
