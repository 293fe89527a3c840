import Solfees.Rpc.Eviction

/-!
# Snapshots and updates agree

A frontend client takes a snapshot of the slots and applies the updates it is
sent, some of which the snapshot already contains.  The stored slots are the
window of everything the updates ever put, so the client ends with the
snapshot of the last moment.
-/

namespace Solfees.SnapshotReplay

open Std (ExtTreeMap)
open Solfees.Draining
open Solfees.Eviction
open Solfees.Fees
open Solfees.Json
open Solfees.Message
open Solfees.Run
open Solfees.UpdateLoop
open Solfees.Window

/-! ## The client -/

/-- What a client keeps: the outputs by slot. -/
abbrev ClientSlots := OrderedMap Slot SlotOutput

/-- The slots of a snapshot. -/
def clientOfSnapshot (outputs : List SlotsSubscribeOutput) : ClientSlots :=
  ExtTreeMap.ofList (outputs.filterMap fun
    | .slot output => some (output.slot, output)
    | .status _ _ => none) compare

/-- `output.commitment = commitment`. -/
def setOutputCommitment (commitment : CommitmentLevel) (output : SlotOutput) :
    SlotOutput :=
  { output with commitment := commitment }

/-- A slot output inserts or replaces its slot, and the smallest slots past 150
are dropped; a status sets the commitment of its slot if it is present. -/
def applyOutput (slots : ClientSlots) : SlotsSubscribeOutput → ClientSlots
  | .slot output =>
      keepGreatest maxNumRecentSlotInfo (slots.insert output.slot output)
  | .status slot commitment =>
      slots.modify slot (setOutputCommitment commitment)

/-- The client's slots as a list of outputs, by slot. -/
def clientOutputs (slots : ClientSlots) : List SlotsSubscribeOutput :=
  slots.toList.map fun entry => .slot entry.2

/-! ## The update loop as a window -/

/-- What a message does to the recent slots. -/
def toUpdate : GeyserMessage → Update Slot StreamsSlotInfo CommitmentLevel
  | .status slot commitment => .mark slot commitment
  | .slot block => .put block.slot (infoOf block)

/-- What a message broadcasts. -/
def toStreamsUpdate : GeyserMessage → StreamsUpdateMessage
  | .status slot commitment => .status slot commitment
  | .slot block => .slot (infoOf block)

/-- The recent slots after the messages. -/
def recentSlots (messages : List GeyserMessage) : OrderedMap Slot StreamsSlotInfo :=
  (messages.map toUpdate).foldl
    (applyWindow maxNumRecentSlotInfo StreamsSlotInfo.setCommitment) ∅

theorem recentSlots_concat (before : List GeyserMessage) (message : GeyserMessage) :
    recentSlots (before ++ [message]) =
      applyWindow maxNumRecentSlotInfo StreamsSlotInfo.setCommitment
        (recentSlots before) (toUpdate message) := by
  simp [recentSlots]

/-- The stored slots are the window of the updates, and every message has been
broadcast. -/
theorem runUpdateLoop_recentSlots (messages : List GeyserMessage) :
    ∃ state, LoopState.runUpdateLoop messages = .ok state ∧
      state.slotsInfo = recentSlots messages ∧
      state.streams = messages.map toStreamsUpdate := by
  obtain ⟨state, hrun, -, hslots, hstreams⟩ := runUpdateLoop_invariant
    (fun before state => state.slotsInfo = recentSlots before ∧
      state.streams = before.map toStreamsUpdate)
    ⟨rfl, rfl⟩
    (by
      rintro before state message next _ _ ⟨hslots, hstreams⟩ hstepped
      rw [recentSlots_concat, ← hslots, List.map_append, ← hstreams]
      cases hstepped with
      | slot block => exact ⟨rfl, rfl⟩
      | status slot commitment hevicted => exact ⟨rfl, rfl⟩)
    (admitted_true messages)
  exact ⟨state, hrun, hslots, hstreams⟩

/-- Applying a part of the messages again changes nothing. -/
theorem recentSlots_replay (before overlap after : List GeyserMessage) :
    ((overlap ++ after).map toUpdate).foldl
        (applyWindow maxNumRecentSlotInfo StreamsSlotInfo.setCommitment)
        (recentSlots (before ++ overlap)) =
      recentSlots (before ++ overlap ++ after) := by
  simp only [recentSlots, List.map_append]
  have hmark (commitment commitment' : CommitmentLevel) (info : StreamsSlotInfo) :
      (info.setCommitment commitment').setCommitment commitment =
        info.setCommitment commitment := rfl
  exact replay_converges maxNumRecentSlotInfo hmark (before.map toUpdate)
    (overlap.map toUpdate) (after.map toUpdate)

/-- Every slot is stored under its own number. -/
theorem slot_of_recentSlots {messages : List GeyserMessage} {slot : Slot}
    {info : StreamsSlotInfo} (hget : (recentSlots messages)[slot]? = some info) :
    info.slot = slot := by
  induction messages using List.reverseRecOn generalizing info with
  | nil => simp [recentSlots] at hget
  | append_singleton before message ih =>
      rw [recentSlots_concat] at hget
      cases message with
      | slot block =>
          have hget := (keepGreatest_isUpper _ _).sub slot info hget
          rw [getElem?_insert] at hget
          split at hget
          · rename_i hslot
            rw [← hslot, ← Option.some.inj hget]
            rfl
          · exact ih hget
      | status target commitment =>
          rw [toUpdate, applyWindow, getElem?_modify] at hget
          split at hget
          · rename_i hslot
            subst slot
            obtain ⟨old, hold, rfl⟩ := Option.map_eq_some_iff.1 hget
            exact (ih hold : old.slot = target)
          · exact ih hget

/-! ## The client's view -/

section Filter

variable (filter : SlotSubscribeFilter)

/-- A message as the update a client with the filter applies. -/
def toOutputUpdate :
    Update Slot StreamsSlotInfo CommitmentLevel → Update Slot SlotOutput CommitmentLevel
  | .put slot info => .put slot (info.filteredOutput filter)
  | .mark slot commitment => .mark slot commitment

theorem applyOutput_renderUpdate (slots : ClientSlots) (message : GeyserMessage) :
    applyOutput slots (renderUpdate filter (toStreamsUpdate message)) =
      applyWindow maxNumRecentSlotInfo setOutputCommitment slots
        (toOutputUpdate filter (toUpdate message)) := by
  cases message <;> rfl

/-- The slots of a client that has seen everything. -/
def clientView (messages : List GeyserMessage) : ClientSlots :=
  (recentSlots messages).map fun _ info => info.filteredOutput filter

/-- A client with the view of `before` that applies the updates of `after`
reaches the window of both. -/
theorem foldl_applyOutput (before after : List GeyserMessage) :
    ((after.map toStreamsUpdate).map (renderUpdate filter)).foldl applyOutput
        (clientView filter before) =
      ((after.map toUpdate).foldl
        (applyWindow maxNumRecentSlotInfo StreamsSlotInfo.setCommitment)
        (recentSlots before)).map fun _ info => info.filteredOutput filter := by
  have hmark (commitment : CommitmentLevel) (info : StreamsSlotInfo) :
      (info.setCommitment commitment).filteredOutput filter =
        setOutputCommitment commitment (info.filteredOutput filter) := rfl
  rw [foldl_applyWindow_map maxNumRecentSlotInfo
    (fun info => info.filteredOutput filter) hmark (toOutputUpdate filter)
    (fun _ _ => rfl) (fun _ _ => rfl)]
  rw [List.foldl_map, List.foldl_map, List.foldl_map, List.foldl_map]
  congr 1
  funext slots message
  exact applyOutput_renderUpdate filter slots message

/-- The snapshot of a state is the view of the messages it has received. -/
theorem clientOfSnapshot_solfeesSlots {messages : List GeyserMessage}
    {state : LoopState} (hslots : state.slotsInfo = recentSlots messages) :
    clientOfSnapshot (state.solfeesSlots filter) = clientView filter messages := by
  rw [clientOfSnapshot, LoopState.solfeesSlots, hslots, List.filterMap_map, clientView]
  conv_rhs => rw [← ofList_toList ((recentSlots messages).map _), ExtTreeMap.toList_map]
  rw [← List.filterMap_eq_map]
  congr 1
  apply List.filterMap_congr
  rintro ⟨slot, info⟩ hmem
  have hslot := slot_of_recentSlots (ExtTreeMap.mem_toList_iff_getElem?_eq_some.1 hmem)
  simp [StreamsSlotInfo.getFiltered, StreamsSlotInfo.filteredOutput, hslot]

theorem clientOutputs_clientView {messages : List GeyserMessage}
    {state : LoopState} (hslots : state.slotsInfo = recentSlots messages) :
    clientOutputs (clientView filter messages) = state.solfeesSlots filter := by
  rw [clientOutputs, clientView, ExtTreeMap.toList_map, LoopState.solfeesSlots, hslots,
    List.map_map]
  rfl

end Filter

/-- A client that starts from the snapshot after `j` messages and applies the
updates from some earlier message on ends with the snapshot after all of
them. -/
theorem snapshot_replay_converges (messages : List GeyserMessage)
    (filter : SlotSubscribeFilter) {j k : ℕ} (hkj : k ≤ j) (hj : j ≤ messages.length)
    (jsonrpc : Option JsonrpcVersion) (id : JsonrpcId) :
    ∃ snapshot final earlier last,
      LoopState.runUpdateLoop (messages.take j) = .ok snapshot ∧
      snapshot.onRequest (.solfeesSlots jsonrpc id filter true) =
        .ok (createSuccess jsonrpc id (.solfeesSlotsFrontend earlier)) ∧
      LoopState.runUpdateLoop messages = .ok final ∧
      final.onRequest (.solfeesSlots jsonrpc id filter true) =
        .ok (createSuccess jsonrpc id (.solfeesSlotsFrontend last)) ∧
      final.streams.length = messages.length ∧
      clientOutputs (((final.streams.drop k).map (renderUpdate filter)).foldl
        applyOutput (clientOfSnapshot earlier)) = last := by
  obtain ⟨front, after, rfl, rfl⟩ :
      ∃ front after, messages = front ++ after ∧ front.length = j :=
    ⟨_, _, (List.take_append_drop j messages).symm, List.length_take_of_le hj⟩
  obtain ⟨before, overlap, rfl, rfl⟩ :
      ∃ before overlap, front = before ++ overlap ∧ before.length = k :=
    ⟨_, _, (List.take_append_drop k front).symm, List.length_take_of_le hkj⟩
  obtain ⟨snapshot, hsnapshot, hsnapshotSlots, -⟩ :=
    runUpdateLoop_recentSlots (before ++ overlap)
  obtain ⟨final, hfinal, hfinalSlots, hstreams⟩ :=
    runUpdateLoop_recentSlots (before ++ overlap ++ after)
  refine ⟨snapshot, final, snapshot.solfeesSlots filter, final.solfeesSlots filter,
    by rwa [List.take_left], rfl, hfinal, rfl, by rw [hstreams, List.length_map], ?_⟩
  rw [clientOfSnapshot_solfeesSlots filter hsnapshotSlots, hstreams, ← List.map_drop,
    List.append_assoc, List.drop_left, foldl_applyOutput, recentSlots_replay]
  exact clientOutputs_clientView filter hfinalSlots

/-- The update of the status is applied to a snapshot that contains it. -/
theorem snapshot_replay_converges_sample :
    ∃ snapshot final earlier last,
      LoopState.runUpdateLoop [.slot (.bare 5 4 1 1), .status 5 .confirmed] =
        .ok snapshot ∧
      snapshot.onRequest (.solfeesSlots none .null ⟨[], [], [5000]⟩ true) =
        .ok (createSuccess none .null (.solfeesSlotsFrontend earlier)) ∧
      LoopState.runUpdateLoop [.slot (.bare 5 4 1 1), .status 5 .confirmed,
        .slot (.bare 6 5 2 2)] = .ok final ∧
      final.onRequest (.solfeesSlots none .null ⟨[], [], [5000]⟩ true) =
        .ok (createSuccess none .null (.solfeesSlotsFrontend last)) ∧
      final.streams.length = 3 ∧
      clientOutputs (((final.streams.drop 1).map
        (renderUpdate ⟨[], [], [5000]⟩)).foldl applyOutput
          (clientOfSnapshot earlier)) = last :=
  snapshot_replay_converges [.slot (.bare 5 4 1 1), .status 5 .confirmed,
    .slot (.bare 6 5 2 2)] ⟨[], [], [5000]⟩ (show 1 ≤ 2 by decide)
    (show 2 ≤ 3 by decide) none .null

end Solfees.SnapshotReplay
