import Solfees.Geyser.Leaders

/-!
# The transactions of the blocks

Every transaction that the geyser task has collected for a slot, or sent in its block,
was decoded from an update of this slot.
-/

namespace Solfees.Collecting

open Solfees.Draining
open Solfees.Grouping
open Solfees.Leaders
open Solfees.Message
open Solfees.Run
open Solfees.Schedule
open Solfees.Stream
open Solfees.Transaction

variable {Raw : Type} {decoders : Decoders Raw}

/-- The transaction is decoded from what the update has for the slot. -/
def DecodedFrom (decoders : Decoders Raw) (item : StreamItem Raw) (slot : Slot)
    (tx : GeyserTransaction) : Prop :=
  ∃ raw decoded, item = some (.ok (some (.transaction slot (some raw)))) ∧
    decoders.createTxWithMeta raw = .ok (.complete decoded) ∧
    transactionFrom decoders.programIds decoders.deserializeBudget decoded
      (decoders.isVote raw) = .ok tx

/-- A status only drops what was collected. -/
theorem collected_of_onSlot {task : GeyserTask} {finalized slot : Slot} {status : ℤ}
    {transactions : List GeyserTransaction}
    (h : (task.onSlot finalized status).1.transactions[slot]? = some transactions) :
    task.transactions[slot]? = some transactions := by
  rw [GeyserTask.onSlot, popBelow_eq] at h
  split at h
  · exact h
  · split at h
    · dsimp only at h
      rw [getElem?_keepFrom] at h
      split at h
      · exact h
      · cases h
    · exact h

theorem collected_of_onTransaction {task : GeyserTask} {target slot : Slot}
    {transaction : Option Raw} {transactions : List GeyserTransaction}
    (h : (task.onTransaction decoders target transaction).1.transactions[slot]? =
      some transactions) :
    task.transactions[slot]? = some transactions ∨
      ∃ tx, DecodedFrom decoders (some (.ok (some (.transaction target transaction)))) slot tx ∧
        transactions = task.transactions[slot]?.getD [] ++ [tx] := by
  cases transaction with
  | none => exact Or.inl h
  | some raw =>
      rw [GeyserTask.onTransaction] at h
      split at h
      · exact Or.inl h
      · exact Or.inl h
      · rename_i decoded hdecoded
        split at h
        · exact Or.inl h
        · rename_i tx htx
          dsimp only at h
          rw [getElem?_insert] at h
          split at h
          · rename_i htarget
            subst htarget
            exact Or.inr ⟨tx, ⟨raw, decoded, rfl, hdecoded, htx⟩, (Option.some.inj h).symm⟩
          · exact Or.inl h

/-- A `BlockMeta` takes what was collected for its slot. -/
theorem collected_of_onBlockMeta {task : GeyserTask} {leader : Option Pubkey}
    {info : SubscribeUpdateBlockMeta} {slot : Slot} {transactions : List GeyserTransaction}
    (h : (task.onBlockMeta decoders leader info).1.transactions[slot]? = some transactions) :
    task.transactions[slot]? = some transactions := by
  have herased (hget : (task.transactions.erase info.slot)[slot]? = some transactions) :
      task.transactions[slot]? = some transactions := by
    rw [getElem?_erase] at hget
    split at hget
    · cases hget
    · exact hget
  rw [GeyserTask.onBlockMeta] at h
  split at h
  · exact h
  · dsimp only at h
    split at h
    · exact herased h
    · exact herased h

/-- What the task has for a slot after an event: what it had, or one more transaction. -/
theorem collected_of_onEvent {task : GeyserTask} {event : StreamEvent Raw} {slot : Slot}
    {transactions : List GeyserTransaction}
    (h : (task.onEvent decoders event).1.transactions[slot]? = some transactions) :
    task.transactions[slot]? = some transactions ∨
      ∃ tx, DecodedFrom decoders event.item slot tx ∧
        transactions = task.transactions[slot]?.getD [] ++ [tx] := by
  obtain ⟨item, leader⟩ := event
  rw [GeyserTask.onEvent] at h
  split at h
  · dsimp only at h
    split at h
    · exact Or.inl (collected_of_onSlot h)
    · exact collected_of_onTransaction h
    · exact Or.inl (collected_of_onBlockMeta h)
    all_goals exact Or.inl h
  · exact Or.inl h

/-! ## Along a run -/

/-- One of the updates has the transaction for the slot. -/
def CameIn (decoders : Decoders Raw) (events : List (SubscriptionEvent Raw)) (slot : Slot)
    (tx : GeyserTransaction) : Prop :=
  ∃ item sendOk, .polled item sendOk ∈ events ∧ DecodedFrom decoders item slot tx

theorem CameIn.concat {events : List (SubscriptionEvent Raw)} {slot : Slot}
    {tx : GeyserTransaction} (h : CameIn decoders events slot tx)
    (event : SubscriptionEvent Raw) : CameIn decoders (events ++ [event]) slot tx := by
  obtain ⟨item, sendOk, hmem, hdecoded⟩ := h
  exact ⟨item, sendOk, List.mem_append_left _ hmem, hdecoded⟩

/-- What is collected for a slot, and what is sent in a block, came in updates of the
slot. -/
structure AllCameIn (decoders : Decoders Raw) (events : List (SubscriptionEvent Raw))
    (state : Subscription) : Prop where
  collected : ∀ (slot : Slot) transactions,
    state.task.transactions[slot]? = some transactions →
      ∀ tx ∈ transactions, CameIn decoders events slot tx
  sent : ∀ block ∈ blocksIn state.sent, ∀ tx ∈ block.transactions,
    CameIn decoders events block.slot tx

variable {epochAndSlotIndex : Slot → Epoch × ℕ} {parse : String → Option Pubkey}
  {events : List (SubscriptionEvent Raw)} {state next : Subscription}

theorem AllCameIn.step {event : SubscriptionEvent Raw} (h : AllCameIn decoders events state)
    (hnext : Leaders.step decoders epochAndSlotIndex parse state event = .ok next) :
    AllCameIn decoders (events ++ [event]) next := by
  obtain ⟨tail, htail, hgiven⟩ := step_sends hnext
  refine ⟨?_, ?_⟩
  · rcases step_cases hnext with ⟨item, sendOk, rfl, rfl⟩ |
      ⟨number, response, schedule, -, -, rfl⟩ | ⟨number, schedule, -, -, rfl⟩
    · intro slot transactions hget tx htx
      rw [(onPolled_spec _ _ state item sendOk).2.1] at hget
      rcases collected_of_onEvent hget with hbefore | ⟨latest, hlatest, rfl⟩
      · exact (h.collected slot transactions hbefore tx htx).concat _
      · rcases List.mem_append.1 htx with hbefore | hnew
        · cases hcollected : state.task.transactions[slot]? with
          | none => simp [hcollected] at hbefore
          | some earlier =>
              rw [hcollected] at hbefore
              exact (h.collected slot earlier hcollected tx hbefore).concat _
        · rw [List.mem_singleton.1 hnew]
          exact ⟨item, sendOk, List.mem_concat_self, hlatest⟩
    · exact fun slot transactions hget tx htx =>
        (h.collected slot transactions hget tx htx).concat _
    · exact fun slot transactions hget tx htx =>
        (h.collected slot transactions hget tx htx).concat _
  · rw [htail, blocksIn_append]
    intro block hmem tx htx
    rcases List.mem_append.1 hmem with hbefore | hnew
    · exact (h.sent block hbefore tx htx).concat _
    · exact (h.collected block.slot block.transactions (hgiven block hnew).2 tx htx).concat _

theorem allCameIn_of_run
    (hrun : run (step decoders epochAndSlotIndex parse) .init events = .ok state) :
    AllCameIn decoders events state := by
  refine run_invariant_of_ok (AllCameIn decoders) ?_ ?_ hrun
  · refine ⟨fun slot transactions h => ?_, fun _ hmem => absurd hmem List.not_mem_nil⟩
    simp [Subscription.init, GeyserTask.init] at h
  · exact fun before state event next h hnext => h.step hnext

end Solfees.Collecting
