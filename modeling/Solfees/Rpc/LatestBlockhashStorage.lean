import Solfees.Core.Draining
import Solfees.Rpc.Json

/-!
# The store behind `getLatestBlockhash` and `getSlot`

`LatestBlockhashStorage` as the update loop keeps it: a map of recent blocks, a
counter of finalized ones, and one slot pointer for each commitment level.
Eviction pops from the bottom of the map while the counter is too high.
-/

namespace Solfees.LatestBlockhash

open Solfees.Draining
open Solfees.Json
open Solfees.Message

/-- How a step of the update loop fails to return.  `spin` is a loop that makes
no more progress; `slotUnderflow` is `slot -= 1` at slot 0, a panic in a checked
build and a jump to the greatest slot in a release build. -/
inductive Fault
  | spin
  | slotUnderflow
  deriving DecidableEq, Repr

def maxRecentBlockhashes : ℕ := 300

structure LatestBlockhashSlot where
  hash : Hash
  height : Height
  commitment : CommitmentLevel
  deriving DecidableEq, Repr

structure LatestBlockhashStorage where
  slots : OrderedMap Slot LatestBlockhashSlot
  finalizedTotal : ℕ
  slotProcessed : Slot
  slotConfirmed : Slot
  slotFinalized : Slot

namespace LatestBlockhashStorage

/-- `LatestBlockhashStorage::default`. -/
def empty : LatestBlockhashStorage where
  slots := ∅
  finalizedTotal := 0
  slotProcessed := 0
  slotConfirmed := 0
  slotFinalized := 0

/-- `LatestBlockhashStorage::push_block`. -/
def pushBlock (storage : LatestBlockhashStorage) (slot : Slot) (height : Height)
    (hash : Hash) : LatestBlockhashStorage :=
  { storage with
    slots := storage.slots.insert slot ⟨hash, height, .processed⟩ }

/-- The first half of `LatestBlockhashStorage::update_commitment`: the entry,
the counter and the pointers. -/
def recordCommitment (storage : LatestBlockhashStorage) (slot : Slot)
    (commitment : CommitmentLevel) : LatestBlockhashStorage :=
  if slot ∈ storage.slots then
    let marked := { storage with
      slots := storage.slots.modify slot fun value =>
        { value with commitment := commitment } }
    if commitment = .processed ∧ storage.slotProcessed < slot then
      { marked with slotProcessed := slot }
    else if commitment = .confirmed then
      { marked with slotConfirmed := slot }
    else if commitment = .finalized then
      { marked with
        finalizedTotal := storage.finalizedTotal + 1
        slotFinalized := slot }
    else marked
  else storage

/-- `while finalized_total > MAX_RECENT_BLOCKHASHES + 10`. -/
def overfull (finalizedTotal : ℕ) (_slots : OrderedMap Slot LatestBlockhashSlot) :
    Bool :=
  decide (maxRecentBlockhashes + 10 < finalizedTotal)

/-- The loop body after `pop_first` returned an entry. -/
def forget (finalizedTotal : ℕ) (entry : Slot × LatestBlockhashSlot) : ℕ :=
  if entry.2.commitment = .finalized then finalizedTotal - 1 else finalizedTotal

/-- The second half of `LatestBlockhashStorage::update_commitment`: the eviction
loop. -/
def evict (storage : LatestBlockhashStorage) :
    Except Fault LatestBlockhashStorage :=
  match drainWhile overfull forget storage.finalizedTotal storage.slots with
  | some (finalizedTotal, slots) =>
      .ok { storage with slots := slots, finalizedTotal := finalizedTotal }
  | none => .error .spin

/-- `LatestBlockhashStorage::update_commitment`. -/
def updateCommitment (storage : LatestBlockhashStorage) (slot : Slot)
    (commitment : CommitmentLevel) : Except Fault LatestBlockhashStorage :=
  evict (storage.recordCommitment slot commitment)

/-- The pointer of a commitment level. -/
def slotAt (storage : LatestBlockhashStorage) : CommitmentLevel → Slot
  | .processed => storage.slotProcessed
  | .confirmed => storage.slotConfirmed
  | .finalized => storage.slotFinalized

end LatestBlockhashStorage

/-! ## The requests that read the store -/

/-- How the inner loop of a rollback step ends. -/
inductive Walk
  | found (slot : Slot) (value : LatestBlockhashSlot)
  | notEnough
  | slotUnderflow
  deriving DecidableEq, Repr

/-- One rollback step: count `slot` down to a stored block one lower than
`value`. -/
def walkBack (slots : OrderedMap Slot LatestBlockhashSlot)
    (firstAvailableSlot : Slot) (value : LatestBlockhashSlot) : Slot → Walk
  | 0 => .slotUnderflow
  | slot + 1 =>
      match slots[slot]? with
      | some prevValue =>
          if prevValue.height + 1 = value.height then .found slot prevValue
          else walkBack slots firstAvailableSlot value slot
      | none =>
          if slot < firstAvailableSlot then .notEnough
          else walkBack slots firstAvailableSlot value slot

/-- `for _ in 0..rollback`. -/
def rollbackWalk (slots : OrderedMap Slot LatestBlockhashSlot)
    (firstAvailableSlot : Slot) : ℕ → Slot → LatestBlockhashSlot → Walk
  | 0, slot, value => .found slot value
  | rollback + 1, slot, value =>
      match walkBack slots firstAvailableSlot value slot with
      | .found slot value => rollbackWalk slots firstAvailableSlot rollback slot value
      | .notEnough => .notEnough
      | .slotUnderflow => .slotUnderflow

/-- The answer once a slot and its block are settled. -/
def latestBlockhashSuccess (jsonrpc : Option JsonrpcVersion) (id : JsonrpcId)
    (slot : Slot) (value : LatestBlockhashSlot) : JsonrpcOutput :=
  createSuccess jsonrpc id
    (.latestBlockhash slot value.hash
      (value.height + UInt64.ofNat maxRecentBlockhashes))

/-- The `RpcRequest::LatestBlockhash` arm of `run_update_loop`. -/
def latestBlockhash (storage : LatestBlockhashStorage)
    (jsonrpc : Option JsonrpcVersion) (id : JsonrpcId)
    (commitment : CommitmentLevel) (rollback : ℕ)
    (minContextSlot : Option Slot) : Except Fault JsonrpcOutput :=
  if maxRecentBlockhashes < rollback then
    .ok (createFailure jsonrpc id (.invalidParams "rollback exceeds 300"))
  else
    let slot := storage.slotAt commitment
    if minContextSlot.any fun minContextSlot => decide (slot < minContextSlot) then
      .ok (createFailure jsonrpc id (.minContextSlotNotReached slot))
    else
      match storage.slots[slot]? with
      | none => .ok (createFailure jsonrpc id (internalErrorWithData "no slot"))
      | some value =>
          if 0 < rollback then
            match storage.slots.keys.head? with
            | none =>
                .ok (createFailure jsonrpc id (.invalidParams "empty slots storage"))
            | some firstAvailableSlot =>
                match rollbackWalk storage.slots firstAvailableSlot rollback slot value with
                | .found slot value =>
                    .ok (latestBlockhashSuccess jsonrpc id slot value)
                | .notEnough =>
                    .ok (createFailure jsonrpc id
                      (.invalidParams "not enought slots in the storage"))
                | .slotUnderflow => .error .slotUnderflow
          else .ok (latestBlockhashSuccess jsonrpc id slot value)

/-- The `RpcRequest::Slot` arm of `run_update_loop`. -/
def getSlot (storage : LatestBlockhashStorage) (jsonrpc : Option JsonrpcVersion)
    (id : JsonrpcId) (commitment : CommitmentLevel)
    (minContextSlot : Option Slot) : JsonrpcOutput :=
  let slot := storage.slotAt commitment
  if minContextSlot.any fun minContextSlot => decide (slot < minContextSlot) then
    createFailure jsonrpc id (.minContextSlotNotReached slot)
  else createSuccess jsonrpc id (.slot slot)

end Solfees.LatestBlockhash
