import Solfees.Core.Draining
import Solfees.Core.Run
import Solfees.Geyser.Transaction

/-!
# The geyser stream

The task that `grpc_geyser::subscribe` spawns: it collects the transactions of
each slot and sends the block of a slot when its `BlockMeta` arrives.  A
finalized status drops what is collected for smaller slots; an error is sent
and ends the task.
-/

namespace Solfees.Stream

open Solfees.Draining
open Solfees.Message
open Solfees.Transaction

structure SubscribeUpdateBlockMeta where
  slot : Slot
  blockhash : String
  blockTime : Option UnixTimestamp
  blockHeight : Option Height
  parentSlot : Slot
  parentBlockhash : String
  deriving DecidableEq, Repr

/-- The updates of the stream, with the transactions in their wire format. -/
inductive UpdateOneof (Raw : Type)
  | slot (slot : Slot) (status : ℤ)
  | transaction (slot : Slot) (transaction : Option Raw)
  | blockMeta (info : SubscribeUpdateBlockMeta)
  | other

/-- What one poll of the stream returns: the end of the stream, an error, or an
update. -/
abbrev StreamItem (Raw : Type) := Option (Except String (Option (UpdateOneof Raw)))

/-- A poll of the stream, with the answer `schedule.get_leader` gives if it is
asked. -/
structure StreamEvent (Raw : Type) where
  item : StreamItem Raw
  leader : Option Pubkey

inductive TransactionWithStatusMeta
  | missingMetadata
  | complete (tx : VersionedTransactionWithStatusMeta)

/-- The decoders of other crates that the task calls. -/
structure Decoders (Raw : Type) where
  isVote : Raw → Bool
  createTxWithMeta : Raw → Except String TransactionWithStatusMeta
  programIds : ProgramIds
  deserializeBudget : List UInt8 → Option ComputeBudgetInstruction
  parseHash : String → Option Hash

/-- `proto::CommitmentLevel::try_from`, and `CommitmentLevel::from`. -/
def commitmentOfStatus : ℤ → Option CommitmentLevel
  | 0 => some .processed
  | 1 => some .confirmed
  | 2 => some .finalized
  | _ => none

/-- `ok_or` and `context`. -/
def orError {A : Type} (error : String) : Option A → Except String A
  | some a => .ok a
  | none => .error error

/-- `GeyserMessage::build_block`. -/
def buildBlock (parseHash : String → Option Hash) (leader : Option Pubkey)
    (info : SubscribeUpdateBlockMeta) (transactions : List GeyserTransaction) :
    Except String GeyserMessage := do
  let hash ← orError "failed to parse block hash" (parseHash info.blockhash)
  let time ← orError "failed to get block time" info.blockTime
  let height ← orError "failed to get block height" info.blockHeight
  let parentHash ←
    orError "failed to parse parent block hash" (parseHash info.parentBlockhash)
  return .slot {
    leader := leader
    slot := info.slot
    hash := hash
    time := time
    height := height
    parentSlot := info.parentSlot
    parentHash := parentHash
    transactions := transactions }

/-- The transactions collected for each slot. -/
abbrev Collected := OrderedMap Slot (List GeyserTransaction)

/-- The loop that pops the first key while it is below the finalized slot. -/
def popBelow (finalized : Slot) (transactions : Collected) :
    Option (Unit × Collected) :=
  drainWhile
    (fun _ rest => rest.keys.head?.any fun firstSlot => decide (firstSlot < finalized))
    (fun _ _ => ()) () transactions

/-- The state of the task. -/
structure GeyserTask where
  transactions : Collected
  alive : Bool

namespace GeyserTask

def init : GeyserTask where
  transactions := ∅
  alive := true

/-- The error is sent, and the loop ends. -/
def fail (task : GeyserTask) (error : String) :
    GeyserTask × Option (Except String GeyserMessage) :=
  ({ task with alive := false }, some (.error error))

/-- The task ends without sending anything: a panic, or a loop without end. -/
def die (task : GeyserTask) : GeyserTask × Option (Except String GeyserMessage) :=
  ({ task with alive := false }, none)

section Events

variable {Raw : Type} (decoders : Decoders Raw)

/-- The `UpdateOneof::Slot` arm. -/
def onSlot (task : GeyserTask) (slot : Slot) (status : ℤ) :
    GeyserTask × Option (Except String GeyserMessage) :=
  match commitmentOfStatus status with
  | none => task.fail "invalid commitment"
  | some commitment =>
      if commitment = .finalized then
        match popBelow slot task.transactions with
        | some (_, rest) =>
            ({ task with transactions := rest }, some (.ok (.status slot commitment)))
        | none => task.die
      else (task, some (.ok (.status slot commitment)))

/-- The `UpdateOneof::Transaction` arm. -/
def onTransaction (task : GeyserTask) (slot : Slot) (transaction : Option Raw) :
    GeyserTask × Option (Except String GeyserMessage) :=
  match transaction with
  | none => task.fail "failed to get transaction"
  | some raw =>
      match decoders.createTxWithMeta raw with
      | .error error => task.fail ("failed to decode transaction: " ++ error)
      | .ok .missingMetadata => task.fail "failed to get transaction metadata"
      | .ok (.complete decoded) =>
          match transactionFrom decoders.programIds decoders.deserializeBudget
              decoded (decoders.isVote raw) with
          | .error _ => task.die
          | .ok tx =>
              ({ task with
                transactions := task.transactions.insert slot
                  (task.transactions[slot]?.getD [] ++ [tx]) }, none)

/-- The `UpdateOneof::BlockMeta` arm. -/
def onBlockMeta (task : GeyserTask) (leader : Option Pubkey)
    (info : SubscribeUpdateBlockMeta) :
    GeyserTask × Option (Except String GeyserMessage) :=
  match task.transactions[info.slot]? with
  | none => (task, none)
  | some transactions =>
      let task := { task with transactions := task.transactions.erase info.slot }
      match buildBlock decoders.parseHash leader info transactions with
      | .ok message => (task, some (.ok message))
      | .error error => task.fail error

/-- One turn of the loop of `subscribe`: the new state, and what is sent. -/
def onEvent (task : GeyserTask) (event : StreamEvent Raw) :
    GeyserTask × Option (Except String GeyserMessage) :=
  if task.alive then
    match event.item with
    | some (.ok (some (.slot slot status))) => task.onSlot slot status
    | some (.ok (some (.transaction slot transaction))) =>
        task.onTransaction decoders slot transaction
    | some (.ok (some (.blockMeta info))) =>
        task.onBlockMeta decoders event.leader info
    | some (.ok (some .other)) => (task, none)
    | some (.ok none) => (task, none)
    | some (.error error) => task.fail error
    | none => task.fail "stream finished"
  else (task, none)

end Events

end GeyserTask

end Solfees.Stream
