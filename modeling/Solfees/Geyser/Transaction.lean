import Solfees.Geyser.Message

/-!
# Transactions of the geyser stream

`GeyserTransaction::from` reads a decoded transaction: which accounts it locks
and what its compute-budget instructions ask for.  Slices and subtractions are
checked, and a failed check is the panic of the task that reads the stream.
The program ids and the Borsh decoder of compute-budget instructions belong to
the Solana SDK and are parameters.
-/

namespace Solfees.Transaction

open Solfees.Message

def maxComputeUnitLimit : UInt32 := 1_400_000

def defaultInstructionComputeUnitLimit : UInt32 := 200_000

structure MessageHeader where
  numRequiredSignatures : UInt8
  numReadonlySignedAccounts : UInt8
  numReadonlyUnsignedAccounts : UInt8
  deriving DecidableEq, Repr

structure CompiledInstruction where
  programIdIndex : UInt8
  data : List UInt8
  deriving DecidableEq, Repr

structure VersionedMessage where
  header : MessageHeader
  staticAccountKeys : List Pubkey
  instructions : List CompiledInstruction
  deriving DecidableEq, Repr

structure LoadedAddresses where
  writable : List Pubkey
  readonly : List Pubkey
  deriving DecidableEq, Repr

structure TransactionStatusMeta where
  fee : UInt64
  loadedAddresses : LoadedAddresses
  computeUnitsConsumed : Option UInt64
  deriving DecidableEq, Repr

structure VersionedTransaction where
  signatures : List Signature
  message : VersionedMessage
  deriving DecidableEq, Repr

structure VersionedTransactionWithStatusMeta where
  transaction : VersionedTransaction
  statusMeta : TransactionStatusMeta
  deriving DecidableEq, Repr

inductive Panic
  | subtractionUnderflow
  | indexOutOfRange
  deriving DecidableEq, Repr

/-! ## Accounts -/

/-- A subtraction of unsigned numbers. -/
def checkedSub (a b : ℕ) : Except Panic ℕ :=
  if b ≤ a then .ok (a - b) else .error .subtractionUnderflow

/-- `keys[first..last]`. -/
def slice (keys : List Pubkey) (first last : ℕ) : Except Panic (List Pubkey) :=
  if first ≤ last ∧ last ≤ keys.length then
    .ok ((keys.drop first).take (last - first))
  else .error .indexOutOfRange

/-- `collect::<HashSet<_>>()` and `sort_unstable`: each key once, in order. -/
def sortKeys (keys : List Pubkey) : List Pubkey :=
  keys.dedup.insertionSort (· ≤ ·)

/-- `GeyserTransactionAccounts::from`. -/
def accountsFrom (message : VersionedMessage) (statusMeta : TransactionStatusMeta) :
    Except Panic GeyserTransactionAccounts := do
  let keys := message.staticAccountKeys
  let required := message.header.numRequiredSignatures.toNat
  let readonlySigned := message.header.numReadonlySignedAccounts.toNat
  let readonlyUnsigned := message.header.numReadonlyUnsignedAccounts.toNat
  let writableSigners ← slice keys 0 (← checkedSub required readonlySigned)
  let writableOthers ← slice keys required (← checkedSub keys.length readonlyUnsigned)
  let writable := sortKeys
    (statusMeta.loadedAddresses.writable ++ writableSigners ++ writableOthers)
  let readonlySigners ← slice keys (← checkedSub required readonlySigned) required
  let readonlyOthers ←
    slice keys (← checkedSub keys.length readonlyUnsigned) keys.length
  let readable := sortKeys
    (statusMeta.loadedAddresses.readonly ++ readonlySigners ++ readonlyOthers)
  let signers := sortKeys (← slice keys 0 required)
  match keys.head? with
  | some feePayer =>
      return {
        writable := writable
        readable := readable
        signers := signers
        feePayer := feePayer }
  | none => .error .indexOutOfRange

/-! ## Instructions -/

/-- The program ids that `GeyserTransaction::from` knows. -/
structure ProgramIds where
  computeBudget : Pubkey
  ed25519 : Pubkey
  secp256k1 : Pubkey

/-- The compute-budget instructions that `GeyserTransaction::from` reads. -/
inductive ComputeBudgetInstruction
  | setComputeUnitLimit (value : UInt32)
  | setComputeUnitPrice (value : UInt64)
  | other
  deriving DecidableEq, Repr

/-- The local variables of the loop over the instructions. -/
structure InstructionScan where
  unitLimit : Option UInt32
  unitPrice : UInt64
  ixsCount : UInt32
  sigsCount : UInt32
  deriving DecidableEq, Repr

section Instructions

variable (programIds : ProgramIds)
  (deserializeBudget : List UInt8 → Option ComputeBudgetInstruction)

/-- One round of the loop; `program` is the account the instruction names, if
its index is in range. -/
def scanInstruction (scan : InstructionScan) (program : Option Pubkey)
    (data : List UInt8) : InstructionScan :=
  if program = some programIds.computeBudget then
    match deserializeBudget data with
    | some (.setComputeUnitLimit value) =>
        { scan with unitLimit := some (min maxComputeUnitLimit value) }
    | some (.setComputeUnitPrice value) => { scan with unitPrice := value }
    | _ => scan
  else if program = some programIds.ed25519 ∨
      program = some programIds.secp256k1 then
    { scan with
      sigsCount := scan.sigsCount + (data.head?.getD 0).toUInt32
      ixsCount := scan.ixsCount + 1 }
  else { scan with ixsCount := scan.ixsCount + 1 }

/-- `AccountKeys::new(static, loaded)`, the keys an index ranges over. -/
def accountKeys (message : VersionedMessage) (statusMeta : TransactionStatusMeta) :
    List Pubkey :=
  message.staticAccountKeys ++ statusMeta.loadedAddresses.writable ++
    statusMeta.loadedAddresses.readonly

/-- The loop over the instructions. -/
def scanInstructions (tx : VersionedTransactionWithStatusMeta) : InstructionScan :=
  tx.transaction.message.instructions.foldl
    (fun scan ix => scanInstruction programIds deserializeBudget scan
      (accountKeys tx.transaction.message tx.statusMeta)[ix.programIdIndex.toNat]?
      ix.data)
    ⟨none, 0, 0, UInt32.ofNat tx.transaction.signatures.length⟩

/-- `GeyserTransaction::from`. -/
def transactionFrom (tx : VersionedTransactionWithStatusMeta) (isVote : Bool) :
    Except Panic GeyserTransaction := do
  let scan := scanInstructions programIds deserializeBudget tx
  let unitLimit := scan.unitLimit.getD
    (min maxComputeUnitLimit (scan.ixsCount * defaultInstructionComputeUnitLimit))
  match tx.transaction.signatures.head? with
  | none => .error .indexOutOfRange
  | some signature =>
      let accounts ← accountsFrom tx.transaction.message tx.statusMeta
      return {
        signature := signature
        vote := isVote
        accounts := accounts
        sigsCount := scan.sigsCount
        unitLimit := unitLimit
        unitPrice := scan.unitPrice
        unitsConsumed := tx.statusMeta.computeUnitsConsumed
        fee := tx.statusMeta.fee }

variable {programIds deserializeBudget}

/-- A transaction comes with its first signature, its accounts and what the loop has
read. -/
theorem transactionFrom_eq_ok_iff {tx : VersionedTransactionWithStatusMeta} {isVote : Bool}
    {transaction : GeyserTransaction} :
    transactionFrom programIds deserializeBudget tx isVote = .ok transaction ↔
      ∃ signature accounts, tx.transaction.signatures.head? = some signature ∧
        accountsFrom tx.transaction.message tx.statusMeta = .ok accounts ∧
        transaction = {
          signature := signature
          vote := isVote
          accounts := accounts
          sigsCount := (scanInstructions programIds deserializeBudget tx).sigsCount
          unitLimit := (scanInstructions programIds deserializeBudget tx).unitLimit.getD
            (min maxComputeUnitLimit
              ((scanInstructions programIds deserializeBudget tx).ixsCount *
                defaultInstructionComputeUnitLimit))
          unitPrice := (scanInstructions programIds deserializeBudget tx).unitPrice
          unitsConsumed := tx.statusMeta.computeUnitsConsumed
          fee := tx.statusMeta.fee } := by
  rw [transactionFrom]
  cases tx.transaction.signatures.head? with
  | none => simp
  | some signature =>
      cases accountsFrom tx.transaction.message tx.statusMeta with
      | error fault =>
          apply iff_of_false
          · exact fun h => by cases h
          · rintro ⟨_, _, _, haccounts, _⟩
            cases haccounts
      | ok accounts =>
          constructor
          · intro h
            exact ⟨signature, accounts, rfl, rfl, (Except.ok.inj h).symm⟩
          · rintro ⟨_, _, hsignature, haccounts, rfl⟩
            obtain rfl := Option.some.inj hsignature
            obtain rfl := Except.ok.inj haccounts
            rfl

end Instructions

end Solfees.Transaction
