import Solfees.Core.Run
import Solfees.Geyser.AccountRoles

/-!
# What the instructions ask for

`GeyserTransaction::from` folds the instructions into four variables.  Each of them is
a summary of its own part of the list: the last limit and the last price that the
compute-budget instructions set, the number of the other instructions, and the first
bytes of the signature-verifying ones.  At the size of a packet no count overflows.
-/

namespace Solfees.FeeParameters

open Solfees.AccountRoles
open Solfees.Message
open Solfees.Run
open Solfees.Transaction

/-- The most instructions and signatures that a packet has room for. -/
def packetSize : ℕ := 1232

section Scan

variable (programIds : ProgramIds)
  (deserializeBudget : List UInt8 → Option ComputeBudgetInstruction)
  (tx : VersionedTransactionWithStatusMeta)

/-- The account of the program, if the index is in range. -/
def programOf (ix : CompiledInstruction) : Option Pubkey :=
  (accountKeys tx.transaction.message tx.statusMeta)[ix.programIdIndex.toNat]?

def isBudget (ix : CompiledInstruction) : Bool :=
  decide (programOf tx ix = some programIds.computeBudget)

/-- The instruction is one of the ed25519 or the secp256k1 program. -/
def isVerifier (ix : CompiledInstruction) : Bool :=
  decide (programOf tx ix = some programIds.ed25519 ∨
    programOf tx ix = some programIds.secp256k1)

/-- The number of signatures that a verifier instruction says it carries. -/
def firstByte (ix : CompiledInstruction) : ℕ :=
  (ix.data.head?.getD 0).toNat

/-- The limits that the compute-budget instructions set, in order. -/
def requestedLimits (ixs : List CompiledInstruction) : List UInt32 :=
  (ixs.filter (isBudget programIds tx)).filterMap fun ix =>
    match deserializeBudget ix.data with
    | some (.setComputeUnitLimit value) => some value
    | _ => none

/-- The prices that the compute-budget instructions set, in order. -/
def requestedPrices (ixs : List CompiledInstruction) : List UInt64 :=
  (ixs.filter (isBudget programIds tx)).filterMap fun ix =>
    match deserializeBudget ix.data with
    | some (.setComputeUnitPrice value) => some value
    | _ => none

/-- The number of instructions that are not compute-budget ones. -/
def chargedCount (ixs : List CompiledInstruction) : ℕ :=
  ixs.countP fun ix => !isBudget programIds tx ix

/-- The signatures of the transaction and those that its verifier instructions say
they carry. -/
def signatureCount (ixs : List CompiledInstruction) : ℕ :=
  tx.transaction.signatures.length +
    ((ixs.filter (isVerifier programIds tx)).map firstByte).sum

/-- The variables of the loop after some instructions. -/
def scanAfter (ixs : List CompiledInstruction) : InstructionScan :=
  ixs.foldl
    (fun scan ix => scanInstruction programIds deserializeBudget scan (programOf tx ix)
      ix.data)
    ⟨none, 0, 0, UInt32.ofNat tx.transaction.signatures.length⟩

theorem scanInstructions_eq :
    scanInstructions programIds deserializeBudget tx =
      scanAfter programIds deserializeBudget tx tx.transaction.message.instructions :=
  rfl

/-- What the loop has read of some instructions. -/
def summary (ixs : List CompiledInstruction) : InstructionScan where
  unitLimit := (requestedLimits programIds deserializeBudget tx ixs).getLast?.map
    (min maxComputeUnitLimit)
  unitPrice := (requestedPrices programIds deserializeBudget tx ixs).getLast?.getD 0
  ixsCount := UInt32.ofNat (chargedCount programIds tx ixs)
  sigsCount := UInt32.ofNat (signatureCount programIds tx ixs)

variable {programIds} {deserializeBudget} {tx}

/-- A further instruction changes the summary as a round of the loop does. -/
theorem summary_concat (hed25519 : programIds.computeBudget ≠ programIds.ed25519)
    (hsecp256k1 : programIds.computeBudget ≠ programIds.secp256k1)
    (ixs : List CompiledInstruction) (ix : CompiledInstruction) :
    summary programIds deserializeBudget tx (ixs ++ [ix]) =
      scanInstruction programIds deserializeBudget
        (summary programIds deserializeBudget tx ixs) (programOf tx ix) ix.data := by
  by_cases hbudget : programOf tx ix = some programIds.computeBudget
  · have hverifier : isVerifier programIds tx ix = false := by
      simp [isVerifier, hbudget, hed25519, hsecp256k1]
    have hisBudget : isBudget programIds tx ix = true := decide_eq_true hbudget
    rw [scanInstruction, if_pos hbudget]
    cases hdata : deserializeBudget ix.data with
    | none =>
        simp [summary, requestedLimits, requestedPrices, chargedCount, signatureCount,
          hisBudget, hverifier, hdata]
    | some instruction =>
        cases instruction <;>
          simp [summary, requestedLimits, requestedPrices, chargedCount, signatureCount,
            hisBudget, hverifier, hdata]
  · have hisBudget : isBudget programIds tx ix = false := decide_eq_false hbudget
    rw [scanInstruction, if_neg hbudget]
    by_cases hverifier : programOf tx ix = some programIds.ed25519 ∨
        programOf tx ix = some programIds.secp256k1
    · have hisVerifier : isVerifier programIds tx ix = true := decide_eq_true hverifier
      rw [if_pos hverifier]
      simp [summary, requestedLimits, requestedPrices, chargedCount, signatureCount,
        hisBudget, hisVerifier, firstByte, ← Nat.add_assoc, UInt32.ofNat_add]
    · have hisVerifier : isVerifier programIds tx ix = false := decide_eq_false hverifier
      rw [if_neg hverifier]
      simp [summary, requestedLimits, requestedPrices, chargedCount, signatureCount,
        hisBudget, hisVerifier, UInt32.ofNat_add]

theorem scanAfter_eq_summary (hed25519 : programIds.computeBudget ≠ programIds.ed25519)
    (hsecp256k1 : programIds.computeBudget ≠ programIds.secp256k1)
    (ixs : List CompiledInstruction) :
    scanAfter programIds deserializeBudget tx ixs =
      summary programIds deserializeBudget tx ixs :=
  foldl_eq_of_concat (summary programIds deserializeBudget tx)
    (summary_concat hed25519 hsecp256k1) ixs

/-! ## The counts fit -/

theorem firstByte_le (ix : CompiledInstruction) : firstByte ix ≤ 255 :=
  Nat.le_of_lt_succ (UInt8.toNat_lt _)

theorem chargedCount_le (ixs : List CompiledInstruction) :
    chargedCount programIds tx ixs ≤ ixs.length :=
  List.countP_le_length

theorem signatureCount_le (ixs : List CompiledInstruction) :
    signatureCount programIds tx ixs ≤
      tx.transaction.signatures.length + ixs.length * 255 := by
  apply Nat.add_le_add_left
  have hbytes : ∀ byte ∈ (ixs.filter (isVerifier programIds tx)).map firstByte,
      byte ≤ 255 := by
    intro byte hmem
    obtain ⟨ix, -, rfl⟩ := List.mem_map.1 hmem
    exact firstByte_le ix
  calc ((ixs.filter (isVerifier programIds tx)).map firstByte).sum
      ≤ ((ixs.filter (isVerifier programIds tx)).map firstByte).length * 255 :=
        List.sum_le_card_nsmul _ 255 hbytes
    _ ≤ ixs.length * 255 := by
        apply Nat.mul_le_mul_right
        rw [List.length_map]
        exact List.length_filter_le _ _

/-- The `u32` operations on a transaction stay within their type: the cast of the
number of signatures, the additions of every round, and the last product. -/
structure FitsU32 (programIds : ProgramIds)
    (deserializeBudget : List UInt8 → Option ComputeBudgetInstruction)
    (tx : VersionedTransactionWithStatusMeta) : Prop where
  cast : tx.transaction.signatures.length < 2 ^ 32
  rounds : ∀ front ix back,
    tx.transaction.message.instructions = front ++ ix :: back →
    (scanAfter programIds deserializeBudget tx front).ixsCount.toNat + 1 < 2 ^ 32 ∧
    (scanAfter programIds deserializeBudget tx front).sigsCount.toNat + firstByte ix <
      2 ^ 32
  product : (scanInstructions programIds deserializeBudget tx).ixsCount.toNat *
    defaultInstructionComputeUnitLimit.toNat < 2 ^ 32

section Packet

variable (hed25519 : programIds.computeBudget ≠ programIds.ed25519)
  (hsecp256k1 : programIds.computeBudget ≠ programIds.secp256k1)
  (hixs : tx.transaction.message.instructions.length ≤ packetSize)
  (hsigs : tx.transaction.signatures.length ≤ packetSize)

include hed25519 hsecp256k1

theorem toNat_ixsCount {ixs : List CompiledInstruction} (hixs : ixs.length ≤ packetSize) :
    (scanAfter programIds deserializeBudget tx ixs).ixsCount.toNat =
      chargedCount programIds tx ixs := by
  have hcount : chargedCount programIds tx ixs ≤ 1232 := (chargedCount_le ixs).trans hixs
  rw [scanAfter_eq_summary hed25519 hsecp256k1]
  apply UInt32.toNat_ofNat_of_lt'
  change _ < 2 ^ 32
  omega

theorem toNat_defaultLimit {ixs : List CompiledInstruction}
    (hixs : ixs.length ≤ packetSize) :
    (min maxComputeUnitLimit ((scanAfter programIds deserializeBudget tx ixs).ixsCount *
        defaultInstructionComputeUnitLimit)).toNat =
      min 1_400_000 (200_000 * chargedCount programIds tx ixs) := by
  have hcharged : chargedCount programIds tx ixs ≤ _ := chargedCount_le ixs
  rw [UInt32.toNat_min, UInt32.toNat_mul, toNat_ixsCount hed25519 hsecp256k1 hixs]
  change min 1_400_000 (chargedCount programIds tx ixs * 200_000 % 2 ^ 32) = _
  rw [packetSize] at hixs
  rw [Nat.mod_eq_of_lt (by omega), Nat.mul_comm]

theorem toNat_unitLimit {ixs : List CompiledInstruction}
    (hixs : ixs.length ≤ packetSize) :
    ((scanAfter programIds deserializeBudget tx ixs).unitLimit.getD
        (min maxComputeUnitLimit ((scanAfter programIds deserializeBudget tx ixs).ixsCount *
          defaultInstructionComputeUnitLimit))).toNat =
      min 1_400_000 ((requestedLimits programIds deserializeBudget tx ixs).getLast?.elim
        (200_000 * chargedCount programIds tx ixs) UInt32.toNat) := by
  have hunit : (scanAfter programIds deserializeBudget tx ixs).unitLimit =
      (requestedLimits programIds deserializeBudget tx ixs).getLast?.map
        (min maxComputeUnitLimit) := by
    rw [scanAfter_eq_summary hed25519 hsecp256k1]
    rfl
  rw [hunit]
  cases (requestedLimits programIds deserializeBudget tx ixs).getLast? with
  | none =>
      rw [Option.map_none, Option.getD_none, Option.elim_none]
      exact toNat_defaultLimit hed25519 hsecp256k1 hixs
  | some value => exact UInt32.toNat_min maxComputeUnitLimit value

include hsigs

theorem toNat_sigsCount {ixs : List CompiledInstruction} (hixs : ixs.length ≤ packetSize) :
    (scanAfter programIds deserializeBudget tx ixs).sigsCount.toNat =
      signatureCount programIds tx ixs := by
  have hcount : signatureCount programIds tx ixs ≤ _ := signatureCount_le ixs
  rw [packetSize] at hixs hsigs
  rw [scanAfter_eq_summary hed25519 hsecp256k1]
  apply UInt32.toNat_ofNat_of_lt'
  change _ < 2 ^ 32
  omega

include hixs

theorem fitsU32 : FitsU32 programIds deserializeBudget tx where
  cast := by
    rw [packetSize] at hsigs
    omega
  rounds := by
    intro front ix back hsplit
    have hfront : front.length ≤ packetSize := by
      apply le_trans _ hixs
      rw [hsplit, List.length_append]
      exact Nat.le_add_right _ _
    have hcharged : chargedCount programIds tx front ≤ _ := chargedCount_le front
    have hcount : signatureCount programIds tx front ≤ _ := signatureCount_le front
    have hbyte := firstByte_le ix
    rw [toNat_ixsCount hed25519 hsecp256k1 hfront,
      toNat_sigsCount hed25519 hsecp256k1 hsigs hfront]
    rw [packetSize] at hfront hsigs
    omega
  product := by
    have hcharged : chargedCount programIds tx tx.transaction.message.instructions ≤ _ :=
      chargedCount_le _
    rw [scanInstructions_eq, toNat_ixsCount hed25519 hsecp256k1 hixs]
    change _ * 200000 < 2 ^ 32
    rw [packetSize] at hixs
    omega

end Packet

/-! ## Instructions in another order -/

/-- The transaction with other instructions. -/
def withInstructions (tx : VersionedTransactionWithStatusMeta)
    (ixs : List CompiledInstruction) : VersionedTransactionWithStatusMeta :=
  { tx with transaction := { tx.transaction with
      message := { tx.transaction.message with instructions := ixs } } }

/-- The summary reads the compute-budget instructions in order, and counts the
others. -/
theorem summary_of_perm {ixs ixs' : List CompiledInstruction} (hperm : ixs'.Perm ixs)
    (hbudget : ixs'.filter (isBudget programIds tx) = ixs.filter (isBudget programIds tx)) :
    summary programIds deserializeBudget tx ixs' =
      summary programIds deserializeBudget tx ixs := by
  have hcharged : chargedCount programIds tx ixs' = chargedCount programIds tx ixs :=
    hperm.countP_eq _
  have hsigs : signatureCount programIds tx ixs' = signatureCount programIds tx ixs := by
    rw [signatureCount, signatureCount, ((hperm.filter _).map firstByte).sum_eq]
  rw [summary, summary, hcharged, hsigs, requestedLimits, requestedPrices, hbudget,
    requestedLimits, requestedPrices]

end Scan

/-! ## The extraction -/

/-- The fee parameters of any transaction of the size of a packet: the last price and
the last limit that its compute-budget instructions set, or the default limit for each
of the other instructions; the signatures, those of the verifier instructions included;
no count overflows, and only the order of the compute-budget instructions matters. -/
theorem fee_parameters_exact {programIds : ProgramIds}
    (hed25519 : programIds.computeBudget ≠ programIds.ed25519)
    (hsecp256k1 : programIds.computeBudget ≠ programIds.secp256k1)
    (deserializeBudget : List UInt8 → Option ComputeBudgetInstruction)
    {tx : VersionedTransactionWithStatusMeta}
    (hixs : tx.transaction.message.instructions.length ≤ packetSize)
    (hsigs : tx.transaction.signatures.length ≤ packetSize) (isVote : Bool) :
    (∀ transaction,
      transactionFrom programIds deserializeBudget tx isVote = .ok transaction →
      transaction.unitPrice = (requestedPrices programIds deserializeBudget tx
        tx.transaction.message.instructions).getLast?.getD 0 ∧
      transaction.unitLimit.toNat = min 1_400_000
        ((requestedLimits programIds deserializeBudget tx
          tx.transaction.message.instructions).getLast?.elim
            (200_000 * chargedCount programIds tx tx.transaction.message.instructions)
            UInt32.toNat) ∧
      transaction.sigsCount.toNat =
        signatureCount programIds tx tx.transaction.message.instructions) ∧
    (tx.transaction.signatures ≠ [] → Sanitized tx.transaction.message →
      ∃ transaction,
        transactionFrom programIds deserializeBudget tx isVote = .ok transaction) ∧
    FitsU32 programIds deserializeBudget tx ∧
    ∀ ixs', ixs'.Perm tx.transaction.message.instructions →
      ixs'.filter (isBudget programIds tx) =
        tx.transaction.message.instructions.filter (isBudget programIds tx) →
      transactionFrom programIds deserializeBudget (withInstructions tx ixs') isVote =
        transactionFrom programIds deserializeBudget tx isVote := by
  refine ⟨?_, ?_, fitsU32 hed25519 hsecp256k1 hixs hsigs, ?_⟩
  · intro transaction htransaction
    obtain ⟨signature, accounts, -, -, rfl⟩ := transactionFrom_eq_ok_iff.1 htransaction
    rw [scanInstructions_eq]
    refine ⟨?_, toNat_unitLimit hed25519 hsecp256k1 hixs,
      toNat_sigsCount hed25519 hsecp256k1 hsigs hixs⟩
    rw [scanAfter_eq_summary hed25519 hsecp256k1]
    rfl
  · intro hsignatures hsanitized
    obtain ⟨feePayer, haccounts⟩ := accountsFrom_eq tx.statusMeta hsanitized
    obtain ⟨signature, rest, hhead⟩ := List.exists_cons_of_ne_nil hsignatures
    exact ⟨_, transactionFrom_eq_ok_iff.2
      ⟨signature, _, by rw [hhead, List.head?_cons], haccounts, rfl⟩⟩
  · intro ixs' hperm hbudget
    have hscan : scanInstructions programIds deserializeBudget (withInstructions tx ixs') =
        scanInstructions programIds deserializeBudget tx := by
      change scanAfter programIds deserializeBudget tx ixs' = scanAfter _ _ tx _
      rw [scanAfter_eq_summary hed25519 hsecp256k1, scanAfter_eq_summary hed25519 hsecp256k1,
        summary_of_perm hperm hbudget]
    rw [transactionFrom, hscan]
    rfl

/-! ## A transfer with compute-budget instructions -/

/-- The number that some bytes spell, the least significant first. -/
def littleEndian (bytes : List UInt8) : ℕ :=
  bytes.foldr (fun byte number => byte.toNat + 256 * number) 0

/-- The Borsh encoding of the compute-budget instructions: a tag, then a number of four
or eight bytes; bytes after it are ignored. -/
def deserializeBorsh : List UInt8 → Option ComputeBudgetInstruction
  | 0 :: _ => some .other
  | 2 :: a :: b :: c :: d :: _ =>
      some (.setComputeUnitLimit (UInt32.ofNat (littleEndian [a, b, c, d])))
  | 3 :: a :: b :: c :: d :: e :: f :: g :: h :: _ =>
      some (.setComputeUnitPrice (UInt64.ofNat (littleEndian [a, b, c, d, e, f, g, h])))
  | 1 :: _ :: _ :: _ :: _ :: _ => some .other
  | 4 :: _ :: _ :: _ :: _ :: _ => some .other
  | _ => none

/-- A price of 7, a limit of 1000 with a byte too many, an ed25519 instruction with two
signatures, whose program is a loaded key, and an instruction whose program is not among
the keys. -/
def budgetTransfer : VersionedTransactionWithStatusMeta :=
  ⟨⟨[77], ⟨⟨1, 0, 1⟩, [1, 100],
    [⟨1, [3, 7, 0, 0, 0, 0, 0, 0, 0]⟩, ⟨3, [2, 9]⟩, ⟨9, []⟩, ⟨1, [2, 232, 3, 0, 0, 5]⟩]⟩⟩,
    ⟨5000, ⟨[50], [101]⟩, none⟩⟩

/-- The instructions of the transfer, the compute-budget ones first. -/
def budgetFirst : List CompiledInstruction :=
  [⟨1, [3, 7, 0, 0, 0, 0, 0, 0, 0]⟩, ⟨1, [2, 232, 3, 0, 0, 5]⟩, ⟨9, []⟩, ⟨3, [2, 9]⟩]

theorem fee_parameters_exact_budgetTransfer :
    (∃ transaction,
      transactionFrom ⟨100, 101, 102⟩ deserializeBorsh budgetTransfer false =
        .ok transaction ∧
      transaction.unitPrice = 7 ∧ transaction.unitLimit.toNat = 1000 ∧
      transaction.sigsCount.toNat = 3) ∧
    transactionFrom ⟨100, 101, 102⟩ deserializeBorsh
        (withInstructions budgetTransfer budgetFirst) false =
      transactionFrom ⟨100, 101, 102⟩ deserializeBorsh budgetTransfer false := by
  let programIds : ProgramIds := ⟨100, 101, 102⟩
  have hed25519 : programIds.computeBudget ≠ programIds.ed25519 := by decide
  have hsecp256k1 : programIds.computeBudget ≠ programIds.secp256k1 := by decide
  have hixs : budgetTransfer.transaction.message.instructions.length ≤ packetSize := by
    decide
  have hsigs : budgetTransfer.transaction.signatures.length ≤ packetSize := by decide
  have hsanitized : Sanitized budgetTransfer.transaction.message :=
    ⟨by decide, by decide⟩
  obtain ⟨hexact, htotal, -, hreordered⟩ :=
    fee_parameters_exact hed25519 hsecp256k1 deserializeBorsh hixs hsigs false
  constructor
  · obtain ⟨transaction, htransaction⟩ := htotal (List.cons_ne_nil _ _) hsanitized
    obtain ⟨hprice, hlimit, hcount⟩ := hexact transaction htransaction
    exact ⟨transaction, htransaction, hprice.trans (by decide), hlimit.trans (by decide),
      hcount.trans (by decide)⟩
  · exact hreordered budgetFirst (by decide) (by decide)

end Solfees.FeeParameters
