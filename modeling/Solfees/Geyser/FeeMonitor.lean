import Solfees.Geyser.Collecting
import Solfees.Geyser.FeeParameters

/-!
# The fee monitor

`txmon` subscribes to the geyser stream and reports every transaction whose fee is not
the one it expects.  It multiplies in 64-bit words, so a price that is high enough makes
it expect too little.
-/

namespace Solfees.FeeMonitor

open Solfees.Collecting
open Solfees.Grouping
open Solfees.Leaders
open Solfees.Message
open Solfees.Run
open Solfees.Schedule
open Solfees.Stream
open Solfees.Transaction

/-- What is logged about a transaction. -/
structure Report where
  leader : Option Pubkey
  fee : UInt64
  expectedFee : UInt64
  sigsCount : UInt32
  unitLimit : UInt32
  unitPrice : UInt64
  unitsConsumed : Option UInt64
  signature : Signature
  deriving DecidableEq, Repr

/-- `extra_fee`: the product wraps around, as it does in a release build. -/
def extraFee (tx : GeyserTransaction) : UInt64 :=
  tx.unitLimit.toUInt64 * tx.unitPrice

/-- `expected_fee`. -/
def expectedFee (tx : GeyserTransaction) : UInt64 :=
  extraFee tx / 1000000 + (if 0 < extraFee tx % 1000000 then 1 else 0) +
    5000 * tx.sigsCount.toUInt64

/-- The body of the loop over the transactions of a block. -/
def check (leader : Option Pubkey) (tx : GeyserTransaction) : Option Report :=
  if expectedFee tx ≠ tx.fee then
    some {
      leader := leader
      fee := tx.fee
      expectedFee := expectedFee tx
      sigsCount := tx.sigsCount
      unitLimit := tx.unitLimit
      unitPrice := tx.unitPrice
      unitsConsumed := tx.unitsConsumed
      signature := tx.signature }
  else none

/-- What was logged, and the error with which `main` has returned, if it has. -/
structure Monitor where
  reports : List Report
  returned : Option String
  deriving DecidableEq, Repr

namespace Monitor

def init : Monitor where
  reports := []
  returned := none

/-- One turn of the loop of `main`. -/
def receive (monitor : Monitor) (message : Except String GeyserMessage) : Monitor :=
  if monitor.returned.isNone then
    match message with
    | .error error => { monitor with returned := some error }
    | .ok (.status _ _) => monitor
    | .ok (.slot block) =>
        { monitor with
          reports := monitor.reports ++ block.transactions.filterMap (check block.leader) }
  else monitor

/-- The monitor after it has received the messages. -/
def after (messages : List (Except String GeyserMessage)) : Monitor :=
  messages.foldl receive init

end Monitor

/-! ## What is expected -/

/-- The compute units that were asked for, at their price. -/
def product (tx : GeyserTransaction) : ℕ :=
  tx.unitLimit.toNat * tx.unitPrice.toNat

/-- The fee that is due: the price of the units, rounded up, and that of the signatures. -/
def dueFee (tx : GeyserTransaction) : ℕ :=
  product tx ⌈/⌉ 1000000 + 5000 * tx.sigsCount.toNat

theorem toNat_extraFee (tx : GeyserTransaction) :
    (extraFee tx).toNat = product tx % 2 ^ 64 := by
  rw [extraFee, UInt64.toNat_mul, UInt32.toNat_toUInt64, product]

theorem toNat_rounding (extra : UInt64) :
    (if 0 < extra % 1000000 then 1 else 0 : UInt64).toNat =
      if 0 < extra.toNat % 1000000 then 1 else 0 := by
  have hrest : 0 < extra % 1000000 ↔ 0 < extra.toNat % 1000000 := by
    rw [UInt64.lt_iff_toNat_lt, UInt64.toNat_mod]
    rfl
  by_cases hpositive : 0 < extra.toNat % 1000000
  · rw [if_pos (hrest.2 hpositive), if_pos hpositive]
    rfl
  · rw [if_neg (mt hrest.1 hpositive), if_neg hpositive]
    rfl

/-- The sum does not overflow, only the product may. -/
theorem toNat_expectedFee (tx : GeyserTransaction) :
    (expectedFee tx).toNat =
      (product tx % 2 ^ 64) ⌈/⌉ 1000000 + 5000 * tx.sigsCount.toNat := by
  have hsigs : tx.sigsCount.toNat < 2 ^ 32 := tx.sigsCount.toNat_lt
  rw [expectedFee, UInt64.toNat_add, UInt64.toNat_add, UInt64.toNat_div, UInt64.toNat_mul,
    UInt32.toNat_toUInt64, toNat_rounding, toNat_extraFee, Nat.ceilDiv_eq_add_pred_div]
  change (((product tx % 2 ^ 64 / 1000000 +
    if 0 < product tx % 2 ^ 64 % 1000000 then 1 else 0) % 2 ^ 64 +
      5000 * tx.sigsCount.toNat % 2 ^ 64) % 2 ^ 64) = _
  have hextra : product tx % 2 ^ 64 < 2 ^ 64 := Nat.mod_lt _ (by norm_num)
  generalize product tx % 2 ^ 64 = extra at hextra
  split <;> omega

/-- What is expected is due exactly if the product fits a word. -/
theorem expectedFee_eq_dueFee_iff (tx : GeyserTransaction) :
    (expectedFee tx).toNat = dueFee tx ↔ product tx < 2 ^ 64 := by
  rw [toNat_expectedFee, dueFee, Nat.ceilDiv_eq_add_pred_div, Nat.ceilDiv_eq_add_pred_div]
  omega

/-- A transaction is reported if its fee is not the one that is expected. -/
theorem isSome_check_iff (leader : Option Pubkey) (tx : GeyserTransaction) :
    (check leader tx).isSome = true ↔ expectedFee tx ≠ tx.fee := by
  rw [check]
  split
  · rename_i hne
    exact iff_of_true rfl hne
  · rename_i heq
    exact iff_of_false nofun heq

/-- The check is wrong exactly if the product overflows, and the fee is the one that is due
or the one that is expected instead. -/
theorem misjudged_iff (leader : Option Pubkey) (tx : GeyserTransaction) :
    ¬ ((check leader tx).isSome = true ↔ tx.fee.toNat ≠ dueFee tx) ↔
      2 ^ 64 ≤ product tx ∧ (tx.fee.toNat = dueFee tx ∨ tx.fee = expectedFee tx) := by
  rw [isSome_check_iff, ← not_lt, ← expectedFee_eq_dueFee_iff, ne_eq, eq_comm,
    ← UInt64.toNat_inj]
  omega

/-! ## The limits of the transactions -/

/-- A limit that the code takes is cut off. -/
def LimitCut (limit : Option UInt32) : Prop :=
  ∀ value ∈ limit, value.toNat ≤ 1_400_000

theorem toNat_cut_le (value : UInt32) : (min maxComputeUnitLimit value).toNat ≤ 1_400_000 := by
  rw [UInt32.toNat_min]
  exact min_le_left _ _

theorem limitCut_scanInstruction {programIds : ProgramIds}
    {deserializeBudget : List UInt8 → Option ComputeBudgetInstruction} {scan : InstructionScan}
    (h : LimitCut scan.unitLimit) (program : Option Pubkey) (data : List UInt8) :
    LimitCut (scanInstruction programIds deserializeBudget scan program data).unitLimit := by
  rw [scanInstruction]
  split
  · split
    · intro value hvalue
      rw [← Option.some.inj hvalue]
      exact toNat_cut_le _
    · exact h
    · exact h
  · split
    · exact h
    · exact h

theorem limitCut_scanInstructions (programIds : ProgramIds)
    (deserializeBudget : List UInt8 → Option ComputeBudgetInstruction)
    (tx : VersionedTransactionWithStatusMeta) :
    LimitCut (scanInstructions programIds deserializeBudget tx).unitLimit :=
  List.foldlRecOn _ _ (motive := fun scan : InstructionScan => LimitCut scan.unitLimit) nofun
    fun _ h ix _ => limitCut_scanInstruction h _ ix.data

/-- The limit of a decoded transaction is cut off, whether it is set or not. -/
theorem unitLimit_le_of_decodedFrom {Raw : Type} {decoders : Decoders Raw}
    {item : StreamItem Raw} {slot : Slot} {tx : GeyserTransaction}
    (h : DecodedFrom decoders item slot tx) : tx.unitLimit.toNat ≤ 1_400_000 := by
  obtain ⟨raw, decoded, -, -, htx⟩ := h
  obtain ⟨signature, accounts, -, -, rfl⟩ := transactionFrom_eq_ok_iff.1 htx
  dsimp only
  cases hlimit : (scanInstructions decoders.programIds decoders.deserializeBudget
      decoded).unitLimit with
  | none =>
      rw [Option.getD_none]
      exact toNat_cut_le _
  | some value =>
      rw [Option.getD_some]
      exact limitCut_scanInstructions _ _ decoded value hlimit

/-! ## What is reported -/

/-- The transactions that are checked, with the leaders of their blocks: those of the blocks
before the first error. -/
def checked (messages : List (Except String GeyserMessage)) :
    List (Option Pubkey × GeyserTransaction) :=
  (messages.takeWhile Except.isOk).flatMap fun
    | .ok (.slot block) => block.transactions.map fun tx => (block.leader, tx)
    | _ => []

theorem mem_checked {messages : List (Except String GeyserMessage)} {leader : Option Pubkey}
    {tx : GeyserTransaction} (h : (leader, tx) ∈ checked messages) :
    ∃ block ∈ blocksIn messages, tx ∈ block.transactions := by
  obtain ⟨message, hmessage, hpair⟩ := List.mem_flatMap.1 h
  split at hpair
  · rename_i block
    obtain ⟨_, htx, hsame⟩ := List.mem_map.1 hpair
    obtain ⟨-, rfl⟩ := Prod.mk.inj hsame
    exact ⟨block, List.mem_filterMap.2 ⟨_, (List.takeWhile_sublist _).subset hmessage, rfl⟩, htx⟩
  · cases hpair

/-- After an error nothing is received. -/
theorem foldl_receive_of_returned (messages : List (Except String GeyserMessage))
    {monitor : Monitor} (hreturned : monitor.returned.isNone = false) :
    messages.foldl Monitor.receive monitor = monitor := by
  induction messages with
  | nil => rfl
  | cons message messages ih =>
      have hkept : monitor.receive message = monitor := by
        rw [Monitor.receive.eq_def, hreturned]
        rfl
      rw [List.foldl_cons, hkept, ih]

/-- The reports of everything that is received until the first error. -/
theorem foldl_receive (messages : List (Except String GeyserMessage)) {monitor : Monitor}
    (hgoing : monitor.returned.isNone = true) :
    (messages.foldl Monitor.receive monitor).reports =
      monitor.reports ++ (checked messages).filterMap fun pair => check pair.1 pair.2 := by
  induction messages generalizing monitor with
  | nil => exact (List.append_nil _).symm
  | cons message messages ih =>
      rw [List.foldl_cons, Monitor.receive.eq_def, if_pos hgoing]
      match message with
      | .error error =>
          rw [foldl_receive_of_returned messages rfl]
          exact (List.append_nil _).symm
      | .ok (.status slot commitment) => exact ih hgoing
      | .ok (.slot block) =>
          rw [ih]
          · simp [checked, List.takeWhile_cons, Except.isOk, Except.toBool,
              List.filterMap_append, List.filterMap_map]
          · exact hgoing

/-- So low a price does not overflow, whatever the limit. -/
def maxFittingPrice : ℕ := 13_176_245_766_935

theorem product_lt_of_price {tx : GeyserTransaction} (hlimit : tx.unitLimit.toNat ≤ 1_400_000)
    (hprice : tx.unitPrice.toNat ≤ maxFittingPrice) : product tx < 2 ^ 64 :=
  (Nat.mul_le_mul hlimit hprice).trans_lt (by decide)

/-- **What the monitor reports.**  In every run of the geyser task, of what `txmon` has
received by any time it reports the transactions whose fee is not the one expected.  These
are the ones whose fee is not due, but for prices so high that the product overflows: then
the check is wrong where the fee is the one that is due, or the one that is expected. -/
theorem reports_undue_fees {Raw : Type} {decoders : Decoders Raw}
    {epochAndSlotIndex : Slot → Epoch × ℕ} {parse : String → Option Pubkey}
    {events : List (SubscriptionEvent Raw)} {final : Subscription}
    (hrun : run (step decoders epochAndSlotIndex parse) .init events = .ok final)
    {received : List (Except String GeyserMessage)} (hreceived : received <+: final.sent) :
    (Monitor.after received).reports =
      (checked received).filterMap (fun pair => check pair.1 pair.2) ∧
    ∀ leader tx, (leader, tx) ∈ checked received →
      (tx.unitPrice.toNat ≤ maxFittingPrice →
        ((check leader tx).isSome = true ↔ tx.fee.toNat ≠ dueFee tx)) ∧
      (¬ ((check leader tx).isSome = true ↔ tx.fee.toNat ≠ dueFee tx) ↔
        2 ^ 64 ≤ product tx ∧ (tx.fee.toNat = dueFee tx ∨ tx.fee = expectedFee tx)) := by
  refine ⟨foldl_receive received rfl, fun leader tx hchecked => ⟨fun hprice => ?_, ?_⟩⟩
  · obtain ⟨block, hblock, htx⟩ := mem_checked hchecked
    have hsent : block ∈ blocksIn final.sent := (hreceived.filterMap _).subset hblock
    obtain ⟨item, -, -, hdecoded⟩ := (allCameIn_of_run hrun).sent block hsent tx htx
    have hlimit := unitLimit_le_of_decodedFrom hdecoded
    by_contra hmisjudged
    exact absurd ((misjudged_iff leader tx).1 hmisjudged).1
      (not_le.2 (product_lt_of_price hlimit hprice))
  · exact misjudged_iff leader tx

/-- The fees of the sample are due, so nothing is reported. -/
theorem reports_undue_fees_fetched :
    ∃ final,
      run (step sampleDecoders normalEpochs parseSystemProgram) .init
        (fetchedFront ++ fetchedBack) = .ok final ∧
      ((checked final.sent).map fun pair => (pair.1, dueFee pair.2)) =
        [(none, 5000), (some 0, 5000)] ∧
      (Monitor.after final.sent).reports =
        (checked final.sent).filterMap (fun pair => check pair.1 pair.2) ∧
      ∀ leader tx, (leader, tx) ∈ checked final.sent →
        (tx.unitPrice.toNat ≤ maxFittingPrice →
          ((check leader tx).isSome = true ↔ tx.fee.toNat ≠ dueFee tx)) ∧
        (¬ ((check leader tx).isSome = true ↔ tx.fee.toNat ≠ dueFee tx) ↔
          2 ^ 64 ≤ product tx ∧ (tx.fee.toNat = dueFee tx ∨ tx.fee = expectedFee tx)) := by
  have hview : (run (step sampleDecoders normalEpochs parseSystemProgram) .init
      (fetchedFront ++ fetchedBack)).toOption.map (fun final : Subscription =>
        (checked final.sent).map fun pair => (pair.1, dueFee pair.2)) =
      some [(none, 5000), (some 0, 5000)] := by
    decide +kernel
  obtain ⟨final, hrun, hdue⟩ := exists_ok_of_view hview
  exact ⟨final, hrun, hdue, reports_undue_fees hrun List.prefix_rfl⟩

end Solfees.FeeMonitor
