import Solfees.Geyser.AccountRoles
import Solfees.Rpc.Fees

/-!
# Filters by account

A filter asks for accounts that a transaction writes and for accounts that it only
reads, and looks them up by bisection in the lists that came with the transaction.
The lists are in order and hold the roles of the message, so the filter counts the
transactions whose messages say so.
-/

namespace Solfees.AccountFilters

open Solfees.AccountRoles
open Solfees.Fees
open Solfees.Message
open Solfees.Transaction

/-- The transaction is not a vote, its message lets it write every `read_write` key,
and lets it read only every `read_only` key. -/
def Wanted (filter : SlotSubscribeFilter)
    (tx : VersionedTransactionWithStatusMeta × Bool) : Prop :=
  tx.2 = false ∧
    (∀ key ∈ filter.readWrite,
      IsWritable tx.1.transaction.message tx.1.statusMeta key) ∧
    ∀ key ∈ filter.readOnly, IsReadonly tx.1.transaction.message tx.1.statusMeta key

instance decidableWanted (filter : SlotSubscribeFilter)
    (tx : VersionedTransactionWithStatusMeta × Bool) : Decidable (Wanted filter tx) :=
  inferInstanceAs (Decidable (_ ∧ _))

section Matches

variable {programIds : ProgramIds}
  {deserializeBudget : List UInt8 → Option ComputeBudgetInstruction}
  {tx : VersionedTransactionWithStatusMeta × Bool} {transaction : GeyserTransaction}

/-- The filter looks up the roles of the message. -/
theorem matchesTransaction_iff (filter : SlotSubscribeFilter)
    (htransaction : transactionFrom programIds deserializeBudget tx.1 tx.2 =
      .ok transaction)
    (hroles : ∃ accounts,
      accountsFrom tx.1.transaction.message tx.1.statusMeta = .ok accounts ∧
      HasRoles tx.1.transaction.message tx.1.statusMeta accounts) :
    filter.matchesTransaction transaction = true ↔ Wanted filter tx := by
  obtain ⟨signature, accounts, -, haccounts, rfl⟩ :=
    transactionFrom_eq_ok_iff.1 htransaction
  obtain ⟨accounts', haccounts', hroles⟩ := hroles
  obtain rfl := Except.ok.inj (haccounts'.symm.trans haccounts)
  rw [SlotSubscribeFilter.matchesTransaction, Bool.and_eq_true, Bool.and_eq_true,
    SlotSubscribeFilter.filterPubkeys_iff hroles.writable_sorted,
    SlotSubscribeFilter.filterPubkeys_iff hroles.readable_sorted, Bool.not_eq_true',
    and_assoc]
  apply and_congr_right'
  apply and_congr
  · exact forall₂_congr fun key _ => hroles.writable key
  · exact forall₂_congr fun key _ => hroles.readable key

end Matches

/-- The transactions that a block was sent with. -/
def Extracted (programIds : ProgramIds)
    (deserializeBudget : List UInt8 → Option ComputeBudgetInstruction)
    (txs : List (VersionedTransactionWithStatusMeta × Bool))
    (transactions : List GeyserTransaction) : Prop :=
  List.Forall₂ (fun tx transaction =>
    transactionFrom programIds deserializeBudget tx.1 tx.2 = .ok transaction)
    txs transactions

/-- Over messages with sanitized headers and distinct keys, the accounts have the roles
that the header gives, and a filter counts the transactions that it wants. -/
theorem filters_count_roles {txs : List (VersionedTransactionWithStatusMeta × Bool)}
    (hsanitized : ∀ tx ∈ txs, Sanitized tx.1.transaction.message)
    (hdistinct : ∀ tx ∈ txs,
      (accountKeys tx.1.transaction.message tx.1.statusMeta).Nodup) :
    (∀ tx ∈ txs, ∃ accounts,
      accountsFrom tx.1.transaction.message tx.1.statusMeta = .ok accounts ∧
      HasRoles tx.1.transaction.message tx.1.statusMeta accounts) ∧
    ∀ programIds deserializeBudget (info : StreamsSlotInfo),
      Extracted programIds deserializeBudget txs info.transactions →
      ∀ filter, (info.filteredOutput filter).totalTransactionsFiltered =
        txs.countP fun tx => decide (Wanted filter tx) := by
  have hroles : ∀ tx ∈ txs, ∃ accounts,
      accountsFrom tx.1.transaction.message tx.1.statusMeta = .ok accounts ∧
      HasRoles tx.1.transaction.message tx.1.statusMeta accounts :=
    fun tx hmem => accountsFrom_hasRoles (hsanitized tx hmem) (hdistinct tx hmem)
  refine ⟨hroles, fun programIds deserializeBudget info hextracted filter => ?_⟩
  rw [StreamsSlotInfo.filteredOutput]
  dsimp only
  rw [StreamsSlotInfo.filteredFees, List.length_map, ← List.countP_eq_length_filter]
  generalize info.transactions = transactions at hextracted
  clear hsanitized hdistinct
  induction hextracted with
  | nil => rfl
  | @cons tx transaction txs transactions htransaction _ ih =>
      rw [List.countP_cons, List.countP_cons,
        ih fun tx' hmem => hroles tx' (List.mem_cons_of_mem _ hmem)]
      have hmatches := matchesTransaction_iff filter htransaction
        (hroles tx List.mem_cons_self)
      simp only [hmatches, decide_eq_true_iff]

/-! ## A transfer and a vote -/

/-- A transfer from account 1 to account 3, with the program 9 and the loaded account 5,
which it writes. -/
def transfer : VersionedTransactionWithStatusMeta :=
  ⟨⟨[77], ⟨⟨1, 0, 1⟩, [1, 3, 9], [⟨2, []⟩]⟩⟩, ⟨5000, ⟨[5], [4]⟩, some 150⟩⟩

/-- What the transfer is sent as; the program is a read-only account. -/
def transferred (vote : Bool) : GeyserTransaction :=
  ⟨77, vote, ⟨[1, 3, 5], [4, 9], [1], 1⟩, 1, 200_000, 0, some 150, 5000⟩

theorem transactionFrom_transfer (vote : Bool) :
    transactionFrom ⟨100, 101, 102⟩ (fun _ => none) transfer vote =
      .ok (transferred vote) := by
  have haccounts : accountsFrom transfer.transaction.message transfer.statusMeta =
      .ok ⟨[1, 3, 5], [4, 9], [1], 1⟩ := by
    decide
  have hscan : scanInstructions ⟨100, 101, 102⟩ (fun _ => none) transfer =
      ⟨none, 0, 1, 1⟩ := by
    decide
  have hlimit : min maxComputeUnitLimit (1 * defaultInstructionComputeUnitLimit) =
      200_000 := by
    decide
  apply transactionFrom_eq_ok_iff.2
  refine ⟨77, _, rfl, haccounts, ?_⟩
  rw [hscan, Option.getD_none, hlimit]
  rfl

/-- A slot with the transfer, once as a transaction and once as a vote. -/
def transferInfo : StreamsSlotInfo :=
  .new none 5 1 0 1 [transferred false, transferred true]

/-- The filter on the written accounts 1 and 5 and the read account 4 counts the
transfer, and not the vote. -/
theorem filters_count_roles_transfer :
    (∃ accounts, accountsFrom transfer.transaction.message transfer.statusMeta =
        .ok accounts ∧
      HasRoles transfer.transaction.message transfer.statusMeta accounts) ∧
    (transferInfo.filteredOutput ⟨[1, 5], [4], []⟩).totalTransactionsFiltered =
      [(transfer, false), (transfer, true)].countP fun tx =>
        decide (Wanted ⟨[1, 5], [4], []⟩ tx) := by
  have hsanitized : ∀ tx ∈ [(transfer, false), (transfer, true)],
      Sanitized tx.1.transaction.message := by
    have htransfer : Sanitized transfer.transaction.message := ⟨by decide, by decide⟩
    simp [htransfer]
  have hdistinct : ∀ tx ∈ [(transfer, false), (transfer, true)],
      (accountKeys tx.1.transaction.message tx.1.statusMeta).Nodup := by
    decide
  have hextracted : Extracted ⟨100, 101, 102⟩ (fun _ => none)
      [(transfer, false), (transfer, true)] transferInfo.transactions :=
    .cons (transactionFrom_transfer false) (.cons (transactionFrom_transfer true) .nil)
  obtain ⟨hroles, hcounts⟩ := filters_count_roles hsanitized hdistinct
  exact ⟨hroles _ List.mem_cons_self, hcounts _ _ transferInfo hextracted _⟩

end Solfees.AccountFilters
