import Solfees.Core.Indexing
import Solfees.Rpc.Fees

/-!
# The two fee paths agree

`getRecentPrioritizationFees` reads fees that were grouped by account and sorted
when the block arrived; the Solfees requests filter the transactions and sort on
every request.  Both take the same percentile of the same prices.
-/

namespace Solfees.FeePaths

open Std (ExtTreeMap)
open Solfees.BinarySearch
open Solfees.Draining
open Solfees.Fees
open Solfees.Indexing
open Solfees.Json
open Solfees.Message

/-- The order of prices, with the words' own `max` and `min`. -/
instance priceOrder : LinearOrder UInt64 where
  le_refl := UInt64.le_refl
  le_trans _ _ _ := UInt64.le_trans
  le_antisymm _ _ := UInt64.le_antisymm
  lt_iff_le_not_ge a b := by
    rw [UInt64.not_le]
    exact ⟨fun h => ⟨UInt64.le_of_lt h, h⟩, fun h => h.2⟩
  le_total := UInt64.le_total
  toDecidableLE := inferInstance
  max_def _ _ := rfl
  min_def _ _ := rfl

/-- The transactions that are not votes and write every key of the list. -/
def writersOf (readWrite : List Pubkey) (transactions : List GeyserTransaction) :
    List GeyserTransaction :=
  transactions.filter fun tx =>
    !tx.vote && decide (∀ key ∈ readWrite, key ∈ tx.accounts.writable)

def pricesOf (transactions : List GeyserTransaction) : List UInt64 :=
  transactions.map (·.unitPrice)

/-! ## The indexed path -/

section Indexed

variable {transactions : List GeyserTransaction}

theorem transactionFees_create (transactions : List GeyserTransaction) :
    (RecentPrioritizationFeesSlot.create transactions).transactionFees =
      sortPrices (pricesOf (writersOf [] transactions)) := by
  rw [RecentPrioritizationFeesSlot.create]
  simp [pricesOf, writersOf]

/-- The indexed fees of an account are the sorted prices of its writers. -/
theorem valuesAt_create
    (hsorted : ∀ tx ∈ transactions, tx.accounts.writable.Pairwise (· < ·))
    (key : Pubkey) :
    valuesAt (RecentPrioritizationFeesSlot.create transactions).writableAccountFees key =
      sortPrices (pricesOf (writersOf [key] transactions)) := by
  have hnodup : ∀ tx ∈ transactions.filter fun tx => !tx.vote,
      tx.accounts.writable.Nodup :=
    fun tx hmem => (hsorted tx (List.mem_of_mem_filter hmem)).imp fun h => h.ne
  have hindex : valuesAt (indexBy _ GeyserTransaction.unitPrice ∅ _) key = _ :=
    valuesAt_indexBy hnodup ∅ key
  rw [valuesAt_empty, List.nil_append, List.filter_filter] at hindex
  rw [RecentPrioritizationFeesSlot.create]
  dsimp only
  rw [valuesAt_map sortPrices rfl]
  congr 1
  rw [pricesOf, writersOf]
  refine Eq.trans hindex ?_
  congr 1
  apply List.filter_congr
  intro tx _
  simp [Bool.and_comm]

theorem getWithPercentile_nil (percentile : Option UInt16) :
    RecentPrioritizationFeesSlot.getWithPercentile [] percentile = none := by
  cases percentile <;> rfl

/-- A round of the loop over the accounts takes the maximum with the fee of the
account, which is 0 if there is none. -/
theorem raiseFee_eq (slotFees : RecentPrioritizationFeesSlot)
    (percentile : Option UInt16) (fee : UInt64) (key : Pubkey) :
    slotFees.raiseFee percentile fee key =
      max fee ((RecentPrioritizationFeesSlot.getWithPercentile
        (valuesAt slotFees.writableAccountFees key) percentile).getD 0) := by
  have hzero : max fee 0 = fee := max_eq_left UInt64.zero_le
  rw [RecentPrioritizationFeesSlot.raiseFee, valuesAt]
  cases slotFees.writableAccountFees[key]? with
  | none => rw [Option.getD_none, getWithPercentile_nil, Option.getD_none, hzero]
  | some fees =>
      rw [Option.getD_some]
      dsimp only
      cases RecentPrioritizationFeesSlot.getWithPercentile fees percentile with
      | none => exact hzero.symm
      | some accountFee => rfl

/-- What a percentile picks from the sorted prices, 0 if it picks nothing. -/
def feeAmong (percentile : Option UInt16) (transactions : List GeyserTransaction) :
    UInt64 :=
  (RecentPrioritizationFeesSlot.getWithPercentile (sortPrices (pricesOf transactions))
    percentile).getD 0

/-- The indexed fee is the greatest fee among all transactions and among the
writers of each key. -/
theorem isGreatest_getFee
    (hsorted : ∀ tx ∈ transactions, tx.accounts.writable.Pairwise (· < ·))
    (keys : List Pubkey) (percentile : Option UInt16) :
    IsGreatest {fee | ∃ readWrite ∈ [] :: keys.map fun key => [key],
        fee = feeAmong percentile (writersOf readWrite transactions)}
      ((RecentPrioritizationFeesSlot.create transactions).getFee keys percentile) := by
  have hfee : (RecentPrioritizationFeesSlot.create transactions).getFee keys percentile =
      keys.foldl
        (fun fee key => max fee (feeAmong percentile (writersOf [key] transactions)))
        (feeAmong percentile (writersOf [] transactions)) := by
    rw [RecentPrioritizationFeesSlot.getFee, transactionFees_create]
    congr 1
    funext fee key
    rw [raiseFee_eq, valuesAt_create hsorted]
    rfl
  rw [hfee]
  simp only [List.mem_cons, List.mem_map, exists_eq_or_imp, exists_exists_and_eq_and]
  exact isGreatest_foldl_max _ _ keys

end Indexed

/-! ## The scanning path -/

theorem filteredFees_eq {info : StreamsSlotInfo}
    (hsorted : ∀ tx ∈ info.transactions, tx.accounts.writable.Pairwise (· < ·))
    (readWrite : List Pubkey) (levels : List UInt16) :
    info.filteredFees ⟨readWrite, [], levels⟩ =
      pricesOf (writersOf readWrite info.transactions) := by
  rw [StreamsSlotInfo.filteredFees, pricesOf, writersOf]
  congr 1
  apply List.filter_congr
  intro tx hmem
  have hfilter := SlotSubscribeFilter.filterPubkeys_iff (hsorted tx hmem) readWrite
  have hreadOnly : SlotSubscribeFilter.filterPubkeys [] tx.accounts.readable = true := rfl
  rw [SlotSubscribeFilter.matchesTransaction, hreadOnly, Bool.and_true, Bool.eq_iff_iff,
    Bool.and_eq_true, Bool.and_eq_true, hfilter, decide_eq_true_iff]
  rfl

/-- The one fee level that a filter on written keys reports. -/
def feeLevel (info : StreamsSlotInfo) (readWrite : List Pubkey) (percentile : UInt16) :
    Option UInt64 :=
  RecentPrioritizationFeesSlot.getPercentile
    (sortPrices (info.filteredFees ⟨readWrite, [], [percentile]⟩)) percentile

theorem getFiltered_feeLevel (info : StreamsSlotInfo) (readWrite : List Pubkey)
    (percentile : UInt16) :
    ∃ output, info.getFiltered ⟨readWrite, [], [percentile]⟩ = .slot output ∧
      output.feeLevels = [feeLevel info readWrite percentile] :=
  ⟨_, rfl, rfl⟩

/-! ## Agreement -/

/-- The least price of some transactions, 0 if there are none. -/
def leastPrice (transactions : List GeyserTransaction) : UInt64 :=
  (pricesOf transactions).min?.getD 0

/-- The fee for some keys at a percentile is the greatest of the fee levels that
the filters on no key and on each key report; without a percentile it is the
greatest of the least prices of all transactions and of the writers of each
key. -/
theorem fee_paths_agree {transactions : List GeyserTransaction}
    (hsorted : ∀ tx ∈ transactions, tx.accounts.writable.Pairwise (· < ·))
    (leader : Option Pubkey) (slot : Slot) (hash : Hash) (time : UnixTimestamp)
    (height : Height) (keys : List Pubkey) :
    (∀ percentile : UInt16, ∃ level : List Pubkey → Option UInt64,
      (∀ readWrite, ∃ output,
        (StreamsSlotInfo.new leader slot hash time height transactions).getFiltered
          ⟨readWrite, [], [percentile]⟩ = .slot output ∧
        output.feeLevels = [level readWrite]) ∧
      IsGreatest {fee | ∃ readWrite ∈ [] :: keys.map fun key => [key],
          fee = (level readWrite).getD 0}
        ((RecentPrioritizationFeesSlot.create transactions).getFee keys
          (some percentile))) ∧
    IsGreatest {fee | ∃ readWrite ∈ [] :: keys.map fun key => [key],
        fee = leastPrice (writersOf readWrite transactions)}
      ((RecentPrioritizationFeesSlot.create transactions).getFee keys none) := by
  constructor
  · intro percentile
    refine ⟨fun readWrite => feeLevel
        (StreamsSlotInfo.new leader slot hash time height transactions) readWrite
        percentile,
      fun readWrite => getFiltered_feeLevel _ readWrite percentile, ?_⟩
    have hlevel (readWrite : List Pubkey) : (feeLevel
        (StreamsSlotInfo.new leader slot hash time height transactions) readWrite
        percentile).getD 0 =
          feeAmong (some percentile) (writersOf readWrite transactions) := by
      rw [feeLevel, filteredFees_eq hsorted]
      rfl
    simp only [hlevel]
    exact isGreatest_getFee hsorted keys (some percentile)
  · have hleast (readWrite : List Pubkey) :
        leastPrice (writersOf readWrite transactions) =
          feeAmong none (writersOf readWrite transactions) := by
      rw [leastPrice, ← head?_insertionSort]
      rfl
    simp only [hleast]
    exact isGreatest_getFee hsorted keys none

/-- A vote, and two transactions of which the second writes account 1. -/
def threeTransactions : List GeyserTransaction :=
  [⟨1, true, ⟨[1, 2], [], [], 1⟩, 1, 0, 9, none, 0⟩,
    ⟨2, false, ⟨[2], [], [], 2⟩, 1, 0, 3, none, 0⟩,
    ⟨3, false, ⟨[1, 3], [], [], 3⟩, 1, 0, 7, none, 0⟩]

/-- The least price of all is 3, that of the writers of account 1 is 7. -/
theorem fee_paths_agree_threeTransactions :
    IsGreatest {fee | ∃ readWrite ∈ [[], [1]],
        fee = leastPrice (writersOf readWrite threeTransactions)}
      ((RecentPrioritizationFeesSlot.create threeTransactions).getFee [1] none) := by
  have hsorted : ∀ tx ∈ threeTransactions, tx.accounts.writable.Pairwise (· < ·) := by
    decide
  exact (fee_paths_agree hsorted none 5 1 0 1 [1]).2

end Solfees.FeePaths
