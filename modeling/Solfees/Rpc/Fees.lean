import Solfees.Core.BinarySearch
import Solfees.Core.Draining
import Solfees.Rpc.Json

/-!
# Prioritization fees of a slot

What the update loop remembers of a block for `getRecentPrioritizationFees`:
the sorted fees for the Solana and Triton requests, and the transactions
themselves for the filters of the Solfees requests.  Sums of `u64` wrap, as in
the release profile.
-/

namespace Solfees.Fees

open Solfees.BinarySearch
open Solfees.Draining
open Solfees.Json
open Solfees.Message

/-- `sort_unstable` on a list of prices. -/
def sortPrices (fees : List UInt64) : List UInt64 :=
  fees.insertionSort (· ≤ ·)

/-! ## Fees indexed by account -/

structure RecentPrioritizationFeesSlot where
  transactionFees : List UInt64
  writableAccountFees : OrderedMap Pubkey (List UInt64)

namespace RecentPrioritizationFeesSlot

/-- `writable_account_fees.entry(account).or_default().push(price)`. -/
def pushAccountFee (price : UInt64)
    (fees : OrderedMap Pubkey (List UInt64)) (account : Pubkey) :
    OrderedMap Pubkey (List UInt64) :=
  fees.insert account (fees[account]?.getD [] ++ [price])

/-- `RecentPrioritizationFeesSlot::create`. -/
def create (transactions : List GeyserTransaction) :
    RecentPrioritizationFeesSlot :=
  let counted := transactions.filter fun tx => !tx.vote
  let transactionFees := counted.map (·.unitPrice)
  let writableAccountFees := counted.foldl
    (fun fees tx => tx.accounts.writable.foldl (pushAccountFee tx.unitPrice) fees)
    (∅ : OrderedMap Pubkey (List UInt64))
  { transactionFees := sortPrices transactionFees
    writableAccountFees := writableAccountFees.map fun _ fees => sortPrices fees }

/-- `RecentPrioritizationFeesSlot::get_percentile`. -/
def getPercentile (fees : List UInt64) (percentile : UInt16) : Option UInt64 :=
  fees[min percentile.toNat 9999 * fees.length / 10000]?

/-- `RecentPrioritizationFeesSlot::get_with_percentile`. -/
def getWithPercentile (fees : List UInt64) :
    Option UInt16 → Option UInt64
  | some percentile => getPercentile fees percentile
  | none => fees.head?

/-- One round of the loop over `account_keys` in `get_fee`. -/
def raiseFee (slotFees : RecentPrioritizationFeesSlot)
    (percentile : Option UInt16) (fee : UInt64) (accountKey : Pubkey) : UInt64 :=
  match slotFees.writableAccountFees[accountKey]? with
  | none => fee
  | some fees =>
      match getWithPercentile fees percentile with
      | none => fee
      | some accountFee => max fee accountFee

/-- `RecentPrioritizationFeesSlot::get_fee`. -/
def getFee (slotFees : RecentPrioritizationFeesSlot) (accountKeys : List Pubkey)
    (percentile : Option UInt16) : UInt64 :=
  accountKeys.foldl (raiseFee slotFees percentile)
    ((getWithPercentile slotFees.transactionFees percentile).getD 0)

end RecentPrioritizationFeesSlot

/-! ## Filters -/

structure SlotSubscribeFilter where
  readWrite : List Pubkey
  readOnly : List Pubkey
  levels : List UInt16
  deriving DecidableEq, Repr

/-- `SlotSubscribeFilter::filter_pubkeys`. -/
def SlotSubscribeFilter.filterPubkeys (required pubkeys : List Pubkey) : Bool :=
  required.isEmpty || required.all fun pubkey => binarySearch pubkeys pubkey

/-- On a sorted list the filter asks for every required key. -/
theorem SlotSubscribeFilter.filterPubkeys_iff {pubkeys : List Pubkey}
    (hsorted : pubkeys.Pairwise (· < ·)) (required : List Pubkey) :
    filterPubkeys required pubkeys = true ↔ required ⊆ pubkeys := by
  rw [filterPubkeys, Bool.or_eq_true, List.isEmpty_iff, List.all_eq_true]
  constructor
  · rintro (rfl | hall)
    · exact List.nil_subset pubkeys
    · exact fun pubkey hmem => (binarySearch_iff_mem hsorted pubkey).1 (hall pubkey hmem)
  · intro hsub
    right
    exact fun pubkey hmem => (binarySearch_iff_mem hsorted pubkey).2 (hsub hmem)

/-- The filter predicate of `StreamsSlotInfo::get_filtered`. -/
def SlotSubscribeFilter.matchesTransaction (filter : SlotSubscribeFilter)
    (tx : GeyserTransaction) : Bool :=
  !tx.vote && filterPubkeys filter.readWrite tx.accounts.writable &&
    filterPubkeys filter.readOnly tx.accounts.readable

/-! ## What is kept of a slot -/

structure StreamsSlotInfo where
  leader : Option Pubkey
  slot : Slot
  commitment : CommitmentLevel
  hash : Hash
  time : UnixTimestamp
  height : Height
  transactions : List GeyserTransaction
  totalTransactionsVote : ℕ
  fees : RecentPrioritizationFeesSlot
  totalFee : UInt64
  totalUnitsConsumed : UInt64

namespace StreamsSlotInfo

/-- `StreamsSlotInfo::new`. -/
def new (leader : Option Pubkey) (slot : Slot) (hash : Hash)
    (time : UnixTimestamp) (height : Height)
    (transactions : List GeyserTransaction) : StreamsSlotInfo where
  leader := leader
  slot := slot
  commitment := .processed
  hash := hash
  time := time
  height := height
  transactions := transactions
  totalTransactionsVote := transactions.countP (·.vote)
  fees := .create transactions
  totalFee := (transactions.map (·.fee)).sum
  totalUnitsConsumed :=
    ((transactions.filter fun tx => !tx.vote).map
      fun tx => tx.unitsConsumed.getD 0).sum

/-- `info.commitment = commitment` through `slots_info.get_mut`. -/
def setCommitment (commitment : CommitmentLevel) (info : StreamsSlotInfo) :
    StreamsSlotInfo :=
  { info with commitment := commitment }

/-- The prices that pass the filter, in block order. -/
def filteredFees (info : StreamsSlotInfo) (filter : SlotSubscribeFilter) :
    List UInt64 :=
  (info.transactions.filter filter.matchesTransaction).map (·.unitPrice)

/-- The fields of the output of `StreamsSlotInfo::get_filtered`. -/
def filteredOutput (filter : SlotSubscribeFilter) (info : StreamsSlotInfo) :
    SlotOutput :=
  let fees := info.filteredFees filter
  let totalTransactionsFiltered := fees.length
  { leader := info.leader
    slot := info.slot
    commitment := info.commitment
    hash := info.hash
    time := info.time
    height := info.height
    totalTransactionsFiltered := totalTransactionsFiltered
    totalTransactionsVote := info.totalTransactionsVote
    totalTransactions := info.transactions.length
    feeAverage :=
      if totalTransactionsFiltered = 0 then .zero
      else .quotient fees.sum totalTransactionsFiltered
    feeLevels :=
      if filter.levels.isEmpty then []
      else filter.levels.map
        (RecentPrioritizationFeesSlot.getPercentile (sortPrices fees))
    totalFee := info.totalFee
    totalUnitsConsumed := info.totalUnitsConsumed }

/-- `StreamsSlotInfo::get_filtered`. -/
def getFiltered (info : StreamsSlotInfo) (filter : SlotSubscribeFilter) :
    SlotsSubscribeOutput :=
  .slot (info.filteredOutput filter)

end StreamsSlotInfo

end Solfees.Fees
