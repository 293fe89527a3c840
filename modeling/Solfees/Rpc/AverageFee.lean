import Solfees.Core.WordSum
import Solfees.Rpc.Fees

/-!
# The sum behind the average fee

`StreamsSlotInfo::get_filtered` adds the prices that pass the filter in a `u64` before
it divides.  Any sender chooses the price of a transaction, so the sum need not fit:
two transactions are enough.
-/

namespace Solfees.AverageFee

open Solfees.Fees
open Solfees.Json
open Solfees.Message
open Solfees.WordSum

/-- The mathematical sum of the prices of some transactions. -/
def priceSum (transactions : List GeyserTransaction) : ℕ :=
  (transactions.map fun tx => tx.unitPrice.toNat).sum

/-- The sum that is divided, if one is, is the mathematical sum of the prices of the
transactions that match, and a checked build reaches it. -/
def DividesTrueSum (info : StreamsSlotInfo) (filter : SlotSubscribeFilter) : Prop :=
  ∀ sum total, (info.filteredOutput filter).feeAverage = .quotient sum total →
    sum.toNat = priceSum (info.transactions.filter filter.matchesTransaction) ∧
      checkedSum (info.filteredFees filter) = some sum

theorem total_eq_priceSum (transactions : List GeyserTransaction) :
    total (transactions.map (·.unitPrice)) = priceSum transactions := by
  rw [total, priceSum, List.map_map]
  rfl

theorem dividesTrueSum_iff (info : StreamsSlotInfo) (filter : SlotSubscribeFilter) :
    DividesTrueSum info filter ↔
      priceSum (info.transactions.filter filter.matchesTransaction) < 2 ^ 64 := by
  have htotal : total (info.filteredFees filter) =
      priceSum (info.transactions.filter filter.matchesTransaction) :=
    total_eq_priceSum _
  rw [DividesTrueSum, ← htotal, StreamsSlotInfo.filteredOutput]
  dsimp only
  by_cases hnone : (info.filteredFees filter).length = 0
  · rw [if_pos hnone, List.length_eq_zero_iff.1 hnone]
    apply iff_of_true
    · exact fun sum count h => by cases h
    · exact Nat.two_pow_pos 64
  · rw [if_neg hnone, ← toNat_sum_eq_iff]
    constructor
    · exact fun h => (h _ _ rfl).1
    · rintro hsum _ _ ⟨⟩
      refine ⟨hsum, ?_⟩
      rw [checkedSum_eq, if_pos ((toNat_sum_eq_iff _).1 hsum)]

/-- A filter passes fewer transactions than the empty one, which passes all that are
not votes. -/
theorem priceSum_matches_le (transactions : List GeyserTransaction)
    (filter : SlotSubscribeFilter) :
    priceSum (transactions.filter filter.matchesTransaction) ≤
      priceSum (transactions.filter fun tx => !tx.vote) := by
  rw [← total_eq_priceSum, ← total_eq_priceSum]
  apply total_le_of_sublist
  apply List.Sublist.map
  apply List.monotone_filter_right
  intro tx hmatches
  rw [SlotSubscribeFilter.matchesTransaction, Bool.and_eq_true, Bool.and_eq_true] at hmatches
  exact hmatches.1.1

/-- The average is taken from the mathematical sum exactly when the prices of the
transactions that match add up to less than 2^64, and for every filter exactly when
those of all transactions but the votes do. -/
theorem average_divides_trueSum_iff (info : StreamsSlotInfo) :
    (∀ filter, DividesTrueSum info filter ↔
      priceSum (info.transactions.filter filter.matchesTransaction) < 2 ^ 64) ∧
    ((∀ filter, DividesTrueSum info filter) ↔
      priceSum (info.transactions.filter fun tx => !tx.vote) < 2 ^ 64) := by
  refine ⟨dividesTrueSum_iff info, ?_⟩
  constructor
  · intro hall
    have hempty := (dividesTrueSum_iff info ⟨[], [], []⟩).1 (hall _)
    apply lt_of_eq_of_lt _ hempty
    congr 1
    apply List.filter_congr
    intro tx _
    simp [SlotSubscribeFilter.matchesTransaction, SlotSubscribeFilter.filterPubkeys]
  · intro hfits filter
    apply (dividesTrueSum_iff info filter).2
    exact (priceSum_matches_le info.transactions filter).trans_lt hfits

/-- Two transactions with a price of 2^63. -/
def halfWordPrices : StreamsSlotInfo :=
  .new none 5 1 0 1
    [⟨1, false, ⟨[1], [], [1], 1⟩, 1, 0, 0x8000000000000000, none, 5000⟩,
      ⟨2, false, ⟨[2], [], [2], 2⟩, 1, 0, 0x8000000000000000, none, 5000⟩]

/-- Their prices add up to 2^64; the sum wraps to 0, and a checked build stops. -/
theorem average_of_wrapped_sum :
    priceSum (halfWordPrices.transactions.filter
        (SlotSubscribeFilter.matchesTransaction ⟨[], [], []⟩)) = 2 ^ 64 ∧
      (halfWordPrices.filteredOutput ⟨[], [], []⟩).feeAverage = .quotient 0 2 ∧
      checkedSum (halfWordPrices.filteredFees ⟨[], [], []⟩) = none := by
  decide

end Solfees.AverageFee
