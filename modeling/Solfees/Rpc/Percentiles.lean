import Solfees.Core.OrderStatistics
import Solfees.Rpc.FeePaths

/-!
# Percentiles

A percentile is given in hundredths of a percent, clamped to 9999, and picks an entry of
the sorted fees by a truncating division.  The entry has the rank that the division says,
and the levels of a filter come in the order in which they were asked for.
-/

namespace Solfees.Percentiles

open Solfees.FeePaths
open Solfees.Fees
open Solfees.Json
open Solfees.Message
open Solfees.OrderStatistics
open RecentPrioritizationFeesSlot (getPercentile)

/-- The rank that a percentile asks for among so many fees. -/
def rankOf (percentile : UInt16) (count : ℕ) : ℕ :=
  min percentile.toNat 9999 * count / 10000

theorem getPercentile_eq (fees : List UInt64) (percentile : UInt16) :
    getPercentile fees percentile = fees[rankOf percentile fees.length]? :=
  rfl

theorem clamped_le (percentile : UInt16) (count : ℕ) :
    min percentile.toNat 9999 * count ≤ 9999 * count :=
  Nat.mul_le_mul_right count (min_le_right _ _)

theorem rankOf_lt (percentile : UInt16) {count : ℕ} (hpos : 0 < count) :
    rankOf percentile count < count := by
  have hle := clamped_le percentile count
  rw [rankOf]
  generalize min percentile.toNat 9999 * count = product at hle
  omega

theorem rankOf_mono {low high : UInt16} (hle : low ≤ high) (count : ℕ) :
    rankOf low count ≤ rankOf high count := by
  apply Nat.div_le_div_right
  apply Nat.mul_le_mul_right
  exact min_le_min_right 9999 (UInt16.le_iff_toNat_le.1 hle)

/-- What makes a percentile the order statistic of its rank. -/
structure IsOrderStatistic (fees : List UInt64) (percentile : UInt16) (fee : UInt64) :
    Prop where
  mem : fee ∈ fees
  below : fees.countP (fun other => decide (other < fee)) ≤ rankOf percentile fees.length
  upTo : rankOf percentile fees.length < fees.countP (fun other => decide (other ≤ fee))

theorem getPercentile_isSome {fees : List UInt64} (hfees : fees ≠ []) (percentile : UInt16) :
    ∃ fee, getPercentile fees percentile = some fee := by
  have hrank := rankOf_lt percentile (List.length_pos_iff.2 hfees)
  exact ⟨_, List.getElem?_eq_getElem hrank⟩

theorem isOrderStatistic {fees : List UInt64} (hsorted : fees.Pairwise (· ≤ ·))
    {percentile : UInt16} {fee : UInt64} (hget : getPercentile fees percentile = some fee) :
    IsOrderStatistic fees percentile fee where
  mem := List.mem_of_getElem? hget
  below := by
    -- the words decide `<` on their own, not through the order
    have hbelow : fees.countP _ ≤ rankOf percentile fees.length :=
      countP_lt_le hsorted hget
    convert hbelow
  upTo := lt_countP_le hsorted hget

/-! ## What a percentile of sorted fees is -/

/-- The percentiles of some fees: there is none exactly if there are no fees, each is
the order statistic of its rank, they rise, and they go from the least fee to the
greatest if there are at most 10000; and no product overflows a `usize`. -/
structure AreOrderStatistics (fees : List UInt64) : Prop where
  none_iff : ∀ percentile, getPercentile fees percentile = none ↔ fees = []
  statistic : ∀ percentile fee, getPercentile fees percentile = some fee →
    IsOrderStatistic fees percentile fee
  rises : ∀ low high fee fee', low ≤ high → getPercentile fees low = some fee →
    getPercentile fees high = some fee' → fee ≤ fee'
  least : ∀ fee, getPercentile fees 0 = some fee → IsLeast {other | other ∈ fees} fee
  greatest : ∀ percentile fee, 9999 ≤ percentile → fees.length ≤ 10000 →
    getPercentile fees percentile = some fee → IsGreatest {other | other ∈ fees} fee
  product : ∀ percentile : UInt16, min percentile.toNat 9999 * fees.length < 2 ^ 64

theorem getPercentile_eq_none_iff (fees : List UInt64) (percentile : UInt16) :
    getPercentile fees percentile = none ↔ fees = [] := by
  constructor
  · intro hnone
    by_contra hfees
    obtain ⟨fee, hget⟩ := getPercentile_isSome hfees percentile
    rw [hnone] at hget
    cases hget
  · rintro rfl
    exact List.getElem?_nil

theorem getPercentile_mono {fees : List UInt64} (hsorted : fees.Pairwise (· ≤ ·))
    {low high : UInt16} (hle : low ≤ high) {fee fee' : UInt64}
    (hlow : getPercentile fees low = some fee) (hhigh : getPercentile fees high = some fee') :
    fee ≤ fee' :=
  getElem?_mono hsorted (rankOf_mono hle fees.length) hlow hhigh

/-- At most 10000 fees are not enough for the clamped percentile to miss the last. -/
theorem rankOf_clamped {percentile : UInt16} (hclamped : 9999 ≤ percentile) {count : ℕ}
    (hcount : count ≤ 10000) : rankOf percentile count = count - 1 := by
  have hmin : min percentile.toNat 9999 = 9999 :=
    min_eq_right (UInt16.le_iff_toNat_le.1 hclamped)
  rw [rankOf, hmin]
  omega

theorem areOrderStatistics {fees : List UInt64} (hsorted : fees.Pairwise (· ≤ ·))
    (hlength : fees.length < 2 ^ 50) : AreOrderStatistics fees where
  none_iff := getPercentile_eq_none_iff fees
  statistic := fun _ _ hget => isOrderStatistic hsorted hget
  rises := fun _ _ _ _ hle hlow hhigh => getPercentile_mono hsorted hle hlow hhigh
  least := by
    intro fee hget
    apply isLeast_of_first hsorted
    rwa [getPercentile_eq, rankOf, UInt16.toNat_zero, Nat.zero_min, Nat.zero_mul,
      Nat.zero_div] at hget
  greatest := by
    intro percentile fee hclamped hcount hget
    apply isGreatest_of_last hsorted
    rwa [getPercentile_eq, rankOf_clamped hclamped hcount] at hget
  product := by
    intro percentile
    have hle := clamped_le percentile fees.length
    omega

/-! ## The levels of a filter -/

section Levels

variable (info : StreamsSlotInfo) (filter : SlotSubscribeFilter)

theorem feeLevels_eq : (info.filteredOutput filter).feeLevels =
    filter.levels.map (getPercentile (sortPrices (info.filteredFees filter))) := by
  rw [StreamsSlotInfo.filteredOutput]
  dsimp only
  cases filter.levels with
  | nil => rfl
  | cons level levels => rfl

/-- The levels are as many as were asked for and in the same order, and they are either
all missing, for want of a transaction that matches, or all prices of transactions that
match. -/
structure LevelsAsAsked : Prop where
  length : (info.filteredOutput filter).feeLevels.length = filter.levels.length
  ordered : ∀ (i j : ℕ) (low high : UInt16) (fee fee' : UInt64),
    filter.levels[i]? = some low → filter.levels[j]? = some high → low ≤ high →
    (info.filteredOutput filter).feeLevels[i]? = some (some fee) →
    (info.filteredOutput filter).feeLevels[j]? = some (some fee') → fee ≤ fee'
  actual : (info.transactions.filter filter.matchesTransaction = [] ∧
      ∀ level ∈ (info.filteredOutput filter).feeLevels, level = none) ∨
    (info.transactions.filter filter.matchesTransaction ≠ [] ∧
      ∀ level ∈ (info.filteredOutput filter).feeLevels,
        ∃ tx ∈ info.transactions.filter filter.matchesTransaction,
          level = some tx.unitPrice)

theorem sortPrices_sorted (fees : List UInt64) : (sortPrices fees).Pairwise (· ≤ ·) :=
  List.pairwise_insertionSort _ _

theorem mem_sortPrices {fees : List UInt64} {fee : UInt64} :
    fee ∈ sortPrices fees ↔ fee ∈ fees :=
  List.mem_insertionSort _

theorem levelsAsAsked : LevelsAsAsked info filter where
  length := by
    rw [feeLevels_eq, List.length_map]
  ordered := by
    intro i j low high fee fee' hlow hhigh hle hfee hfee'
    rw [feeLevels_eq, List.getElem?_map, hlow] at hfee
    rw [feeLevels_eq, List.getElem?_map, hhigh] at hfee'
    exact getPercentile_mono (sortPrices_sorted _) hle (Option.some.inj hfee)
      (Option.some.inj hfee')
  actual := by
    rw [feeLevels_eq]
    by_cases hnone : info.transactions.filter filter.matchesTransaction = []
    · left
      refine ⟨hnone, fun level hmem => ?_⟩
      obtain ⟨percentile, -, rfl⟩ := List.mem_map.1 hmem
      rw [StreamsSlotInfo.filteredFees, hnone]
      rfl
    · right
      have hfees : sortPrices (info.filteredFees filter) ≠ [] := by
        obtain ⟨tx, htx⟩ := List.exists_mem_of_ne_nil _ hnone
        apply List.ne_nil_of_mem
        exact mem_sortPrices.2 (List.mem_map_of_mem htx)
      refine ⟨hnone, fun level hmem => ?_⟩
      obtain ⟨percentile, -, rfl⟩ := List.mem_map.1 hmem
      obtain ⟨fee, hget⟩ := getPercentile_isSome hfees percentile
      obtain ⟨tx, htx, rfl⟩ := List.mem_map.1
        (mem_sortPrices.1 (isOrderStatistic (sortPrices_sorted _) hget).mem)
      exact ⟨tx, htx, hget⟩

end Levels

/-- The percentiles of sorted fees are their order statistics, and so the levels of a
filter come in the order of the percentiles asked for, each a price of a transaction
that matches. -/
theorem percentiles_are_order_statistics {fees : List UInt64}
    (hsorted : fees.Pairwise (· ≤ ·)) (hlength : fees.length < 2 ^ 50) :
    AreOrderStatistics fees ∧ ∀ info filter, LevelsAsAsked info filter :=
  ⟨areOrderStatistics hsorted hlength, levelsAsAsked⟩

/-- Of the fees 3, 7, 7, 9 the median is the second 7; half of 3 and 7, the prices of the
transactions that are no votes, is 7, and the least is 3. -/
theorem percentiles_are_order_statistics_fourFees :
    AreOrderStatistics [3, 7, 7, 9] ∧ rankOf 5000 4 = 2 ∧
      getPercentile [3, 7, 7, 9] 5000 = some 7 ∧
      LevelsAsAsked (.new none 5 1 0 1 threeTransactions) ⟨[], [], [5000, 0]⟩ ∧
      ((StreamsSlotInfo.new none 5 1 0 1 threeTransactions).filteredOutput
        ⟨[], [], [5000, 0]⟩).feeLevels = [some 7, some 3] := by
  have hsorted : ([3, 7, 7, 9] : List UInt64).Pairwise (· ≤ ·) := by decide
  obtain ⟨hstatistics, hlevels⟩ :=
    percentiles_are_order_statistics hsorted (by simp)
  exact ⟨hstatistics, rfl, rfl, hlevels _ _, by decide⟩

end Solfees.Percentiles
