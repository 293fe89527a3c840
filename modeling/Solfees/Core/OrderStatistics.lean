import Mathlib

/-!
# Order statistics of a sorted list

The entry at an index of a sorted list has at most that many entries strictly below it
and more than that many at or below it, however often it is repeated.
-/

namespace Solfees.OrderStatistics

variable {A : Type*} [LinearOrder A] {values : List A}

theorem getElem?_mono (hsorted : values.Pairwise (· ≤ ·)) {low high : ℕ} (hle : low ≤ high)
    {lower upper : A} (hlower : values[low]? = some lower)
    (hupper : values[high]? = some upper) : lower ≤ upper := by
  obtain ⟨hlow, rfl⟩ := List.getElem?_eq_some_iff.1 hlower
  obtain ⟨hhigh, rfl⟩ := List.getElem?_eq_some_iff.1 hupper
  rcases hle.eq_or_lt with rfl | hlt
  · exact le_rfl
  · exact List.pairwise_iff_getElem.1 hsorted low high hlow hhigh hlt

section Rank

variable (hsorted : values.Pairwise (· ≤ ·)) {rank : ℕ} {value : A}
  (hget : values[rank]? = some value)

include hsorted hget

/-- The entries below an entry stand before it. -/
theorem countP_lt_le : values.countP (fun other => decide (other < value)) ≤ rank := by
  have hafter : (values.drop rank).countP (fun other => decide (other < value)) = 0 := by
    apply List.countP_eq_zero.2
    intro other hmem
    obtain ⟨offset, hother⟩ := List.mem_iff_getElem?.1 hmem
    rw [List.getElem?_drop] at hother
    have hle := getElem?_mono hsorted (Nat.le_add_right rank offset) hget hother
    simpa using hle
  calc values.countP (fun other => decide (other < value))
      = (values.take rank).countP (fun other => decide (other < value)) := by
        rw [← List.take_append_drop rank values, List.countP_append, hafter, Nat.add_zero,
          List.take_append_drop]
    _ ≤ (values.take rank).length := List.countP_le_length
    _ ≤ rank := List.length_take_le _ _

/-- The entries up to an entry are not above it. -/
theorem lt_countP_le : rank < values.countP (fun other => decide (other ≤ value)) := by
  obtain ⟨hrank, -⟩ := List.getElem?_eq_some_iff.1 hget
  have hupTo : (values.take (rank + 1)).countP (fun other => decide (other ≤ value)) =
      rank + 1 := by
    rw [List.countP_eq_length.2, List.length_take_of_le hrank]
    intro other hmem
    obtain ⟨index, hother⟩ := List.mem_iff_getElem?.1 hmem
    rw [List.getElem?_take] at hother
    split at hother
    · have hle := getElem?_mono hsorted (by omega) hother hget
      simpa using hle
    · cases hother
  calc rank < rank + 1 := Nat.lt_succ_self rank
    _ = (values.take (rank + 1)).countP (fun other => decide (other ≤ value)) := hupTo.symm
    _ ≤ values.countP (fun other => decide (other ≤ value)) :=
        (List.take_sublist _ _).countP_le

end Rank

theorem isLeast_of_first (hsorted : values.Pairwise (· ≤ ·)) {value : A}
    (hget : values[0]? = some value) : IsLeast {other | other ∈ values} value := by
  refine ⟨List.mem_of_getElem? hget, fun other hmem => ?_⟩
  obtain ⟨index, hother⟩ := List.mem_iff_getElem?.1 hmem
  exact getElem?_mono hsorted (Nat.zero_le index) hget hother

theorem isGreatest_of_last (hsorted : values.Pairwise (· ≤ ·)) {value : A}
    (hget : values[values.length - 1]? = some value) :
    IsGreatest {other | other ∈ values} value := by
  refine ⟨List.mem_of_getElem? hget, fun other hmem => ?_⟩
  obtain ⟨index, hother⟩ := List.mem_iff_getElem?.1 hmem
  obtain ⟨hindex, -⟩ := List.getElem?_eq_some_iff.1 hother
  exact getElem?_mono hsorted (Nat.le_sub_one_of_lt hindex) hother hget

end Solfees.OrderStatistics
