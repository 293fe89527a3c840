import Mathlib

/-!
# Binary search in a sorted list

The bisection of the standard library's `slice::binary_search`, and the fact
that on a strictly sorted list it decides membership.
-/

namespace Solfees.BinarySearch

variable {K : Type*} [LinearOrder K]

/-- The search between two positions, halving the gap in every round. -/
def searchBetween (xs : List K) (key : K) : ℕ → ℕ → ℕ → Bool
  | 0, _, _ => false
  | fuel + 1, left, right =>
      if left < right then
        let mid := left + (right - left) / 2
        match xs[mid]? with
        | none => false
        | some x =>
            if x = key then true
            else if x < key then searchBetween xs key fuel (mid + 1) right
            else searchBetween xs key fuel left mid
      else false

/-- `xs.binary_search(&key).is_ok()`. -/
def binarySearch (xs : List K) (key : K) : Bool :=
  searchBetween xs key xs.length 0 xs.length

theorem getElem_lt_iff {xs : List K} (hsorted : xs.Pairwise (· < ·))
    {i j : ℕ} (hi : i < xs.length) (hj : j < xs.length) :
    xs[i] < xs[j] ↔ i < j := by
  constructor
  · intro h
    by_contra hnot
    rcases Nat.lt_or_eq_of_le (not_lt.1 hnot) with hlt | heq
    · exact lt_asymm h (List.pairwise_iff_getElem.1 hsorted j i hj hi hlt)
    · subst heq
      exact lt_irrefl _ h
  · exact List.pairwise_iff_getElem.1 hsorted i j hi hj

/-- The search finds a key exactly when it stands between the two positions. -/
theorem searchBetween_iff {xs : List K} (hsorted : xs.Pairwise (· < ·))
    (key : K) (fuel left right : ℕ) (hright : right ≤ xs.length)
    (hfuel : right - left ≤ fuel) :
    searchBetween xs key fuel left right = true ↔
      ∃ (i : ℕ) (hi : i < xs.length), left ≤ i ∧ i < right ∧ xs[i] = key := by
  induction fuel generalizing left right with
  | zero =>
      simp only [searchBetween, Bool.false_eq_true, false_iff]
      rintro ⟨i, -, hleft, hlt, -⟩
      omega
  | succ fuel ih =>
      rw [searchBetween]
      by_cases hgap : left < right
      · have hmid : left + (right - left) / 2 < xs.length := by omega
        simp only [if_pos hgap, List.getElem?_eq_getElem hmid]
        by_cases heq : xs[left + (right - left) / 2] = key
        · simp only [if_pos heq, true_iff]
          exact ⟨_, hmid, by omega, by omega, heq⟩
        by_cases hlt : xs[left + (right - left) / 2] < key
        · rw [if_neg heq, if_pos hlt, ih _ _ hright (by omega)]
          constructor
          · rintro ⟨i, hi, hleft, hr, rfl⟩
            exact ⟨i, hi, by omega, hr, rfl⟩
          · rintro ⟨i, hi, hleft, hr, rfl⟩
            exact ⟨i, hi, (getElem_lt_iff hsorted hmid hi).1 hlt, hr, rfl⟩
        · have hgt : key < xs[left + (right - left) / 2] :=
            lt_of_le_of_ne (not_lt.1 hlt) (Ne.symm heq)
          rw [if_neg heq, if_neg hlt, ih _ _ (by omega) (by omega)]
          constructor
          · rintro ⟨i, hi, hleft, hr, rfl⟩
            exact ⟨i, hi, hleft, by omega, rfl⟩
          · rintro ⟨i, hi, hleft, hr, rfl⟩
            exact ⟨i, hi, hleft, (getElem_lt_iff hsorted hi hmid).1 hgt, rfl⟩
      · simp only [if_neg hgap, Bool.false_eq_true, false_iff]
        rintro ⟨i, -, hleft, hlt, -⟩
        omega

/-- On a strictly sorted list the search decides membership. -/
theorem binarySearch_iff_mem {xs : List K} (hsorted : xs.Pairwise (· < ·))
    (key : K) : binarySearch xs key = true ↔ key ∈ xs := by
  rw [binarySearch, searchBetween_iff hsorted key _ _ _ le_rfl (by omega),
    List.mem_iff_getElem]
  constructor
  · rintro ⟨i, hi, -, -, heq⟩
    exact ⟨i, hi, heq⟩
  · rintro ⟨i, hi, heq⟩
    exact ⟨i, hi, Nat.zero_le i, hi, heq⟩

end Solfees.BinarySearch
