import Mathlib

/-!
# Sums of words

A sum of 64-bit words either wraps or, in a checked build, stops at the first addition
that overflows.  Both are the mathematical sum exactly when that sum fits a word.
-/

namespace Solfees.WordSum

/-- The mathematical sum of some words. -/
def total (words : List UInt64) : ℕ :=
  (words.map UInt64.toNat).sum

@[simp]
theorem total_nil : total [] = 0 := rfl

@[simp]
theorem total_cons (word : UInt64) (words : List UInt64) :
    total (word :: words) = word.toNat + total words := by
  simp [total]

@[simp]
theorem total_append (front back : List UInt64) :
    total (front ++ back) = total front + total back := by
  simp [total]

/-- Fewer words have a smaller sum. -/
theorem total_le_of_sublist {words words' : List UInt64} (h : words.Sublist words') :
    total words ≤ total words' :=
  (h.map UInt64.toNat).sum_le_sum fun _ _ => Nat.zero_le _

/-- The wrapping sum is the mathematical one, reduced. -/
theorem toNat_sum (words : List UInt64) : words.sum.toNat = total words % 2 ^ 64 := by
  induction words with
  | nil => rfl
  | cons word words ih =>
      rw [List.sum_cons, UInt64.toNat_add, ih, total_cons, Nat.add_mod_mod]

theorem toNat_sum_eq_iff (words : List UInt64) :
    words.sum.toNat = total words ↔ total words < 2 ^ 64 := by
  rw [toNat_sum, Nat.mod_eq_iff_lt (by norm_num)]

/-- `words.iter().sum::<u64>()` in a checked build. -/
def checkedSum (words : List UInt64) : Option UInt64 :=
  words.foldlM (fun sum word =>
    if sum.toNat + word.toNat < 2 ^ 64 then some (sum + word) else none) 0

/-- The checked sum stops exactly when the mathematical one does not fit a word. -/
theorem checkedSum_eq (words : List UInt64) :
    checkedSum words = if total words < 2 ^ 64 then some words.sum else none := by
  induction words using List.reverseRecOn with
  | nil => rfl
  | append_singleton words word ih =>
      rw [checkedSum, List.foldlM_append, ← checkedSum, ih, total_append]
      by_cases hfits : total words < 2 ^ 64
      · have hsum := (toNat_sum_eq_iff words).2 hfits
        rw [if_pos hfits]
        simp [hsum]
      · rw [if_neg hfits, if_neg (by omega)]
        rfl

end Solfees.WordSum
