import Mathlib

/-!
# Attempts at a value

A cache computes a missing value with one attempt at a time.  An attempt runs,
stores a value, or fails; the entry of the cache says how the latest attempt
stands.  When all attempts before the latest have failed, an entry in progress
stands for exactly one running attempt.
-/

namespace Solfees.Attempts

variable {Value : Type*}

inductive Attempt (Value : Type*)
  | running
  | stored (value : Value)
  | failed

namespace Attempt

def isRunning : Attempt Value → Bool
  | .running => true
  | _ => false

def isFailed : Attempt Value → Bool
  | .failed => true
  | _ => false

/-- What the cache holds when the attempt is the latest one. -/
def entry : Attempt Value → Option (Option Value)
  | .running => some none
  | .stored value => some (some value)
  | .failed => none

theorem entry_eq_none_iff {attempt : Attempt Value} :
    attempt.entry = none ↔ attempt.isFailed = true := by
  cases attempt <;> simp [entry, isFailed]

theorem entry_eq_inProgress_iff {attempt : Attempt Value} :
    attempt.entry = some none ↔ attempt.isRunning = true := by
  cases attempt <;> simp [entry, isRunning]

theorem not_isRunning_of_isFailed {attempt : Attempt Value}
    (h : attempt.isFailed = true) : attempt.isRunning = false := by
  cases attempt <;> simp_all [isRunning, isFailed]

end Attempt

/-- The entry of the cache after the attempts. -/
def entry (attempts : List (Attempt Value)) : Option (Option Value) :=
  attempts.getLast?.bind Attempt.entry

/-- Every attempt but the latest has failed. -/
def Serial (attempts : List (Attempt Value)) : Prop :=
  ∀ attempt ∈ attempts.dropLast, attempt.isFailed = true

/-- How many attempts are running. -/
def running (attempts : List (Attempt Value)) : ℕ :=
  attempts.countP Attempt.isRunning

variable {attempts front back : List (Attempt Value)} {attempt latest : Attempt Value}

theorem entry_concat (attempts : List (Attempt Value)) (latest : Attempt Value) :
    entry (attempts ++ [latest]) = latest.entry := by
  rw [entry, List.getLast?_concat, Option.bind_some]

theorem serial_nil : Serial ([] : List (Attempt Value)) :=
  fun _ hmem => absurd hmem List.not_mem_nil

theorem serial_concat_iff :
    Serial (attempts ++ [latest]) ↔ ∀ attempt ∈ attempts, attempt.isFailed = true := by
  rw [Serial, List.dropLast_concat]

/-- A new attempt keeps the series when nothing is stored and nothing runs. -/
theorem Serial.concat (h : Serial attempts) (hentry : entry attempts = none)
    (latest : Attempt Value) : Serial (attempts ++ [latest]) := by
  rw [serial_concat_iff]
  intro attempt hmem
  rcases List.eq_nil_or_concat attempts with rfl | ⟨before, last, rfl⟩
  · cases hmem
  · rw [List.concat_eq_append] at h hentry hmem
    rw [entry_concat, Attempt.entry_eq_none_iff] at hentry
    rcases List.mem_append.1 hmem with hmem | hmem
    · exact serial_concat_iff.1 h attempt hmem
    · rwa [List.mem_singleton.1 hmem]

/-- An attempt that has not failed is the latest. -/
theorem Serial.eq_nil (h : Serial (front ++ attempt :: back))
    (hattempt : attempt.isFailed = false) : back = [] := by
  rcases List.eq_nil_or_concat back with rfl | ⟨back, last, rfl⟩
  · rfl
  · rw [List.concat_eq_append, ← List.cons_append, ← List.append_assoc,
      serial_concat_iff] at h
    rw [h attempt (by simp)] at hattempt
    cases hattempt

theorem running_concat (h : Serial (attempts ++ [latest])) :
    running (attempts ++ [latest]) = if latest.isRunning then 1 else 0 := by
  have hbefore : attempts.countP Attempt.isRunning = 0 := by
    rw [List.countP_eq_zero]
    intro attempt hmem
    rw [Attempt.not_isRunning_of_isFailed (serial_concat_iff.1 h attempt hmem)]
    exact Bool.false_ne_true
  rw [running, List.countP_append, hbefore, Nat.zero_add, List.countP_singleton]

/-- At most one attempt runs. -/
theorem Serial.running_le_one (h : Serial attempts) : running attempts ≤ 1 := by
  rcases List.eq_nil_or_concat attempts with rfl | ⟨before, latest, rfl⟩
  · exact Nat.zero_le 1
  · rw [List.concat_eq_append] at h ⊢
    rw [running_concat h]
    split <;> omega

/-- The entry is in progress exactly when one attempt runs. -/
theorem Serial.entry_eq_inProgress_iff (h : Serial attempts) :
    entry attempts = some none ↔ running attempts = 1 := by
  rcases List.eq_nil_or_concat attempts with rfl | ⟨before, latest, rfl⟩
  · simp [entry, running]
  · rw [List.concat_eq_append] at h ⊢
    rw [entry_concat, running_concat h, Attempt.entry_eq_inProgress_iff]
    split <;> simp_all

/-- Once all attempts have failed the entry is gone. -/
theorem entry_of_failed (h : ∀ attempt ∈ attempts, attempt.isFailed = true) :
    entry attempts = none := by
  rcases List.eq_nil_or_concat attempts with rfl | ⟨before, latest, rfl⟩
  · rfl
  · rw [List.concat_eq_append] at h ⊢
    rw [entry_concat, Attempt.entry_eq_none_iff]
    exact h latest (by simp)

end Solfees.Attempts
