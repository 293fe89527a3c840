import Mathlib

/-!
# Filling the blanks of a sparse list

Some answers of a list are known at once and the others arrive later, in order,
as a dense list.  A moving index writes the late answers into the blanks.
-/

namespace Solfees.Filling

variable {A R K : Type*}

/-- `while index < slots.len() && slots[index].is_some() { index += 1 }`. -/
def skipFilled (slots : List (Option A)) (index : ℕ) : ℕ :=
  if h : index < slots.length then
    if slots[index].isSome then skipFilled slots (index + 1) else index
  else index
termination_by slots.length - index

/-- Write the values into the blanks from an index on; there is no result when a
value finds no blank. -/
def fillFrom (index : ℕ) (slots : List (Option A)) :
    List A → Option (List (Option A))
  | [] => some slots
  | value :: values =>
      let blank := skipFilled slots index
      if blank < slots.length then
        fillFrom blank (slots.set blank (some value)) values
      else none

/-- The first blank is found from any index before it. -/
theorem skipFilled_blank (filled : List A) (slots : List (Option A)) {index : ℕ}
    (hindex : index ≤ filled.length) :
    skipFilled (filled.map some ++ none :: slots) index = filled.length := by
  induction hindex using Nat.decreasingInduction with
  | self =>
      rw [skipFilled, dif_pos (by simp)]
      simp
  | of_succ index hlt ih =>
      rw [skipFilled, dif_pos (by simp; omega), if_pos, ih]
      rw [List.getElem_append_left (by simpa using hlt)]
      simp

/-- The list with its blanks replaced, in order, by exactly the values. -/
inductive Filled : List (Option A) → List A → List A → Prop
  | nil : Filled [] [] []
  | kept (value : A) {slots : List (Option A)} {values result : List A}
      (tail : Filled slots values result) :
      Filled (some value :: slots) values (value :: result)
  | blank (value : A) {slots : List (Option A)} {values result : List A}
      (tail : Filled slots values result) :
      Filled (none :: slots) (value :: values) (value :: result)

/-- The moving index computes the filled list. -/
theorem fillFrom_of_filled {slots : List (Option A)} {values result : List A}
    (h : Filled slots values result) (filled : List A) {index : ℕ}
    (hindex : index ≤ filled.length) :
    fillFrom index (filled.map some ++ slots) values =
      some ((filled ++ result).map some) := by
  induction h generalizing filled index with
  | nil => simp [fillFrom]
  | kept value _ ih =>
      have hlonger : index ≤ (filled ++ [value]).length := by simp; omega
      simpa using ih (filled ++ [value]) hlonger
  | @blank value slots values result _ ih =>
      have hset : (filled.map some ++ none :: slots).set filled.length (some value) =
          (filled ++ [value]).map some ++ slots := by
        rw [List.set_append_right _ _ (by simp)]
        simp
      have hlength : filled.length < (filled.map some ++ none :: slots).length := by
        simp
      simp only [fillFrom, skipFilled_blank filled slots hindex, if_pos hlength, hset]
      simpa using ih (filled ++ [value]) (by simp)

theorem fillFrom_zero {slots : List (Option A)} {values result : List A}
    (h : Filled slots values result) :
    fillFrom 0 slots values = some (result.map some) :=
  fillFrom_of_filled h [] le_rfl

/-- Without values to write, no blank is left. -/
theorem Filled.eq_of_nil {slots : List (Option A)} {result : List A}
    (h : Filled slots [] result) : slots = result.map some :=
  Option.some.inj ((fillFrom_zero h : fillFrom 0 slots [] = _))

/-- What settles a verdict: the value itself, or an answer to the request. -/
def Settles (answers : R → A → Prop) : A ⊕ R → A → Prop
  | .inl value, result => result = value
  | .inr request, result => answers request result

/-- When the deferred requests of a list are answered in order, filling the
blanks settles every verdict in its own place. -/
theorem exists_filled (verdict : K → A ⊕ R) {answers : R → A → Prop}
    (calls : List K) {values : List A}
    (hanswers : List.Forall₂ answers
      (calls.filterMap fun call => (verdict call).getRight?) values) :
    ∃ result, Filled (calls.map fun call => (verdict call).getLeft?) values result ∧
      List.Forall₂ (fun call => Settles answers (verdict call)) calls result := by
  induction calls generalizing values with
  | nil =>
      cases hanswers
      exact ⟨[], .nil, .nil⟩
  | cons call calls ih =>
      cases hverdict : verdict call with
      | inl value =>
          simp only [List.filterMap_cons, hverdict, Sum.getRight?_inl] at hanswers
          obtain ⟨result, hfilled, hsettled⟩ := ih hanswers
          refine ⟨value :: result, ?_, ?_⟩
          · simpa [hverdict] using Filled.kept value hfilled
          · exact .cons (by rw [hverdict]; rfl) hsettled
      | inr request =>
          simp only [List.filterMap_cons, hverdict, Sum.getRight?_inr] at hanswers
          cases hanswers with
          | @cons _ value _ values hanswer hanswers =>
              obtain ⟨result, hfilled, hsettled⟩ := ih hanswers
              refine ⟨value :: result, ?_, ?_⟩
              · simpa [hverdict] using Filled.blank value hfilled
              · exact .cons (by rw [hverdict]; exact hanswer) hsettled

/-- The successes of a whole list are the successes of its members. -/
theorem forall₂_of_mapM {E : Type*} {f : R → Except E A} {requests : List R}
    {values : List A} (h : requests.mapM f = .ok values) :
    List.Forall₂ (fun request value => f request = .ok value) requests values := by
  induction requests generalizing values with
  | nil =>
      cases h
      exact .nil
  | cons request requests ih =>
      rw [List.mapM_cons] at h
      cases hfirst : f request with
      | error error =>
          rw [hfirst] at h
          cases h
      | ok value =>
          cases hrest : requests.mapM f with
          | error error =>
              rw [hfirst, hrest] at h
              cases h
          | ok rest =>
              rw [hfirst, hrest] at h
              cases h
              exact .cons hfirst (ih hrest)

theorem mapM_of_forall₂ {E : Type*} {f : R → Except E A} {requests : List R}
    {values : List A}
    (h : List.Forall₂ (fun request value => f request = .ok value) requests values) :
    requests.mapM f = .ok values := by
  induction h with
  | nil => rfl
  | cons hfirst hrest ih =>
      rw [List.mapM_cons, hfirst, ih]
      rfl

theorem mapM_eq_ok_iff {E : Type*} {f : R → Except E A} {requests : List R}
    {values : List A} : requests.mapM f = .ok values ↔
      List.Forall₂ (fun request value => f request = .ok value) requests values :=
  ⟨forall₂_of_mapM, mapM_of_forall₂⟩

end Solfees.Filling
