import Solfees.Core.Draining

/-!
# Indexing records by their keys

One pass over a list of records builds, for each key, the list of the values of
the records that carry it.  Reading the index at a key is then the same as
filtering the records by the key.  The last section has the two folds such an
index is queried with: the greatest value over some keys, and the least element
of a sorted list.
-/

namespace Solfees.Indexing

open Std (ExtTreeMap)
open Solfees.Draining

variable {R K V : Type*} [LinearOrder K]

/-- `index.entry(key).or_default().push(value)`. -/
def pushAt (value : V) (index : OrderedMap K (List V)) (key : K) :
    OrderedMap K (List V) :=
  index.insert key (index[key]?.getD [] ++ [value])

/-- The values under a key; an absent key has none. -/
def valuesAt (index : OrderedMap K (List V)) (key : K) : List V :=
  index[key]?.getD []

theorem valuesAt_empty (key : K) : valuesAt (∅ : OrderedMap K (List V)) key = [] := by
  simp [valuesAt]

theorem valuesAt_pushAt (value : V) (index : OrderedMap K (List V)) (key a : K) :
    valuesAt (pushAt value index key) a =
      valuesAt index a ++ if key = a then [value] else [] := by
  rw [valuesAt, pushAt, getElem?_insert]
  by_cases hkey : key = a
  · subst hkey
    rw [if_pos rfl, if_pos rfl]
    rfl
  · rw [if_neg hkey, if_neg hkey, List.append_nil]
    rfl

/-- Pushing one value under distinct keys. -/
theorem valuesAt_foldl_pushAt (value : V) (index : OrderedMap K (List V))
    {keys : List K} (hkeys : keys.Nodup) (a : K) :
    valuesAt (keys.foldl (pushAt value) index) a =
      valuesAt index a ++ if a ∈ keys then [value] else [] := by
  induction keys generalizing index with
  | nil => simp
  | cons key keys ih =>
      obtain ⟨hnew, hkeys⟩ := List.nodup_cons.1 hkeys
      rw [List.foldl_cons, ih _ hkeys, valuesAt_pushAt, List.append_assoc]
      by_cases hkey : key = a
      · subst hkey
        simp [hnew]
      · simp [hkey, Ne.symm hkey]

/-- The index of a list of records. -/
def indexBy (keys : R → List K) (value : R → V) (index : OrderedMap K (List V))
    (records : List R) : OrderedMap K (List V) :=
  records.foldl (fun index r => (keys r).foldl (pushAt (value r)) index) index

/-- The values under a key are those of the records that carry the key. -/
theorem valuesAt_indexBy {keys : R → List K} {value : R → V} {records : List R}
    (hkeys : ∀ r ∈ records, (keys r).Nodup) (index : OrderedMap K (List V)) (a : K) :
    valuesAt (indexBy keys value index records) a =
      valuesAt index a ++
        (records.filter fun r => decide (a ∈ keys r)).map value := by
  induction records generalizing index with
  | nil => simp [indexBy]
  | cons r records ih =>
      rw [List.forall_mem_cons] at hkeys
      rw [indexBy, List.foldl_cons, ← indexBy, ih hkeys.2,
        valuesAt_foldl_pushAt (value r) index hkeys.1, List.append_assoc]
      by_cases ha : a ∈ keys r <;> simp [ha]

/-- Rearranging the values under each key. -/
theorem valuesAt_map (f : List V → List V) (hf : f [] = [])
    (index : OrderedMap K (List V)) (a : K) :
    valuesAt (index.map fun _ values => f values) a = f (valuesAt index a) := by
  rw [valuesAt, valuesAt, ExtTreeMap.getElem?_map]
  cases index[a]? with
  | none => exact hf.symm
  | some values => rfl

/-! ## The greatest value over some keys, and the least element -/

variable [LinearOrder V]

/-- The fold of `max` over a list is the greatest of the values. -/
theorem isGreatest_foldl_max (f : R → V) (init : V) (keys : List R) :
    IsGreatest {v | v = init ∨ ∃ key ∈ keys, v = f key}
      (keys.foldl (fun v key => max v (f key)) init) := by
  induction keys using List.reverseRecOn with
  | nil =>
      refine ⟨Or.inl rfl, ?_⟩
      rintro v (rfl | ⟨key, hkey, -⟩)
      · exact le_rfl
      · exact absurd hkey List.not_mem_nil
  | append_singleton keys key ih =>
      obtain ⟨hmem, hupper⟩ := ih
      rw [List.foldl_append, List.foldl_cons, List.foldl_nil]
      constructor
      · rcases le_total (keys.foldl (fun v key => max v (f key)) init) (f key) with h | h
        · rw [max_eq_right h]
          exact Or.inr ⟨key, by simp, rfl⟩
        · rw [max_eq_left h]
          apply hmem.imp_right
          rintro ⟨other, hother, heq⟩
          exact ⟨other, List.mem_append_left _ hother, heq⟩
      · rintro v (rfl | ⟨other, hother, rfl⟩)
        · exact (hupper (Or.inl rfl)).trans (le_max_left _ _)
        · rcases List.mem_append.1 hother with hother | hother
          · exact (hupper (Or.inr ⟨other, hother, rfl⟩)).trans (le_max_left _ _)
          · rw [List.mem_singleton.1 hother]
            exact le_max_right _ _

/-- The first element of a sorted list is the least. -/
theorem head?_insertionSort (values : List V) :
    (values.insertionSort (· ≤ ·)).head? = values.min? := by
  have hperm := List.perm_insertionSort (· ≤ ·) values
  cases hsort : values.insertionSort (· ≤ ·) with
  | nil =>
      rw [hsort, List.nil_perm] at hperm
      rw [hperm]
      rfl
  | cons least rest =>
      have hsorted := List.pairwise_insertionSort (· ≤ ·) values
      rw [hsort] at hperm hsorted
      rw [List.head?_cons, eq_comm, List.min?_eq_some_iff]
      refine ⟨hperm.subset List.mem_cons_self, fun v hv => ?_⟩
      rcases List.mem_cons.1 (hperm.symm.subset hv) with rfl | hv
      · exact le_rfl
      · exact (List.pairwise_cons.1 hsorted).1 v hv

end Solfees.Indexing
