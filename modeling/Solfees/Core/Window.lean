import Solfees.Core.Draining

/-!
# A window onto the greatest keys

A window keeps the `n` greatest keys ever put into it.  It is compared here
with the unbounded map that forgets nothing: the window is always the top of
that map, so two observers who apply overlapping parts of one update sequence
end with the same window.
-/

namespace Solfees.Window

open Std (ExtTreeMap)
open Solfees.Draining

variable {K V W C : Type*} [LinearOrder K]

/-- `while m.len() > n { m.pop_first() }`. -/
def shrinkLoop (n : ℕ) (m : OrderedMap K V) : Option (Unit × OrderedMap K V) :=
  drainWhile (fun _ rest => decide (n < rest.size)) (fun _ _ => ()) () m

theorem shrinkLoop_spec (n : ℕ) (m : OrderedMap K V) :
    ∃ rest, shrinkLoop n m = some ((), rest) ∧ IsUpper rest m ∧
      rest.size = min n m.size := by
  obtain ⟨_, rest, hrun, ⟨hupper, hlow⟩, hstop⟩ :=
    drainWhile_rule (fun (_ : Unit) (rest : OrderedMap K V) => decide (n < rest.size))
      (fun _ _ => ())
      (fun _ rest => IsUpper rest m ∧ min n m.size ≤ rest.size)
      ⟨IsUpper.refl m, min_le_right n m.size⟩
      (by
        intro _ rest _ hgo hempty
        rw [hempty] at hgo
        simp at hgo)
      (by
        rintro _ rest k v ⟨hupper, hlow⟩ hgo hget hmin
        have hsize := size_erase_of_mem (mem_of_getElem? hget)
        have hgo : n < rest.size := by simpa using hgo
        exact ⟨hupper.erase_min hmin, by omega⟩)
  refine ⟨rest, hrun, hupper, ?_⟩
  have hle : rest.size ≤ n := by simpa using hstop
  have hsub : rest.size ≤ m.size := by
    rw [← card_keySet, ← card_keySet]
    exact Finset.card_le_card fun k hk =>
      mem_keySet.2 (hupper.mem (mem_keySet.1 hk))
  omega

/-- The entries with the `n` greatest keys. -/
def keepGreatest (n : ℕ) (m : OrderedMap K V) : OrderedMap K V :=
  ((shrinkLoop n m).map Prod.snd).getD m

theorem shrinkLoop_eq (n : ℕ) (m : OrderedMap K V) :
    shrinkLoop n m = some ((), keepGreatest n m) := by
  obtain ⟨rest, hrun, -⟩ := shrinkLoop_spec n m
  simp [keepGreatest, hrun]

theorem keepGreatest_isUpper (n : ℕ) (m : OrderedMap K V) :
    IsUpper (keepGreatest n m) m := by
  obtain ⟨rest, hrun, hupper, -⟩ := shrinkLoop_spec n m
  simpa [keepGreatest, hrun] using hupper

theorem size_keepGreatest (n : ℕ) (m : OrderedMap K V) :
    (keepGreatest n m).size = min n m.size := by
  obtain ⟨rest, hrun, -, hsize⟩ := shrinkLoop_spec n m
  simpa [keepGreatest, hrun] using hsize

/-- An upper part of the right size is the window. -/
theorem eq_keepGreatest {n : ℕ} {rest m : OrderedMap K V}
    (hupper : IsUpper rest m) (hsize : rest.size = min n m.size) :
    rest = keepGreatest n m :=
  hupper.eq_of_size_eq (keepGreatest_isUpper n m)
    (hsize.trans (size_keepGreatest n m).symm)

@[simp]
theorem keepGreatest_empty (n : ℕ) :
    keepGreatest n (∅ : OrderedMap K V) = ∅ :=
  (eq_keepGreatest (IsUpper.refl _) (by simp)).symm

/-! ## The window commutes with the updates -/

theorem keepGreatest_modify (n : ℕ) (m : OrderedMap K V) (k : K) (f : V → V) :
    keepGreatest n (m.modify k f) = (keepGreatest n m).modify k f := by
  have hupper := keepGreatest_isUpper n m
  refine (eq_keepGreatest ⟨?_, ?_⟩ ?_).symm
  · intro a v ha
    rw [getElem?_modify] at ha ⊢
    by_cases hka : k = a
    · subst a
      rw [if_pos rfl, Option.map_eq_some_iff] at ha
      obtain ⟨w, hw, rfl⟩ := ha
      rw [if_pos rfl, hupper.sub k w hw, Option.map_some]
    · rw [if_neg hka] at ha ⊢
      exact hupper.sub a v ha
  · intro a ha hn b hb
    rw [ExtTreeMap.mem_modify] at ha hn hb
    exact hupper.above a ha hn b hb
  · rw [ExtTreeMap.size_modify, ExtTreeMap.size_modify, size_keepGreatest]

theorem keepGreatest_map (n : ℕ) (m : OrderedMap K V) (g : V → W) :
    keepGreatest n (m.map fun _ v => g v) =
      (keepGreatest n m).map fun _ v => g v := by
  have hupper := keepGreatest_isUpper n m
  refine (eq_keepGreatest ⟨?_, ?_⟩ ?_).symm
  · intro a w ha
    rw [ExtTreeMap.getElem?_map, Option.map_eq_some_iff] at ha ⊢
    obtain ⟨v, hv, rfl⟩ := ha
    exact ⟨v, hupper.sub a v hv, rfl⟩
  · intro a ha hn b hb
    rw [ExtTreeMap.mem_map] at ha hn hb
    exact hupper.above a ha hn b hb
  · rw [ExtTreeMap.size_map, ExtTreeMap.size_map, size_keepGreatest]

/-- A key outside the window means that the window is full. -/
theorem size_keepGreatest_of_notMem {n : ℕ} {m : OrderedMap K V} {a : K} (ha : a ∈ m)
    (hn : a ∉ keepGreatest n m) : (keepGreatest n m).size = n := by
  have hsize := size_keepGreatest n m
  have hlt : (keepGreatest n m).size < m.size := by
    rw [← card_keySet, ← card_keySet]
    refine Finset.card_lt_card ((Finset.ssubset_iff_of_subset ?_).2
      ⟨a, mem_keySet.2 ha, mt mem_keySet.1 hn⟩)
    exact fun b hb => mem_keySet.2 ((keepGreatest_isUpper n m).mem (mem_keySet.1 hb))
  omega

/-- A new key that stays in a window is above every key outside it. -/
theorem lt_of_mem_keepGreatest_insert {n : ℕ} {m : OrderedMap K V} {a k : K} {v : V}
    (ha : a ∈ m) (hn : a ∉ keepGreatest n m) (hak : a ≠ k)
    (hk : k ∈ keepGreatest n ((keepGreatest n m).insert k v)) : a < k := by
  by_contra hnlt
  -- then `k` is below the whole full window, so nothing was popped
  have hka : k < a := lt_of_le_of_ne (not_lt.1 hnlt) (Ne.symm hak)
  have habove := (keepGreatest_isUpper n m).above a ha hn
  have hfull := size_keepGreatest_of_notMem ha hn
  have hinner := keepGreatest_isUpper n ((keepGreatest n m).insert k v)
  have hkw : k ∉ keepGreatest n m := fun hkw => hnlt (habove k hkw)
  have hall : keySet ((keepGreatest n m).insert k v) ⊆
      keySet (keepGreatest n ((keepGreatest n m).insert k v)) := by
    intro c hc
    rw [mem_keySet] at hc ⊢
    refine hinner.mem_of_le hk hc ?_
    rcases mem_insert.1 hc with rfl | hcw
    · exact le_rfl
    · exact (hka.trans (habove c hcw)).le
  have hcard := Finset.card_le_card hall
  rw [card_keySet, card_keySet, size_keepGreatest, size_insert, if_neg hkw] at hcard
  omega

theorem min_size_insert_keepGreatest (n : ℕ) (m : OrderedMap K V) (k : K) (v : V) :
    min n ((keepGreatest n m).insert k v).size = min n (m.insert k v).size := by
  have hsize := size_keepGreatest n m
  rw [size_insert, size_insert]
  by_cases hkw : k ∈ keepGreatest n m
  · rw [if_pos hkw, if_pos ((keepGreatest_isUpper n m).mem hkw)]
    omega
  · by_cases hkm : k ∈ m
    · have hfull := size_keepGreatest_of_notMem hkm hkw
      rw [if_neg hkw, if_pos hkm]
      omega
    · rw [if_neg hkw, if_neg hkm]
      omega

/-- An entry outside the window has `n` greater keys in it, and a key put into
the map cannot bring it back. -/
theorem keepGreatest_insert (n : ℕ) (m : OrderedMap K V) (k : K) (v : V) :
    keepGreatest n ((keepGreatest n m).insert k v) =
      keepGreatest n (m.insert k v) := by
  have hupper := keepGreatest_isUpper n m
  have hinner := keepGreatest_isUpper n ((keepGreatest n m).insert k v)
  refine eq_keepGreatest ⟨?_, ?_⟩ ?_
  · intro a w ha
    have ha := hinner.sub a w ha
    rw [getElem?_insert] at ha ⊢
    by_cases hka : k = a
    · rwa [if_pos hka] at ha ⊢
    · rw [if_neg hka] at ha ⊢
      exact hupper.sub a w ha
  · intro a ha hn b hb
    by_cases haw : a ∈ (keepGreatest n m).insert k v
    · exact hinner.above a haw hn b hb
    · rw [mem_insert, not_or] at haw
      have ham : a ∈ m := (mem_insert.1 ha).resolve_left haw.1
      rcases mem_insert.1 (hinner.mem hb) with rfl | hbw
      · exact lt_of_mem_keepGreatest_insert ham haw.2 haw.1 hb
      · exact hupper.above a ham haw.2 b hbw
  · rw [size_keepGreatest, min_size_insert_keepGreatest]

/-! ## Two observers of one update sequence -/

/-- An update stores a whole entry, or overwrites the label of the entry at
a key if there is one. -/
inductive Update (K V C : Type*)
  | put (key : K) (value : V)
  | mark (key : K) (label : C)

section Replay

variable (n : ℕ) (mark : C → V → V)

/-- The map that keeps every key. -/
def applyFull (m : OrderedMap K V) : Update K V C → OrderedMap K V
  | .put k v => m.insert k v
  | .mark k c => m.modify k (mark c)

/-- The window of the `n` greatest keys. -/
def applyWindow (m : OrderedMap K V) : Update K V C → OrderedMap K V
  | .put k v => keepGreatest n (m.insert k v)
  | .mark k c => m.modify k (mark c)

theorem keepGreatest_applyFull (m : OrderedMap K V) (update : Update K V C) :
    keepGreatest n (applyFull mark m update) =
      applyWindow n mark (keepGreatest n m) update := by
  cases update with
  | put k v => exact (keepGreatest_insert n m k v).symm
  | mark k c => exact keepGreatest_modify n m k (mark c)

/-- The window is the top of the map that keeps every key. -/
theorem keepGreatest_foldl_applyFull (m : OrderedMap K V)
    (updates : List (Update K V C)) :
    keepGreatest n (updates.foldl (applyFull mark) m) =
      updates.foldl (applyWindow n mark) (keepGreatest n m) := by
  induction updates generalizing m with
  | nil => rfl
  | cons update updates ih =>
      rw [List.foldl_cons, List.foldl_cons, ih, keepGreatest_applyFull]

/-- What an update does to the entry of one key. -/
def applyEntry (k : K) (entry : Option V) : Update K V C → Option V
  | .put k' v => if k' = k then some v else entry
  | .mark k' c => if k' = k then entry.map (mark c) else entry

theorem getElem?_foldl_applyFull (m : OrderedMap K V)
    (updates : List (Update K V C)) (k : K) :
    (updates.foldl (applyFull mark) m)[k]? =
      updates.foldl (applyEntry mark k) m[k]? := by
  induction updates generalizing m with
  | nil => rfl
  | cons update updates ih =>
      rw [List.foldl_cons, List.foldl_cons, ih]
      congr 1
      cases update with
      | put k' v => exact getElem?_insert m k' k v
      | mark k' c =>
          simp only [applyFull, applyEntry, getElem?_modify]
          by_cases hk : k' = k
          · simp only [hk, if_true]
          · simp only [hk, if_false]

variable {mark}
variable (hmark : ∀ c c' v, mark c (mark c' v) = mark c v)
include hmark

/-- On one key a sequence of updates either stores a fixed entry, or leaves the
entry, or overwrites its label with the last one. -/
theorem foldl_applyEntry_cases (k : K) (updates : List (Update K V C)) :
    (∃ result, ∀ entry, updates.foldl (applyEntry mark k) entry = result) ∨
      (∀ entry, updates.foldl (applyEntry mark k) entry = entry) ∨
      ∃ c, ∀ entry,
        updates.foldl (applyEntry mark k) entry = entry.map (mark c) := by
  induction updates using List.reverseRecOn with
  | nil => exact Or.inr (Or.inl fun _ => rfl)
  | append_singleton updates update ih =>
      simp only [List.foldl_append, List.foldl_cons, List.foldl_nil]
      cases update with
      | put k' v =>
          by_cases hk : k' = k
          · exact Or.inl ⟨some v, fun _ => if_pos hk⟩
          · simpa only [applyEntry, if_neg hk] using ih
      | mark k' c =>
          by_cases hk : k' = k
          · simp only [applyEntry, if_pos hk]
            rcases ih with ⟨result, h⟩ | h | ⟨c', h⟩
            · exact Or.inl ⟨result.map (mark c), fun entry => by rw [h]⟩
            · exact Or.inr (Or.inr ⟨c, fun entry => by rw [h]⟩)
            · refine Or.inr (Or.inr ⟨c, fun entry => ?_⟩)
              rw [h, Option.map_map]
              congr 1
              funext v
              exact hmark c c' v
          · simpa only [applyEntry, if_neg hk] using ih

/-- Applying a sequence of updates a second time changes nothing. -/
theorem foldl_applyFull_idem (m : OrderedMap K V)
    (updates : List (Update K V C)) :
    updates.foldl (applyFull mark) (updates.foldl (applyFull mark) m) =
      updates.foldl (applyFull mark) m := by
  apply ExtTreeMap.ext_getElem?
  intro k
  simp only [getElem?_foldl_applyFull]
  rcases foldl_applyEntry_cases hmark k updates with ⟨result, h⟩ | h | ⟨c, h⟩
  · rw [h, h]
  · rw [h, h]
  · rw [h, h, Option.map_map]
    congr 1
    funext v
    exact hmark c c v

/-- An observer who starts from the window reached after `before ++ overlap`
and applies `overlap ++ after` ends with the window of the whole sequence. -/
theorem replay_converges (before overlap after : List (Update K V C)) :
    (overlap ++ after).foldl (applyWindow n mark)
        ((before ++ overlap).foldl (applyWindow n mark) ∅) =
      (before ++ overlap ++ after).foldl (applyWindow n mark) ∅ := by
  rw [← keepGreatest_empty n, ← keepGreatest_foldl_applyFull,
    ← keepGreatest_foldl_applyFull, ← keepGreatest_foldl_applyFull,
    List.foldl_append, List.foldl_append, foldl_applyFull_idem hmark,
    ← List.foldl_append, ← List.foldl_append, List.append_assoc]

end Replay

/-- A rendering of the values that respects the labels renders the window. -/
theorem foldl_applyWindow_map (n : ℕ) {mark : C → V → V} {mark' : C → W → W}
    (g : V → W) (hg : ∀ c v, g (mark c v) = mark' c (g v))
    (render : Update K V C → Update K W C)
    (hput : ∀ k v, render (.put k v) = .put k (g v))
    (hmark : ∀ k c, render (.mark k c) = .mark k c)
    (m : OrderedMap K V) (updates : List (Update K V C)) :
    (updates.foldl (applyWindow n mark) m).map (fun _ v => g v) =
      (updates.map render).foldl (applyWindow n mark')
        (m.map fun _ v => g v) := by
  induction updates generalizing m with
  | nil => rfl
  | cons update updates ih =>
      rw [List.foldl_cons, List.map_cons, List.foldl_cons, ih]
      congr 1
      cases update with
      | put k v =>
          rw [hput, applyWindow, applyWindow, ← keepGreatest_map]
          congr 1
          apply ExtTreeMap.ext_getElem?
          intro a
          simp only [ExtTreeMap.getElem?_map, getElem?_insert]
          split <;> simp
      | mark k c =>
          rw [hmark, applyWindow, applyWindow]
          apply ExtTreeMap.ext_getElem?
          intro a
          simp only [ExtTreeMap.getElem?_map, getElem?_modify]
          by_cases hka : k = a
          · rw [if_pos hka, if_pos hka, Option.map_map, Option.map_map]
            congr 1
            funext v
            exact hg c v
          · rw [if_neg hka, if_neg hka]

end Solfees.Window
