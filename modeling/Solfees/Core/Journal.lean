import Solfees.Core.Window

/-!
# Stores and the journal of their updates

The journal of a sequence of updates is the map that keeps every key.  A store
that follows the same updates and forgets some entries on the way shows a part
of the journal, whatever it forgets and whenever.  So two such stores agree
where they overlap, and what either of them holds can be read off the history.
-/

namespace Solfees.Journal

open Std (ExtTreeMap)
open Solfees.Draining
open Solfees.Window

variable {K V W X C : Type*} [LinearOrder K]

/-! ## Stores that show a part of a map -/

/-- Every entry of the store is the view of the whole map's entry at its key. -/
def Shows (view : V → W) (store : OrderedMap K W) (whole : OrderedMap K V) : Prop :=
  ∀ (k : K) (w : W), store[k]? = some w → ∃ v, whole[k]? = some v ∧ view v = w

section Shows

variable {view : V → W} {store : OrderedMap K W} {whole : OrderedMap K V}

theorem shows_empty (view : V → W) (whole : OrderedMap K V) :
    Shows view (∅ : OrderedMap K W) whole := by
  intro k w hget
  simp at hget

theorem shows_refl (whole : OrderedMap K V) : Shows id whole whole :=
  fun _ v hget => ⟨v, hget, rfl⟩

theorem Shows.insert (h : Shows view store whole) (k : K) (v : V) :
    Shows view (store.insert k (view v)) (whole.insert k v) := by
  intro a w hget
  simp only [getElem?_insert] at hget ⊢
  by_cases hk : k = a
  · rw [if_pos hk] at hget ⊢
    exact ⟨v, rfl, Option.some.inj hget⟩
  · rw [if_neg hk] at hget ⊢
    exact h a w hget

theorem Shows.modify (h : Shows view store whole) (k : K) {f : V → V} {g : W → W}
    (hview : ∀ v, view (f v) = g (view v)) :
    Shows view (store.modify k g) (whole.modify k f) := by
  intro a w hget
  simp only [getElem?_modify] at hget ⊢
  by_cases hk : k = a
  · rw [if_pos hk] at hget ⊢
    obtain ⟨old, hold, rfl⟩ := Option.map_eq_some_iff.1 hget
    obtain ⟨v, hv, rfl⟩ := h k old hold
    exact ⟨f v, by rw [hv, Option.map_some], hview v⟩
  · rw [if_neg hk] at hget ⊢
    exact h a w hget

/-- Forgetting entries leaves a part of the same map. -/
theorem Shows.of_upper {rest : OrderedMap K W} (hupper : IsUpper rest store)
    (h : Shows view store whole) : Shows view rest whole :=
  fun k w hget => h k w (hupper.sub k w hget)

theorem Shows.mem (h : Shows view store whole) {k : K} (hk : k ∈ store) :
    k ∈ whole := by
  obtain ⟨w, hw⟩ := (mem_iff_exists store k).1 hk
  obtain ⟨v, hv, -⟩ := h k w hw
  exact mem_of_getElem? hv

/-- Two parts of one map show the same entry where they overlap. -/
theorem Shows.agree {view' : V → X} {store' : OrderedMap K X}
    (h : Shows view store whole) (h' : Shows view' store' whole) {k : K} {w : W}
    {x : X} (hw : store[k]? = some w) (hx : store'[k]? = some x) :
    ∃ v, view v = w ∧ view' v = x := by
  obtain ⟨v, hv, rfl⟩ := h k w hw
  obtain ⟨v', hv', rfl⟩ := h' k x hx
  obtain rfl := Option.some.inj (hv.symm.trans hv')
  exact ⟨v, rfl, rfl⟩

end Shows

/-! ## Reading the journal off the history -/

section Journal

variable (mark : C → V → V)

/-- The map that keeps every key. -/
def journal (updates : List (Update K V C)) : OrderedMap K V :=
  updates.foldl (applyFull mark) ∅

theorem journal_concat (updates : List (Update K V C)) (update : Update K V C) :
    journal mark (updates ++ [update]) =
      applyFull mark (journal mark updates) update := by
  simp [journal]

theorem mem_journal {updates : List (Update K V C)} {k : K} :
    k ∈ journal mark updates ↔ ∃ v, .put k v ∈ updates := by
  induction updates using List.reverseRecOn with
  | nil => simp [journal]
  | append_singleton updates update ih =>
      rw [journal_concat]
      cases update with
      | put k' v =>
          rw [applyFull, mem_insert, ih]
          simp only [List.mem_append, List.mem_singleton, Update.put.injEq,
            exists_or, exists_and_left, exists_eq, and_true]
          exact or_comm
      | mark k' c =>
          rw [applyFull, ExtTreeMap.mem_modify, ih]
          simp

/-- The labels marked on a key, oldest first. -/
def marks (k : K) (updates : List (Update K V C)) : List C :=
  updates.filterMap fun
    | .put _ _ => none
    | .mark k' c => if k' = k then some c else none

theorem marks_concat (k : K) (updates : List (Update K V C))
    (update : Update K V C) :
    marks k (updates ++ [update]) = marks k updates ++ marks k [update] := by
  rw [marks, List.filterMap_append]
  rfl

/-- The entry with the last of the labels, if there is one. -/
def relabel (labels : List C) (v : V) : V :=
  labels.getLast?.elim v fun c => mark c v

variable {mark}

theorem relabel_concat (hmark : ∀ c c' v, mark c (mark c' v) = mark c v)
    (labels : List C) (c : C) (v : V) :
    relabel mark (labels ++ [c]) v = mark c (relabel mark labels v) := by
  rw [relabel, relabel, List.getLast?_concat]
  cases labels.getLast? with
  | none => rfl
  | some c' => exact (hmark c c' v).symm

/-- An entry of the journal is the last one put at its key, with the last label
marked on it since. -/
theorem exists_last_put (hmark : ∀ c c' v, mark c (mark c' v) = mark c v)
    {updates : List (Update K V C)} {k : K} {v : V}
    (hget : (journal mark updates)[k]? = some v) :
    ∃ before w since, updates = before ++ .put k w :: since ∧
      (∀ w', .put k w' ∉ since) ∧ v = relabel mark (marks k since) w := by
  induction updates using List.reverseRecOn generalizing v with
  | nil => simp [journal] at hget
  | append_singleton updates update ih =>
      rw [journal_concat] at hget
      have hskip (hold : (journal mark updates)[k]? = some v)
          (hput : ∀ w', update ≠ .put k w') (hmarks : marks k [update] = []) :
          ∃ before w since, updates ++ [update] = before ++ .put k w :: since ∧
            (∀ w', .put k w' ∉ since) ∧ v = relabel mark (marks k since) w := by
        obtain ⟨before, w, since, rfl, hsince, hv⟩ := ih hold
        refine ⟨before, w, since ++ [update], by simp, ?_, ?_⟩
        · intro w' hmem
          rcases List.mem_append.1 hmem with hmem | hmem
          · exact hsince w' hmem
          · exact hput w' (List.mem_singleton.1 hmem).symm
        · rw [marks_concat, hmarks, List.append_nil]
          exact hv
      cases update with
      | put k' w =>
          rw [applyFull, getElem?_insert] at hget
          split at hget
          · rename_i hk
            refine ⟨updates, w, [], by rw [hk], by simp, ?_⟩
            exact (Option.some.inj hget).symm
          · rename_i hk
            exact hskip hget (fun w' heq => hk (Update.put.inj heq).1) rfl
      | mark k' c =>
          rw [applyFull, getElem?_modify] at hget
          split at hget
          · rename_i hk
            subst k'
            obtain ⟨old, hold, rfl⟩ := Option.map_eq_some_iff.1 hget
            obtain ⟨before, w, since, rfl, hsince, rfl⟩ := ih hold
            refine ⟨before, w, since ++ [.mark k c], by simp, by simpa using hsince, ?_⟩
            rw [marks_concat, show marks k [Update.mark k c] = [c] by simp [marks],
              relabel_concat hmark]
          · rename_i hk
            exact hskip hget (fun w' heq => by simp at heq) (by simp [marks, hk])

end Journal

/-! ## The greatest keys -/

/-- The elements of a finite set with fewer than `n` greater ones. -/
def newest (n : ℕ) (s : Finset K) : Finset K :=
  s.filter fun a => (s.filter (a < ·)).card < n

/-- A window holds the `n` greatest keys. -/
theorem keySet_keepGreatest (n : ℕ) (m : OrderedMap K V) :
    keySet (keepGreatest n m) = newest n (keySet m) := by
  have hupper := keepGreatest_isUpper n m
  ext k
  rw [newest, Finset.mem_filter, mem_keySet, mem_keySet]
  constructor
  · intro hk
    refine ⟨hupper.mem hk, ?_⟩
    have hsub : (keySet m).filter (k < ·) ⊆ (keySet (keepGreatest n m)).erase k := by
      intro a ha
      rw [Finset.mem_filter, mem_keySet] at ha
      rw [Finset.mem_erase, mem_keySet]
      exact ⟨ha.2.ne', hupper.mem_of_le hk ha.1 ha.2.le⟩
    calc ((keySet m).filter (k < ·)).card
        ≤ ((keySet (keepGreatest n m)).erase k).card := Finset.card_le_card hsub
      _ < (keySet (keepGreatest n m)).card :=
          Finset.card_erase_lt_of_mem (mem_keySet.2 hk)
      _ = min n m.size := by rw [card_keySet, size_keepGreatest]
      _ ≤ n := min_le_left n m.size
  · rintro ⟨hk, hcard⟩
    by_contra hnot
    have hsub : keySet (keepGreatest n m) ⊆ (keySet m).filter (k < ·) := by
      intro a ha
      rw [mem_keySet] at ha
      rw [Finset.mem_filter, mem_keySet]
      exact ⟨hupper.mem ha, hupper.above k hk hnot a ha⟩
    have hfull := Finset.card_le_card hsub
    rw [card_keySet, size_keepGreatest_of_notMem hk hnot] at hfull
    exact absurd hcard (not_lt.2 hfull)

theorem card_newest_keySet (n : ℕ) (m : OrderedMap K V) :
    (newest n (keySet m)).card = min n (keySet m).card := by
  rw [← keySet_keepGreatest, card_keySet, card_keySet, size_keepGreatest]

/-- The keys of a map in order are its key set, sorted. -/
theorem keys_eq_sort (m : OrderedMap K V) : m.keys = (keySet m).sort (· ≤ ·) := by
  have hsorted := ExtTreeMap.ordered_keys (t := m)
  have hle : m.keys.Pairwise (· ≤ ·) :=
    hsorted.imp fun hlt => (compare_lt_iff_lt.1 hlt).le
  exact ((List.toFinset_sort (· ≤ ·) ExtTreeMap.nodup_keys).2 hle).symm

end Solfees.Journal
