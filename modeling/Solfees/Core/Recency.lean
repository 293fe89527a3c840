import Mathlib

/-!
# A least-recently-used cache and its recency order

The cache holds its entries from the most to the least recently used key and
drops from the far end.  The order in which all keys ever used were last used
is kept by the history, not by the cache; the cache holds exactly the front of
that order, so a key is still cached as long as fewer than `cap` other keys
were used since.
-/

namespace Solfees.Recency

variable {K V : Type*} [DecidableEq K]

/-- At most `cap` entries, most recently used first, one for each key. -/
structure LruCache (cap : ℕ) (K V : Type*) where
  entries : List (K × V)
  nodup : (entries.map Prod.fst).Nodup
  bounded : entries.length ≤ cap

variable {cap : ℕ}

/-- `LruCache::new`. -/
def LruCache.empty : LruCache cap K V where
  entries := []
  nodup := List.nodup_nil
  bounded := Nat.zero_le cap

/-- `LruCache::peek`: the value at a key, without using it. -/
def LruCache.peek (cache : LruCache cap K V) (k : K) : Option V :=
  cache.entries.lookup k

theorem nodup_take_touch (entries : List (K × V)) (k : K) (v : V)
    (h : (entries.map Prod.fst).Nodup) :
    (((((k, v) :: entries.filter fun e => e.1 ≠ k).take cap)).map
      Prod.fst).Nodup := by
  rw [List.map_take]
  refine List.Nodup.sublist (List.take_sublist _ _) ?_
  rw [List.map_cons, List.nodup_cons]
  refine ⟨by simp, ?_⟩
  exact h.sublist (List.filter_sublist.map Prod.fst)

/-- `LruCache::get_or_insert_mut` with the write made through the reference it
returns: the key becomes the most recently used, a missing key starts from
`fresh`, and an overfull cache drops its least recently used key. -/
def LruCache.getOrInsertMut (cache : LruCache cap K V) (k : K) (fresh : V)
    (write : V → V) : LruCache cap K V where
  entries :=
    ((k, write ((cache.peek k).getD fresh)) ::
      cache.entries.filter fun e => e.1 ≠ k).take cap
  nodup := nodup_take_touch cache.entries k _ cache.nodup
  bounded := List.length_take_le _ _

/-! ## The recency order -/

/-- `recent` with `k` used once more. -/
def use (recent : List K) (k : K) : List K :=
  k :: recent.filter fun a => a ≠ k

/-- The keys of a history by last use, the most recent first. -/
def recency (history : List K) : List K :=
  history.foldl use []

theorem recency_concat (history : List K) (k : K) :
    recency (history ++ [k]) = use (recency history) k := by
  simp [recency]

theorem mem_use {recent : List K} {k a : K} :
    a ∈ use recent k ↔ a = k ∨ a ∈ recent := by
  by_cases ha : a = k <;> simp [use, ha]

theorem nodup_use {recent : List K} (h : recent.Nodup) (k : K) :
    (use recent k).Nodup := by
  rw [use, List.nodup_cons]
  exact ⟨by simp, h.filter _⟩

theorem mem_recency {history : List K} {a : K} :
    a ∈ recency history ↔ a ∈ history := by
  induction history using List.reverseRecOn with
  | nil => simp [recency]
  | append_singleton history k ih =>
      rw [recency_concat, mem_use, ih, List.mem_append, List.mem_singleton,
        or_comm]

theorem nodup_recency (history : List K) : (recency history).Nodup := by
  induction history using List.reverseRecOn with
  | nil => exact List.nodup_nil
  | append_singleton history k ih =>
      rw [recency_concat]
      exact nodup_use ih k

omit [DecidableEq K] in
/-- A key of a history has a last use. -/
theorem exists_last_use {history : List K} {k : K} (h : k ∈ history) :
    ∃ front since, history = front ++ k :: since ∧ k ∉ since := by
  obtain ⟨since, front, hsplit, hsince⟩ :=
    List.eq_append_cons_of_mem (List.mem_reverse.2 h)
  refine ⟨front.reverse, since.reverse, ?_, by simpa using hsince⟩
  rw [← List.reverse_reverse history, hsplit]
  simp

/-- Ahead of a key in the recency order stand only keys used after it. -/
theorem recency_split (front : List K) (k : K) (since : List K)
    (hsince : k ∉ since) :
    ∃ ahead behind, recency (front ++ k :: since) = ahead ++ k :: behind ∧
      ahead.Nodup ∧ ahead ⊆ since := by
  induction since using List.reverseRecOn with
  | nil =>
      refine ⟨[], (recency front).filter fun a => a ≠ k, ?_, List.nodup_nil,
        List.Subset.refl _⟩
      rw [recency_concat]
      rfl
  | append_singleton since a ih =>
      rw [List.mem_append, List.mem_singleton, not_or] at hsince
      obtain ⟨ahead, behind, heq, hnodup, hsub⟩ := ih hsince.1
      refine ⟨use ahead a, behind.filter fun b => b ≠ a, ?_,
        nodup_use hnodup a, ?_⟩
      · rw [← List.cons_append, ← List.append_assoc, recency_concat, heq]
        simp [use, hsince.2]
      · intro b hb
        rcases mem_use.1 hb with rfl | hb
        · simp
        · exact List.mem_append_left _ (hsub hb)

/-- A key with fewer than `cap` others used since is among the first `cap`. -/
theorem mem_take_recency {front since : List K} {k : K} (hsince : k ∉ since)
    (hfew : since.toFinset.card < cap) :
    k ∈ (recency (front ++ k :: since)).take cap := by
  obtain ⟨ahead, behind, heq, hnodup, hsub⟩ := recency_split front k since hsince
  have hahead : ahead.length ≤ since.toFinset.card := by
    rw [← List.toFinset_card_of_nodup hnodup]
    exact Finset.card_le_card fun a ha => by
      rw [List.mem_toFinset] at ha ⊢
      exact hsub ha
  rw [heq]
  refine List.mem_take_iff_getElem.2 ⟨ahead.length, ?_, by simp⟩
  simp only [List.length_append, List.length_cons]
  omega

/-! ## The cache is the front of the recency order -/

/-- Using a key commutes with looking only at the front of the order. -/
theorem take_filter_take (recent : List K) (k : K) (n : ℕ)
    (h : recent.Nodup) :
    ((recent.take (n + 1)).filter fun a => a ≠ k).take n =
      (recent.filter fun a => a ≠ k).take n := by
  induction recent generalizing n with
  | nil => simp
  | cons a recent ih =>
      obtain ⟨hnotin, hrecent⟩ := List.nodup_cons.1 h
      rw [List.take_succ_cons]
      by_cases ha : a = k
      · subst a
        have hkeep (l : List K) (hl : l ⊆ recent) :
            (l.filter fun a => a ≠ k) = l := by
          rw [List.filter_eq_self]
          intro b hb
          have : b ≠ k := fun hbk => hnotin (hbk ▸ hl hb)
          simpa using this
        simp only [List.filter_cons, ne_eq, not_true_eq_false, decide_false,
          Bool.false_eq_true, if_false]
        rw [hkeep _ (List.take_subset n recent),
          hkeep _ (List.Subset.refl recent), List.take_take, min_self]
      · cases n with
        | zero => simp
        | succ n => simpa [List.filter_cons, ha] using ih n hrecent

theorem take_use_take (recent : List K) (k : K) (h : recent.Nodup) :
    (use (recent.take cap) k).take cap = (use recent k).take cap := by
  cases cap with
  | zero => simp
  | succ n =>
      rw [use, use, List.take_succ_cons, List.take_succ_cons,
        take_filter_take recent k n h]

/-- The cache holds the first `cap` keys of the recency order, each with its
value in the map that forgets nothing. -/
def Tracks (cache : LruCache cap K V) (recent : List K) (value : K → V) : Prop :=
  cache.entries = (recent.take cap).map fun k => (k, value k)

omit [DecidableEq K] in
theorem tracks_empty (value : K → V) :
    Tracks (LruCache.empty : LruCache cap K V) [] value := by
  simp [Tracks, LruCache.empty]

theorem lookup_map (keys : List K) (value : K → V) (k : K) :
    (keys.map fun a => (a, value a)).lookup k =
      if k ∈ keys then some (value k) else none := by
  induction keys with
  | nil => rfl
  | cons a keys ih =>
      rw [List.map_cons, List.lookup_cons, ih]
      by_cases hk : k = a
      · simp [hk]
      · have hbeq : (k == a) = false := by simpa using hk
        rw [hbeq]
        simp [hk]

theorem Tracks.peek_eq {cache : LruCache cap K V} {recent : List K}
    {value : K → V} (h : Tracks cache recent value) (k : K) :
    cache.peek k = if k ∈ recent.take cap then some (value k) else none := by
  rw [LruCache.peek, h, lookup_map]

/-- What the cache reads at a key that has not fallen out of it. -/
theorem Tracks.peek_getD {cache : LruCache cap K V} {recent : List K}
    {value : K → V} (h : Tracks cache recent value) {k : K} {fresh : V}
    (hcached : k ∈ recent → k ∈ recent.take cap)
    (hfresh : k ∉ recent → value k = fresh) :
    (cache.peek k).getD fresh = value k := by
  rw [h.peek_eq]
  by_cases hk : k ∈ recent
  · rw [if_pos (hcached hk), Option.getD_some]
  · rw [if_neg fun htake => hk (List.take_subset _ _ htake), Option.getD_none,
      hfresh hk]

theorem Tracks.getOrInsertMut {cache : LruCache cap K V} {recent : List K}
    {value : K → V} (h : Tracks cache recent value) (hnodup : recent.Nodup)
    {k : K} {fresh : V} (write : V → V)
    (hread : (cache.peek k).getD fresh = value k) :
    Tracks (cache.getOrInsertMut k fresh write) (use recent k)
      (Function.update value k (write (value k))) := by
  have hfilter :
      (((recent.take cap).map fun a => (a, value a)).filter
        fun e => e.1 ≠ k) =
      ((recent.take cap).filter fun a => a ≠ k).map
        fun a => (a, Function.update value k (write (value k)) a) := by
    rw [List.filter_map]
    refine List.map_congr_left fun a ha => ?_
    have hak : a ≠ k := by simpa using (List.mem_filter.1 ha).2
    rw [Function.update_of_ne hak]
  rw [Tracks, ← take_use_take recent k hnodup, List.map_take]
  simp only [LruCache.getOrInsertMut, hread]
  rw [h, hfilter, use, List.map_cons, Function.update_self]

end Solfees.Recency
