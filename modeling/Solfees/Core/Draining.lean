import Mathlib

/-!
# Ordered maps drained from the bottom

A bounded store over an ordered map keeps its newest entries by popping the
smallest key until a condition on an accumulator fails.  This file gives the
map operations over an arbitrary linearly ordered key, the loop that pops from
the bottom, a total-correctness rule for that loop, and the relation between a
map and what the loop leaves of it.
-/

namespace Solfees.Draining

open Std (ExtTreeMap LawfulEqCmp)

abbrev OrderedMap (K V : Type*) [LinearOrder K] := ExtTreeMap K V compare

/-- The laws of the order's comparison, as one constant for every map. -/
instance transCmp_compare {K : Type*} [LinearOrder K] :
    Std.TransCmp (compare : K → K → Ordering) := inferInstance

variable {K V S : Type*} [LinearOrder K]

theorem getElem?_insert (m : OrderedMap K V) (k a : K) (v : V) :
    (m.insert k v)[a]? = if k = a then some v else m[a]? := by
  simp only [ExtTreeMap.getElem?_insert, LawfulEqCmp.compare_eq_iff_eq]

theorem getElem?_erase (m : OrderedMap K V) (k a : K) :
    (m.erase k)[a]? = if k = a then none else m[a]? := by
  simp only [ExtTreeMap.getElem?_erase, LawfulEqCmp.compare_eq_iff_eq]

theorem getElem?_modify (m : OrderedMap K V) (k a : K) (f : V → V) :
    (m.modify k f)[a]? = if k = a then m[k]?.map f else m[a]? := by
  simp only [ExtTreeMap.getElem?_modify, LawfulEqCmp.compare_eq_iff_eq]

theorem mem_iff_exists (m : OrderedMap K V) (k : K) :
    k ∈ m ↔ ∃ v, m[k]? = some v := by
  rw [ExtTreeMap.mem_iff_isSome_getElem?, Option.isSome_iff_exists]

theorem notMem_iff (m : OrderedMap K V) (k : K) : k ∉ m ↔ m[k]? = none := by
  rw [ExtTreeMap.mem_iff_isSome_getElem?, Option.not_isSome_iff_eq_none]

theorem mem_of_getElem? {m : OrderedMap K V} {k : K} {v : V}
    (h : m[k]? = some v) : k ∈ m :=
  (mem_iff_exists m k).2 ⟨v, h⟩

theorem mem_insert {m : OrderedMap K V} {k a : K} {v : V} :
    a ∈ m.insert k v ↔ a = k ∨ a ∈ m := by
  rw [ExtTreeMap.mem_insert, LawfulEqCmp.compare_eq_iff_eq, eq_comm]

theorem size_insert (m : OrderedMap K V) (k : K) (v : V) :
    (m.insert k v).size = if k ∈ m then m.size else m.size + 1 := by
  simp only [ExtTreeMap.size_insert, ExtTreeMap.contains_iff_mem]

theorem mem_erase {m : OrderedMap K V} {k a : K} :
    a ∈ m.erase k ↔ a ≠ k ∧ a ∈ m := by
  rw [ExtTreeMap.mem_erase, ne_eq, LawfulEqCmp.compare_eq_iff_eq, eq_comm]

theorem modify_of_notMem {m : OrderedMap K V} {k : K} (h : k ∉ m) (f : V → V) :
    m.modify k f = m := by
  apply ExtTreeMap.ext_getElem?
  intro a
  rw [getElem?_modify]
  split
  · rename_i ha
    rw [← ha, (notMem_iff m k).1 h, Option.map_none]
  · rfl

/-- The map of the list of its entries is the map. -/
theorem ofList_toList (m : OrderedMap K V) :
    ExtTreeMap.ofList m.toList compare = m := by
  apply ExtTreeMap.ext_getElem?
  intro k
  cases hget : m[k]? with
  | some v =>
      refine ExtTreeMap.getElem?_ofList_of_mem Std.ReflCmp.compare_self ?_
        (ExtTreeMap.mem_toList_iff_getElem?_eq_some.2 hget)
      exact (ExtTreeMap.ordered_keys_toList (t := m)).imp fun hlt heq => by
        simp [heq] at hlt
  | none =>
      apply (notMem_iff _ k).1
      rw [ExtTreeMap.mem_ofList]
      simpa using (notMem_iff m k).2 hget

/-! ## Keys as a finite set -/

/-- The keys of a map. -/
def keySet (m : OrderedMap K V) : Finset K :=
  m.keys.toFinset

@[simp]
theorem mem_keySet {m : OrderedMap K V} {k : K} : k ∈ keySet m ↔ k ∈ m := by
  simp [keySet]

theorem card_keySet (m : OrderedMap K V) : (keySet m).card = m.size := by
  rw [keySet, List.toFinset_card_of_nodup ExtTreeMap.nodup_keys,
    ExtTreeMap.length_keys]

/-- The number of entries whose value satisfies `p`. -/
def countWhere (p : V → Bool) (m : OrderedMap K V) : ℕ :=
  (m.filter fun _ v => p v).size

/-- One when the optional value is present and satisfies `p`. -/
def hit (p : V → Bool) (o : Option V) : ℕ :=
  if o.any p then 1 else 0

@[simp]
theorem hit_none (p : V → Bool) : hit p none = 0 := rfl

@[simp]
theorem hit_some (p : V → Bool) (v : V) :
    hit p (some v) = if p v then 1 else 0 := rfl

theorem mem_filter_iff (p : V → Bool) (m : OrderedMap K V) (k : K) :
    k ∈ (m.filter fun _ v => p v) ↔ m[k]?.any p = true := by
  rw [mem_iff_exists, ExtTreeMap.getElem?_filter']
  cases m[k]? with
  | none => simp
  | some v => by_cases hp : p v <;> simp [Option.filter, hp]

/-- Two maps that agree away from one key differ in their counts by what they
hold at that key. -/
theorem countWhere_of_agree_off (p : V → Bool) (m m' : OrderedMap K V) (k : K)
    (hoff : ∀ a, a ≠ k → m'[a]? = m[a]?) :
    countWhere p m' + hit p m[k]? = countWhere p m + hit p m'[k]? := by
  have hcard (n : OrderedMap K V) :
      countWhere p n =
        ((keySet (n.filter fun _ v => p v)).erase k).card + hit p n[k]? := by
    rw [countWhere, ← card_keySet, hit]
    by_cases hk : k ∈ keySet (n.filter fun _ v => p v)
    · rw [if_pos ((mem_filter_iff p n k).1 (mem_keySet.1 hk)),
        Finset.card_erase_add_one hk]
    · rw [if_neg (mt (mem_filter_iff p n k).2 (mt mem_keySet.2 hk)),
        Finset.erase_eq_of_notMem hk, Nat.add_zero]
  have hsame : (keySet (m'.filter fun _ v => p v)).erase k =
      (keySet (m.filter fun _ v => p v)).erase k := by
    ext a
    simp only [Finset.mem_erase, mem_keySet, mem_filter_iff]
    constructor
    · rintro ⟨hne, ha⟩
      exact ⟨hne, by rwa [hoff a hne] at ha⟩
    · rintro ⟨hne, ha⟩
      exact ⟨hne, by rwa [hoff a hne]⟩
  rw [hcard m, hcard m', hsame]
  omega

theorem countWhere_empty (p : V → Bool) :
    countWhere p (∅ : OrderedMap K V) = 0 := by
  simp [countWhere, ← card_keySet, Finset.card_eq_zero,
    Finset.eq_empty_iff_forall_notMem, mem_filter_iff]

theorem exists_of_countWhere_pos {p : V → Bool} {m : OrderedMap K V}
    (hpos : 0 < countWhere p m) :
    ∃ (k : K) (v : V), m[k]? = some v ∧ p v = true := by
  rw [countWhere, ← card_keySet, Finset.card_pos] at hpos
  obtain ⟨k, hk⟩ := hpos
  rw [mem_keySet, mem_filter_iff] at hk
  cases hget : m[k]? with
  | none => simp [hget] at hk
  | some v => exact ⟨k, v, hget, by simpa [hget] using hk⟩

theorem countWhere_pos {p : V → Bool} {m : OrderedMap K V} {k : K} {v : V}
    (hget : m[k]? = some v) (hp : p v = true) : 0 < countWhere p m := by
  rw [countWhere, ← card_keySet, Finset.card_pos]
  exact ⟨k, by rw [mem_keySet, mem_filter_iff, hget]; exact hp⟩

/-- A set that contains every key whose value satisfies `p` bounds the count. -/
theorem countWhere_le_card {p : V → Bool} {m : OrderedMap K V} {s : Finset K}
    (hs : ∀ (k : K) (v : V), m[k]? = some v → p v = true → k ∈ s) :
    countWhere p m ≤ s.card := by
  rw [countWhere, ← card_keySet]
  apply Finset.card_le_card
  intro k hk
  rw [mem_keySet, mem_filter_iff] at hk
  cases hget : m[k]? with
  | none => simp [hget] at hk
  | some v => exact hs k v hget (by simpa [hget] using hk)

/-! ## Popping the smallest key -/

/-- The entry with the smallest key, and the map without it. -/
def popFirst (m : OrderedMap K V) : Option ((K × V) × OrderedMap K V) :=
  m.toList.head?.map fun entry => (entry, m.erase entry.1)

theorem popFirst_eq_none_iff (m : OrderedMap K V) :
    popFirst m = none ↔ m = ∅ := by
  rw [popFirst, Option.map_eq_none_iff, List.head?_eq_none_iff,
    ExtTreeMap.toList_eq_nil_iff]

theorem popFirst_eq_some {m m' : OrderedMap K V} {k : K} {v : V}
    (h : popFirst m = some ((k, v), m')) :
    m[k]? = some v ∧ (∀ a ∈ m, k ≤ a) ∧ m' = m.erase k := by
  rw [popFirst, Option.map_eq_some_iff] at h
  obtain ⟨entry, hhead, heq⟩ := h
  obtain ⟨rfl, rfl⟩ := Prod.mk.inj heq
  obtain ⟨tail, htail⟩ := List.head?_eq_some_iff.1 hhead
  have hsorted := ExtTreeMap.ordered_keys_toList (t := m)
  rw [htail] at hsorted
  refine ⟨ExtTreeMap.mem_toList_iff_getElem?_eq_some.1 (by simp [htail]), ?_, rfl⟩
  intro a ha
  obtain ⟨w, hw⟩ := (mem_iff_exists m a).1 ha
  have hmem := ExtTreeMap.mem_toList_iff_getElem?_eq_some.2 hw
  rw [htail, List.mem_cons] at hmem
  rcases hmem with heq | hmem
  · exact le_of_eq (Prod.mk.inj heq).1.symm
  · exact le_of_lt (compare_lt_iff_lt.1 ((List.pairwise_cons.1 hsorted).1 _ hmem))

/-- The first key of a nonempty map is its smallest. -/
theorem exists_head_keys {m : OrderedMap K V} {k : K} (hk : k ∈ m) :
    ∃ first, m.keys.head? = some first ∧ ∀ a ∈ m, first ≤ a := by
  cases hkeys : m.keys with
  | nil =>
      rw [← ExtTreeMap.mem_keys, hkeys] at hk
      exact absurd hk List.not_mem_nil
  | cons first rest =>
      refine ⟨first, rfl, fun a ha => ?_⟩
      have hsorted := ExtTreeMap.ordered_keys (t := m)
      rw [← ExtTreeMap.mem_keys, hkeys, List.mem_cons] at ha
      rw [hkeys, List.pairwise_cons] at hsorted
      rcases ha with rfl | ha
      · exact le_rfl
      · exact (compare_lt_iff_lt.1 (hsorted.1 a ha)).le

theorem size_erase_of_mem {m : OrderedMap K V} {k : K} (h : k ∈ m) :
    (m.erase k).size + 1 = m.size := by
  rw [← card_keySet, ← card_keySet]
  have heq : keySet (m.erase k) = (keySet m).erase k := by
    ext a
    rw [Finset.mem_erase, mem_keySet, mem_keySet, mem_erase]
  rw [heq, Finset.card_erase_add_one (mem_keySet.2 h)]

/-! ## The draining loop -/

variable (keepGoing : S → OrderedMap K V → Bool) (popped : S → K × V → S)

/-- `drainWhile` with a bound on the number of pops. -/
def drainFuel : ℕ → S → OrderedMap K V → Option (S × OrderedMap K V)
  | 0, acc, m => if keepGoing acc m then none else some (acc, m)
  | fuel + 1, acc, m =>
      if keepGoing acc m then
        match popFirst m with
        | none => none
        | some (entry, rest) => drainFuel fuel (popped acc entry) rest
      else some (acc, m)

/-- `while keepGoing(acc, m) { entry = m.pop_first(); acc = popped(acc, entry) }`.
A map has only `size` entries to pop; `none` stands for the loop that keeps
going on the empty map, which never ends. -/
def drainWhile (acc : S) (m : OrderedMap K V) : Option (S × OrderedMap K V) :=
  drainFuel keepGoing popped m.size acc m

/-- The bound on the number of pops is never what stops the loop. -/
theorem drainWhile_unfold (acc : S) (m : OrderedMap K V) :
    drainWhile keepGoing popped acc m =
      if keepGoing acc m then
        match popFirst m with
        | none => none
        | some (entry, rest) =>
            drainWhile keepGoing popped (popped acc entry) rest
      else some (acc, m) := by
  cases hpop : popFirst m with
  | none =>
      cases hsize : m.size <;> simp [drainWhile, drainFuel, hsize, hpop]
  | some result =>
      obtain ⟨⟨k, v⟩, rest⟩ := result
      obtain ⟨hget, -, rfl⟩ := popFirst_eq_some hpop
      have hsize := size_erase_of_mem (mem_of_getElem? hget)
      simp only [drainWhile]
      rw [← hsize]
      simp [drainFuel, hpop]

/-- Total correctness of the draining loop: an invariant that keeps the map
nonempty while the loop keeps going holds where the loop stops. -/
theorem drainWhile_rule (P : S → OrderedMap K V → Prop) {acc : S}
    {m : OrderedMap K V} (hinit : P acc m)
    (hnonempty : ∀ acc m, P acc m → keepGoing acc m = true → m ≠ ∅)
    (hstep : ∀ acc m k v, P acc m → keepGoing acc m = true →
      m[(k : K)]? = some v → (∀ a ∈ m, k ≤ a) → P (popped acc (k, v)) (m.erase k)) :
    ∃ acc' m', drainWhile keepGoing popped acc m = some (acc', m') ∧
      P acc' m' ∧ keepGoing acc' m' = false := by
  induction hsize : m.size generalizing acc m with
  | zero =>
      have hempty : m = ∅ := ExtTreeMap.eq_empty_iff_size_eq_zero.2 hsize
      have hstop : keepGoing acc m = false := by
        by_contra hgo
        exact hnonempty acc m hinit (by simpa using hgo) hempty
      refine ⟨acc, m, ?_, hinit, hstop⟩
      rw [drainWhile_unfold, hstop]
      rfl
  | succ size ih =>
      by_cases hgo : keepGoing acc m = true
      · cases hpop : popFirst m with
        | none =>
            exact absurd ((popFirst_eq_none_iff m).1 hpop)
              (hnonempty acc m hinit hgo)
        | some result =>
            obtain ⟨⟨k, v⟩, rest⟩ := result
            obtain ⟨hget, hmin, rfl⟩ := popFirst_eq_some hpop
            have hrest := size_erase_of_mem (mem_of_getElem? hget)
            obtain ⟨acc', m', hrun, hpost⟩ :=
              ih (hstep acc m k v hinit hgo hget hmin) (by omega)
            refine ⟨acc', m', ?_, hpost⟩
            rw [drainWhile_unfold, if_pos hgo, hpop]
            exact hrun
      · have hstop : keepGoing acc m = false := by simpa using hgo
        refine ⟨acc, m, ?_, hinit, hstop⟩
        rw [drainWhile_unfold, hstop]
        rfl

/-- `Reaches acc m acc' m'`: the loop started with `acc` and `m` comes to test its
condition on `acc'` and `m'`. -/
inductive Reaches : S → OrderedMap K V → S → OrderedMap K V → Prop
  | start (acc : S) (m : OrderedMap K V) : Reaches acc m acc m
  | pop {acc acc' : S} {m m' rest : OrderedMap K V} {entry : K × V}
      (hgo : keepGoing acc m = true) (hpop : popFirst m = some (entry, rest))
      (hlater : Reaches (popped acc entry) rest acc' m') : Reaches acc m acc' m'

variable {keepGoing popped}

/-- What every turn of the loop preserves holds wherever the loop comes. -/
theorem Reaches.invariant (P : S → OrderedMap K V → Prop)
    (hstep : ∀ acc m k v, P acc m → keepGoing acc m = true →
      m[(k : K)]? = some v → (∀ a ∈ m, k ≤ a) → P (popped acc (k, v)) (m.erase k))
    {acc acc' : S} {m m' : OrderedMap K V}
    (h : Reaches keepGoing popped acc m acc' m') (hinit : P acc m) : P acc' m' := by
  induction h with
  | start acc m => exact hinit
  | @pop acc acc' m m' rest entry hgo hpop _ ih =>
      obtain ⟨hget, hmin, rfl⟩ := popFirst_eq_some hpop
      exact ih (hstep acc m entry.1 entry.2 hinit hgo hget hmin)

/-- A loop that ends comes to where its condition fails. -/
theorem reaches_of_drainWhile {acc acc' : S} {m m' : OrderedMap K V}
    (h : drainWhile keepGoing popped acc m = some (acc', m')) :
    Reaches keepGoing popped acc m acc' m' ∧ keepGoing acc' m' = false := by
  induction hsize : m.size using Nat.strong_induction_on generalizing acc m with
  | _ size ih =>
      rw [drainWhile_unfold] at h
      by_cases hgo : keepGoing acc m = true
      · rw [if_pos hgo] at h
        cases hpop : popFirst m with
        | none =>
            rw [hpop] at h
            cases h
        | some result =>
            obtain ⟨entry, rest⟩ := result
            obtain ⟨hget, -, hrest⟩ := popFirst_eq_some hpop
            have hless := size_erase_of_mem (mem_of_getElem? hget)
            rw [← hrest] at hless
            rw [hpop] at h
            obtain ⟨hlater, hstop⟩ := ih rest.size (by omega) h rfl
            exact ⟨Reaches.pop hgo hpop hlater, hstop⟩
      · rw [if_neg hgo] at h
        obtain ⟨rfl, rfl⟩ := Prod.mk.inj (Option.some.inj h)
        exact ⟨Reaches.start acc m, Bool.eq_false_iff.2 hgo⟩

/-! ## What draining leaves -/

/-- `rest` is `m` without some of its smallest entries. -/
structure IsUpper (rest m : OrderedMap K V) : Prop where
  sub : ∀ (k : K) (v : V), rest[k]? = some v → m[k]? = some v
  above : ∀ k : K, k ∈ m → k ∉ rest → ∀ a ∈ rest, k < a

theorem IsUpper.refl (m : OrderedMap K V) : IsUpper m m where
  sub _ _ h := h
  above _ hk hn := absurd hk hn

theorem IsUpper.mem {rest m : OrderedMap K V} (h : IsUpper rest m) {k : K}
    (hk : k ∈ rest) : k ∈ m := by
  obtain ⟨v, hv⟩ := (mem_iff_exists rest k).1 hk
  exact mem_of_getElem? (h.sub k v hv)

/-- A key of the map that is not below some remaining key remains. -/
theorem IsUpper.mem_of_le {rest m : OrderedMap K V} (h : IsUpper rest m)
    {a k : K} (ha : a ∈ rest) (hk : k ∈ m) (hle : a ≤ k) : k ∈ rest := by
  by_contra hn
  exact absurd (h.above k hk hn a ha) (not_lt_of_ge hle)

theorem IsUpper.getElem?_of_mem {rest m : OrderedMap K V}
    (h : IsUpper rest m) {k : K} (hk : k ∈ rest) : rest[k]? = m[k]? := by
  obtain ⟨v, hv⟩ := (mem_iff_exists rest k).1 hk
  rw [hv, h.sub k v hv]

/-- Popping the smallest key of an upper part leaves an upper part. -/
theorem IsUpper.erase_min {rest m : OrderedMap K V} (h : IsUpper rest m)
    {k : K} (hmin : ∀ a ∈ rest, k ≤ a) : IsUpper (rest.erase k) m where
  sub a v ha := by
    rw [getElem?_erase] at ha
    split at ha
    · exact absurd ha (by simp)
    · exact h.sub a v ha
  above a ha hn b hb := by
    obtain ⟨hbk, hb⟩ := mem_erase.1 hb
    by_cases hrest : a ∈ rest
    · have hak : a = k := by
        by_contra hne
        exact hn (mem_erase.2 ⟨hne, hrest⟩)
      subst a
      exact lt_of_le_of_ne (hmin b hb) (Ne.symm hbk)
    · exact h.above a ha hrest b hb

/-- Upper parts of one map are determined by their size. -/
theorem IsUpper.eq_of_size_eq {left right m : OrderedMap K V}
    (hleft : IsUpper left m) (hright : IsUpper right m)
    (hsize : left.size = right.size) : left = right := by
  have hnested : keySet left ⊆ keySet right ∨ keySet right ⊆ keySet left := by
    by_contra hnot
    rw [not_or, Finset.not_subset, Finset.not_subset] at hnot
    obtain ⟨⟨a, ha, han⟩, b, hb, hbn⟩ := hnot
    rw [mem_keySet] at ha han hb hbn
    have hab := hright.above a (hleft.mem ha) han b hb
    have hba := hleft.above b (hright.mem hb) hbn a ha
    exact lt_asymm hab hba
  rw [← card_keySet, ← card_keySet] at hsize
  have hkeys : keySet left = keySet right := by
    rcases hnested with hsub | hsub
    · exact Finset.eq_of_subset_of_card_le hsub hsize.ge
    · exact (Finset.eq_of_subset_of_card_le hsub hsize.le).symm
  apply ExtTreeMap.ext_getElem?
  intro k
  by_cases hk : k ∈ left
  · have hk' : k ∈ right := by rwa [← mem_keySet, ← hkeys, mem_keySet]
    rw [hleft.getElem?_of_mem hk, hright.getElem?_of_mem hk']
  · have hk' : k ∉ right := by rwa [← mem_keySet, ← hkeys, mem_keySet]
    rw [(notMem_iff left k).1 hk, (notMem_iff right k).1 hk']

end Solfees.Draining
