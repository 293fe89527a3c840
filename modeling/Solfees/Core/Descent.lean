import Solfees.Core.Draining

/-!
# Greedy descents in an ordered map

A descent goes from an entry to an entry with a smaller key whose level is one
lower, again and again.  The greedy descent takes the greatest such key each
time.  It gets as far as any descent does, and it ends at the greatest key that
a descent of its length can end at.
-/

namespace Solfees.Descent

open Solfees.Draining

/-! ## Relations iterated a fixed number of times -/

section Steps

variable {P : Type*} {step step' : P → P → Prop}

/-- `Steps step n p q`: `n` steps lead from `p` to `q`. -/
inductive Steps (step : P → P → Prop) : ℕ → P → P → Prop
  | refl (p : P) : Steps step 0 p p
  | head {n : ℕ} {p q r : P} (hstep : step p q) (hrest : Steps step n q r) :
      Steps step (n + 1) p r

theorem steps_zero_iff {p q : P} : Steps step 0 p q ↔ q = p := by
  constructor
  · rintro ⟨⟩
    rfl
  · rintro rfl
    exact Steps.refl q

theorem steps_succ_iff {n : ℕ} {p r : P} :
    Steps step (n + 1) p r ↔ ∃ q, step p q ∧ Steps step n q r := by
  constructor
  · rintro (_ | ⟨hstep, hrest⟩)
    exact ⟨_, hstep, hrest⟩
  · rintro ⟨q, hstep, hrest⟩
    exact Steps.head hstep hrest

theorem Steps.mono (hmono : ∀ p q, step p q → step' p q) {n : ℕ} {p q : P}
    (h : Steps step n p q) : Steps step' n p q := by
  induction h with
  | refl p => exact Steps.refl p
  | head hstep _ ih => exact Steps.head (hmono _ _ hstep) ih

theorem Steps.unique (hunique : ∀ p q q', step p q → step p q' → q = q')
    {n : ℕ} {p q q' : P} (h : Steps step n p q) (h' : Steps step n p q') :
    q = q' := by
  induction h with
  | refl p => exact (steps_zero_iff.1 h').symm
  | head hstep _ ih =>
      obtain ⟨r, hstep', hrest'⟩ := steps_succ_iff.1 h'
      obtain rfl := hunique _ _ _ hstep hstep'
      exact ih hrest'

/-- A number of steps, with the places passed on the way. -/
theorem steps_iff_chain {n : ℕ} {p q : P} :
    Steps step n p q ↔ ∃ path, (p :: path).IsChain step ∧ path.length = n ∧
      (p :: path).getLast? = some q := by
  induction n generalizing p with
  | zero =>
      rw [steps_zero_iff]
      constructor
      · rintro rfl
        exact ⟨[], List.IsChain.singleton q, rfl, rfl⟩
      · rintro ⟨path, -, hlength, hlast⟩
        rw [List.length_eq_zero_iff.1 hlength] at hlast
        exact (Option.some.inj hlast).symm
  | succ n ih =>
      rw [steps_succ_iff]
      constructor
      · rintro ⟨r, hstep, hrest⟩
        obtain ⟨path, hchain, hlength, hlast⟩ := ih.1 hrest
        refine ⟨r :: path, List.isChain_cons_cons.2 ⟨hstep, hchain⟩, ?_, ?_⟩
        · rw [List.length_cons, hlength]
        · rwa [List.getLast?_cons_cons]
      · rintro ⟨path, hchain, hlength, hlast⟩
        obtain ⟨r, path, rfl⟩ := List.exists_cons_of_length_eq_add_one hlength
        rw [List.isChain_cons_cons] at hchain
        rw [List.getLast?_cons_cons] at hlast
        exact ⟨r, hchain.1, ih.2 ⟨path, hchain.2, Nat.succ.inj hlength, hlast⟩⟩

end Steps

/-! ## Descents -/

variable {K V L : Type*} [LinearOrder K] (m : OrderedMap K V) (level : V → L)
  (next : L → L)

/-- `lower` is an entry of the map with a smaller key than `upper`, one level
down. -/
structure Below (upper lower : K × V) : Prop where
  stored : m[lower.1]? = some lower.2
  lt : lower.1 < upper.1
  descent : next (level lower.2) = level upper.2

/-- `lower` is the entry below `upper` with the greatest key. -/
structure Nearest (upper lower : K × V) : Prop extends
    Below m level next upper lower where
  greatest : ∀ other, Below m level next upper other → other.1 ≤ lower.1

variable {m level next}

theorem Nearest.unique {p q q' : K × V} (h : Nearest m level next p q)
    (h' : Nearest m level next p q') : q = q' := by
  have hkey : q.1 = q'.1 :=
    le_antisymm (h'.greatest q h.toBelow) (h.greatest q' h'.toBelow)
  refine Prod.ext hkey (Option.some.inj ?_)
  rw [← h.stored, ← h'.stored, hkey]

/-- Where there is an entry below, there is a nearest one. -/
theorem exists_nearest [DecidableEq L] {p q : K × V}
    (h : Below m level next p q) : ∃ g, Nearest m level next p g := by
  let candidates := (keySet m).filter fun k =>
    k < p.1 ∧ m[k]?.any fun v => decide (next (level v) = level p.2)
  have hcandidate {r : K × V} (hr : Below m level next p r) : r.1 ∈ candidates := by
    refine Finset.mem_filter.2
      ⟨mem_keySet.2 (mem_of_getElem? hr.stored), hr.lt, ?_⟩
    rw [hr.stored]
    simpa using hr.descent
  obtain ⟨k, hk, hmax⟩ := candidates.exists_max_image id ⟨q.1, hcandidate h⟩
  obtain ⟨hmem, hlt, hany⟩ := Finset.mem_filter.1 hk
  obtain ⟨v, hv⟩ := (mem_iff_exists m k).1 (mem_keySet.1 hmem)
  rw [hv] at hany
  exact ⟨(k, v), ⟨hv, hlt, by simpa using hany⟩,
    fun other hother => hmax other.1 (hcandidate hother)⟩

/-- A descent from an entry of the map ends at an entry of the map. -/
theorem steps_below_stored {n : ℕ} {p q : K × V} (hp : m[p.1]? = some p.2)
    (h : Steps (Below m level next) n p q) : m[q.1]? = some q.2 := by
  induction h with
  | refl p => exact hp
  | head hbelow _ ih => exact ih hbelow.stored

/-- Two descents from an entry of the map that end at the same key end at the
same entry. -/
theorem steps_below_ext {n : ℕ} {p q q' : K × V} (hp : m[p.1]? = some p.2)
    (h : Steps (Below m level next) n p q)
    (h' : Steps (Below m level next) n p q') (hkey : q.1 = q'.1) : q = q' := by
  refine Prod.ext hkey (Option.some.inj ?_)
  rw [← steps_below_stored hp h, ← steps_below_stored hp h', hkey]

section Injective

variable (hnext : Function.Injective next)
include hnext

/-- Descents of one length from one level end at one level. -/
theorem steps_below_level {n : ℕ} {p p' q q' : K × V}
    (h : Steps (Below m level next) n p q)
    (h' : Steps (Below m level next) n p' q')
    (hlevel : level p.2 = level p'.2) : level q.2 = level q'.2 := by
  induction h generalizing p' with
  | refl p => rwa [steps_zero_iff.1 h']
  | head hbelow _ ih =>
      obtain ⟨r, hbelow', hrest'⟩ := steps_succ_iff.1 h'
      refine ih hrest' (hnext ?_)
      rw [hbelow.descent, hbelow'.descent, hlevel]

/-- From an entry at least as high, on the same level, the greedy descent goes
at least as far as a given descent and stays at or above its end. -/
theorem exists_greedy [DecidableEq L] {n : ℕ} {p q : K × V}
    (h : Steps (Below m level next) n p q) {p' : K × V} (hle : p.1 ≤ p'.1)
    (hlevel : level p.2 = level p'.2) :
    ∃ g, Steps (Nearest m level next) n p' g ∧ q.1 ≤ g.1 := by
  induction h generalizing p' with
  | refl p => exact ⟨p', Steps.refl p', hle⟩
  | head hbelow _ ih =>
      have hbelow' := Below.mk hbelow.stored (hbelow.lt.trans_le hle)
        (hbelow.descent.trans hlevel)
      obtain ⟨r, hnearest⟩ := exists_nearest hbelow'
      obtain ⟨g, hgreedy, hq⟩ := ih (hnearest.greatest _ hbelow')
        (hnext (hbelow'.descent.trans hnearest.descent.symm))
      exact ⟨g, Steps.head hnearest hgreedy, hq⟩

/-- The greedy descent ends where a given descent ends exactly when no descent
of that length ends higher. -/
theorem greedy_iff_greatest [DecidableEq L] {n : ℕ} {p q : K × V}
    (hp : m[p.1]? = some p.2) (h : Steps (Below m level next) n p q) :
    Steps (Nearest m level next) n p q ↔
      ∀ other, Steps (Below m level next) n p other → other.1 ≤ q.1 := by
  constructor
  · intro hgreedy other hother
    obtain ⟨g, hg, hle⟩ := exists_greedy hnext hother le_rfl rfl
    have heq : q = g := by
      refine hgreedy.unique ?_ hg
      exact fun _ _ _ h h' => h.unique h'
    rwa [heq]
  · intro hgreatest
    obtain ⟨g, hg, hle⟩ := exists_greedy hnext h le_rfl rfl
    have hsteps := hg.mono fun _ _ => Nearest.toBelow
    rwa [steps_below_ext hp h hsteps (le_antisymm hle (hgreatest g hsteps))]

/-- Place by place, the greedy descent stays at or above every descent of its
length. -/
theorem forall₂_le_greedy {p p' : K × V} {others greedy : List (K × V)}
    (hothers : (p :: others).IsChain (Below m level next))
    (hgreedy : (p' :: greedy).IsChain (Nearest m level next))
    (hlength : others.length = greedy.length) (hle : p.1 ≤ p'.1)
    (hlevel : level p.2 = level p'.2) :
    List.Forall₂ (fun other lower => other.1 ≤ lower.1) others greedy := by
  induction others generalizing p p' greedy with
  | nil =>
      rw [List.length_eq_zero_iff.1 hlength.symm]
      exact List.Forall₂.nil
  | cons q others ih =>
      obtain ⟨g, greedy, rfl⟩ := List.exists_cons_of_length_eq_add_one hlength.symm
      obtain ⟨hbelow, hothers⟩ := List.isChain_cons_cons.1 hothers
      obtain ⟨hnearest, hgreedy⟩ := List.isChain_cons_cons.1 hgreedy
      have hbelow' := Below.mk hbelow.stored (hbelow.lt.trans_le hle)
        (hbelow.descent.trans hlevel)
      have hq : q.1 ≤ g.1 := hnearest.greatest q hbelow'
      refine List.Forall₂.cons hq ?_
      apply ih hothers hgreedy (Nat.succ.inj hlength) hq
      exact hnext (hbelow'.descent.trans hnearest.descent.symm)

end Injective

end Solfees.Descent
