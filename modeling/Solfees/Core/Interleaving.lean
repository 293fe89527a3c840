import Solfees.Core.Run

/-!
# Interleavings of prefixes of one sequence

Several writers append prefixes of one sequence to a log, in order and at least
one of them in full.  The log then reads as the sequence itself with some of
its earlier elements repeated in between, and a filter that depends only on
which elements came before, and rejects what it has already met, cannot tell
the two apart.
-/

namespace Solfees.Interleaving

open Solfees.Run

variable {A : Type*}

/-- `merged` arises when each writer appends its own sequence in order. -/
inductive Interleaves : List (List A) → List A → Prop
  | done {writers : List (List A)} (hdone : ∀ rest ∈ writers, rest = []) :
      Interleaves writers []
  | append {writers : List (List A)} {merged : List A} (writer : ℕ)
      (head : A) (rest : List A) (hwriter : writers[writer]? = some (head :: rest))
      (hmerged : Interleaves (writers.set writer rest) merged) :
      Interleaves writers (head :: merged)

/-- `log` is `todo` with elements of `seen`, or of what precedes in `todo`,
repeated in between. -/
inductive Stutters : List A → List A → List A → Prop
  | done (seen : List A) : Stutters seen [] []
  | next {seen todo log : List A} (head : A)
      (hlog : Stutters (seen ++ [head]) todo log) :
      Stutters seen (head :: todo) (head :: log)
  | again {seen todo log : List A} (head : A) (hseen : head ∈ seen)
      (hlog : Stutters seen todo log) : Stutters seen todo (head :: log)

/-- Each writer has written a part of what the log has seen, what it has left
continues that part within `whole`, and some writer appends all of `whole`. -/
structure Following (written : ℕ → List A) (seen whole : List A)
    (writers : List (List A)) : Prop where
  seen : ∀ (i : ℕ) (rest : List A), writers[i]? = some rest → written i <+: seen
  within : ∀ (i : ℕ) (rest : List A), writers[i]? = some rest →
    written i ++ rest <+: whole
  full : ∃ (i : ℕ) (rest : List A), writers[i]? = some rest ∧
    written i ++ rest = whole

/-- One writer appends its next element. -/
theorem Following.advance {written : ℕ → List A} {seen seen' whole : List A}
    {writers : List (List A)} (h : Following written seen whole writers)
    {writer : ℕ} {head : A} {rest : List A}
    (hwriter : writers[writer]? = some (head :: rest)) (hseen : seen <+: seen')
    (hwritten : written writer ++ [head] <+: seen') :
    Following (Function.update written writer (written writer ++ [head]))
      seen' whole (writers.set writer rest) := by
  have hbound : writer < writers.length :=
    (List.getElem?_eq_some_iff.1 hwriter).1
  refine ⟨?_, ?_, ?_⟩
  · intro i other hother
    by_cases hi : i = writer
    · subst i
      rwa [Function.update_self]
    · rw [List.getElem?_set_ne (Ne.symm hi)] at hother
      rw [Function.update_of_ne hi]
      exact (h.seen i other hother).trans hseen
  · intro i other hother
    by_cases hi : i = writer
    · subst i
      rw [List.getElem?_set_self hbound] at hother
      obtain rfl := Option.some.inj hother
      rw [Function.update_self, List.append_assoc, List.singleton_append]
      exact h.within writer _ hwriter
    · rw [List.getElem?_set_ne (Ne.symm hi)] at hother
      rw [Function.update_of_ne hi]
      exact h.within i other hother
  · obtain ⟨i, other, hother, hwhole⟩ := h.full
    by_cases hi : i = writer
    · subst i
      rw [hwriter] at hother
      obtain rfl := Option.some.inj hother
      refine ⟨writer, rest, List.getElem?_set_self hbound, ?_⟩
      rw [Function.update_self, List.append_assoc, List.singleton_append]
      exact hwhole
    · refine ⟨i, other, ?_, ?_⟩
      · rwa [List.getElem?_set_ne (Ne.symm hi)]
      · rwa [Function.update_of_ne hi]

theorem stutters_of_following {writers : List (List A)} {log : List A}
    (h : Interleaves writers log) :
    ∀ (written : ℕ → List A) (seen todo : List A),
      Following written seen (seen ++ todo) writers → Stutters seen todo log := by
  induction h with
  | @done writers hdone =>
      intro written seen todo hfollow
      obtain ⟨i, rest, hwriter, hwhole⟩ := hfollow.full
      obtain rfl := hdone rest (List.mem_of_getElem? hwriter)
      have hle := (hfollow.seen i [] hwriter).length_le
      have hlength := congrArg List.length hwhole
      simp only [List.append_nil, List.length_append] at hlength
      obtain rfl := List.eq_nil_of_length_eq_zero (by omega : todo.length = 0)
      exact Stutters.done seen
  | @append writers merged writer head rest hwriter _ ih =>
      intro written seen todo hfollow
      have hstep : written writer ++ [head] <+: seen ++ todo := by
        refine List.IsPrefix.trans ⟨rest, ?_⟩ (hfollow.within writer _ hwriter)
        simp
      rcases le_or_gt (written writer ++ [head]).length seen.length with hle | hlt
      · -- a writer that lags behind repeats an element of the log
        have hin : written writer ++ [head] <+: seen :=
          List.prefix_of_prefix_length_le hstep (List.prefix_append seen todo) hle
        exact Stutters.again head (hin.subset (by simp))
          (ih _ seen todo (hfollow.advance hwriter List.prefix_rfl hin))
      · -- the furthest writer appends the next element of the sequence
        have hwritten : written writer = seen := by
          refine (hfollow.seen writer _ hwriter).eq_of_length_le ?_
          simp only [List.length_append, List.length_singleton] at hlt
          omega
        rw [hwritten] at hstep
        obtain ⟨todo', htodo⟩ := hstep
        rw [List.append_assoc, List.append_cancel_left_eq] at htodo
        subst htodo
        rw [List.singleton_append] at hfollow ⊢
        refine Stutters.next head
          (ih (Function.update written writer (written writer ++ [head]))
            (seen ++ [head]) todo' ?_)
        rw [List.append_assoc, List.singleton_append]
        exact hfollow.advance hwriter (List.prefix_append seen [head])
          (by rw [hwritten])

/-- An interleaving of prefixes of a sequence, one of them the whole, is the
sequence with earlier elements repeated in between. -/
theorem stutters_of_interleaves {writers : List (List A)} {whole log : List A}
    (hpre : ∀ seq ∈ writers, seq <+: whole) (hfull : whole ∈ writers)
    (h : Interleaves writers log) : Stutters [] whole log := by
  refine stutters_of_following h (fun _ => []) [] whole ⟨?_, ?_, ?_⟩
  · intro i rest _
    exact List.prefix_rfl
  · intro i rest hrest
    exact hpre rest (List.mem_of_getElem? hrest)
  · obtain ⟨i, hi⟩ := List.mem_iff_getElem?.1 hfull
    exact ⟨i, whole, hi, rfl⟩

theorem Stutters.mem_log {seen todo log : List A} (h : Stutters seen todo log)
    {a : A} (ha : a ∈ log) : a ∈ seen ∨ a ∈ todo := by
  induction h with
  | done seen => simp at ha
  | @next seen todo log head _ ih =>
      rcases List.mem_cons.1 ha with rfl | ha
      · exact Or.inr (by simp)
      · have := ih ha
        simp only [List.mem_append, List.mem_cons] at this ⊢
        tauto
  | again head hseen _ ih =>
      rcases List.mem_cons.1 ha with rfl | ha
      · exact Or.inl hseen
      · exact ih ha

/-- A filter that reads from the past only which elements occurred, and rejects
what has occurred, selects the same elements from the sequence and from the
log. -/
theorem selectFrom_of_stutters {keep : List A → A → Bool}
    (hsame : ∀ past past' event, (∀ a, a ∈ past ↔ a ∈ past') →
      keep past event = keep past' event)
    (hagain : ∀ past event, event ∈ past → keep past event = false)
    {seen todo log : List A} (h : Stutters seen todo log) :
    ∀ past, (∀ a, a ∈ past ↔ a ∈ seen) →
      selectFrom keep past log = selectFrom keep seen todo := by
  induction h with
  | done seen =>
      intro past _
      rfl
  | @next seen todo log head _ ih =>
      intro past hpast
      have hrec := ih (past ++ [head]) (by simp [hpast])
      rw [selectFrom, selectFrom, hsame past seen head hpast, hrec]
  | @again seen todo log head hseen _ ih =>
      intro past hpast
      have hmem : head ∈ past := (hpast head).2 hseen
      rw [selectFrom, hagain past head hmem]
      exact ih (past ++ [head]) fun a => by
        rw [List.mem_append, List.mem_singleton, ← hpast a]
        constructor
        · rintro (ha | rfl)
          · exact ha
          · exact hmem
        · exact Or.inl

theorem select_of_interleaves {keep : List A → A → Bool}
    (hsame : ∀ past past' event, (∀ a, a ∈ past ↔ a ∈ past') →
      keep past event = keep past' event)
    (hagain : ∀ past event, event ∈ past → keep past event = false)
    {writers : List (List A)} {whole log : List A}
    (hpre : ∀ seq ∈ writers, seq <+: whole) (hfull : whole ∈ writers)
    (h : Interleaves writers log) : select keep log = select keep whole :=
  selectFrom_of_stutters hsame hagain
    (stutters_of_interleaves hpre hfull h) [] fun _ => Iff.rfl

/-- Among prefixes of one sequence there is a longest one, and the others are its
prefixes. -/
theorem exists_longest {writers : List (List A)} {whole : List A} (hne : writers ≠ [])
    (hpre : ∀ seq ∈ writers, seq <+: whole) :
    ∃ longest ∈ writers, ∀ seq ∈ writers, seq <+: longest := by
  classical
  obtain ⟨longest, hlongest, hmax⟩ := writers.toFinset.exists_max_image List.length
    (List.toFinset_nonempty_iff writers |>.2 hne)
  refine ⟨longest, List.mem_toFinset.1 hlongest, fun seq hseq => ?_⟩
  exact List.prefix_of_prefix_length_le (hpre seq hseq)
    (hpre longest (List.mem_toFinset.1 hlongest)) (hmax seq (List.mem_toFinset.2 hseq))

/-- Wherever the writers have stopped, such a filter selects from the log what it selects
from a prefix of the sequence, one of the writers'. -/
theorem exists_select_eq_of_interleaves {keep : List A → A → Bool}
    (hsame : ∀ past past' event, (∀ a, a ∈ past ↔ a ∈ past') →
      keep past event = keep past' event)
    (hagain : ∀ past event, event ∈ past → keep past event = false)
    {writers : List (List A)} {whole log : List A}
    (hpre : ∀ seq ∈ writers, seq <+: whole) (h : Interleaves writers log) :
    ∃ longest, longest <+: whole ∧ (∀ seq ∈ writers, seq <+: longest) ∧
      select keep log = select keep longest := by
  by_cases hne : writers = []
  · subst hne
    have hlog : log = [] := by
      cases h with
      | done hdone => rfl
      | append writer head rest hwriter hmerged => cases hwriter
    exact ⟨[], List.nil_prefix, fun _ hseq => absurd hseq List.not_mem_nil, by rw [hlog]⟩
  · obtain ⟨longest, hlongest, hall⟩ := exists_longest hne hpre
    exact ⟨longest, hpre longest hlongest, hall,
      select_of_interleaves hsame hagain hall hlongest h⟩

/-! ## What a log says about its writers -/

/-- A writer appends one more element. -/
theorem Interleaves.concat {writers : List (List A)} {log : List A}
    (h : Interleaves writers log) {writer : ℕ} {written : List A}
    (hwriter : writers[writer]? = some written) (last : A) :
    Interleaves (writers.set writer (written ++ [last])) (log ++ [last]) := by
  have hbound := (List.getElem?_eq_some_iff.1 hwriter).1
  induction h generalizing written with
  | @done writers hdone =>
      obtain rfl := hdone written (List.mem_of_getElem? hwriter)
      refine .append writer last [] (List.getElem?_set_self hbound) (.done ?_)
      rw [List.set_set]
      intro rest hrest
      rcases List.mem_or_eq_of_mem_set hrest with hmem | rfl
      · exact hdone rest hmem
      · rfl
  | @append writers log first head rest hfirst _ ih =>
      by_cases hsame : first = writer
      · subst hsame
        obtain rfl := Option.some.inj (hwriter.symm.trans hfirst)
        have hlast := ih (List.getElem?_set_self hbound) (by rwa [List.length_set])
        rw [List.set_set] at hlast
        refine .append first head (rest ++ [last]) (List.getElem?_set_self hbound) ?_
        rwa [List.set_set]
      · have hkept : (writers.set first rest)[writer]? = some written := by
          rwa [List.getElem?_set_ne hsame]
        have hlast := ih hkept (by rwa [List.length_set])
        refine .append first head rest ?_ ?_
        · rwa [List.getElem?_set_ne (Ne.symm hsame)]
        · rwa [List.set_comm _ _ (Ne.symm hsame)]

theorem set_of_getElem? {B : Type*} {list : List B} {index : ℕ} {b : B}
    (h : list[index]? = some b) : list.set index b = list := by
  obtain ⟨hindex, rfl⟩ := List.getElem?_eq_some_iff.1 h
  exact List.set_getElem_self hindex

theorem Interleaves.append_list {writers : List (List A)} {log : List A}
    (h : Interleaves writers log) {writer : ℕ} {written : List A}
    (hwriter : writers[writer]? = some written) (more : List A) :
    Interleaves (writers.set writer (written ++ more)) (log ++ more) := by
  induction more using List.reverseRecOn with
  | nil =>
      rwa [List.append_nil, List.append_nil, set_of_getElem? hwriter]
  | append_singleton more last ih =>
      have hbound := (List.getElem?_eq_some_iff.1 hwriter).1
      have hlast := ih.concat (List.getElem?_set_self hbound) last
      rwa [List.set_set, List.append_assoc, List.append_assoc] at hlast

/-- What the log has was written. -/
theorem Interleaves.exists_writer {writers : List (List A)} {log : List A}
    (h : Interleaves writers log) {a : A} (ha : a ∈ log) : ∃ written ∈ writers, a ∈ written := by
  induction h with
  | done => cases ha
  | @append writers log writer head rest hwriter _ ih =>
      rcases List.mem_cons.1 ha with rfl | ha
      · exact ⟨_, List.mem_of_getElem? hwriter, List.mem_cons_self⟩
      · obtain ⟨written, hwritten, hmem⟩ := ih ha
        rcases List.mem_or_eq_of_mem_set hwritten with hold | rfl
        · exact ⟨written, hold, hmem⟩
        · exact ⟨_, List.mem_of_getElem? hwriter, List.mem_cons_of_mem _ hmem⟩

/-- The elements may be decoded on both sides. -/
theorem Interleaves.filterMap {B : Type*} (decode : A → Option B) {writers : List (List A)}
    {log : List A} (h : Interleaves writers log) :
    Interleaves (writers.map (List.filterMap decode)) (log.filterMap decode) := by
  induction h with
  | @done writers hdone =>
      refine .done fun rest hrest => ?_
      obtain ⟨written, hwritten, rfl⟩ := List.mem_map.1 hrest
      rw [hdone written hwritten, List.filterMap_nil]
  | @append writers log writer head rest hwriter _ ih =>
      rw [List.map_set] at ih
      have hdecoded : (writers.map (List.filterMap decode))[writer]? =
          some ((head :: rest).filterMap decode) := by
        rw [List.getElem?_map, hwriter, Option.map_some]
      cases hhead : decode head with
      | none =>
          rw [List.filterMap_cons_none hhead] at hdecoded ⊢
          rwa [set_of_getElem? hdecoded] at ih
      | some first =>
          rw [List.filterMap_cons_some hhead] at hdecoded ⊢
          exact .append writer first _ hdecoded ih

end Solfees.Interleaving
