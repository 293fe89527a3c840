import Solfees.Schedule.LeadersSchedule

/-!
# The table of a schedule

The table has a number for every slot index of the epoch, and it starts with zeros.
An index that the schedule lists gets the number of its leader, whatever the order of
the entries; an index that it does not list keeps the zero, which is the number of
the first leader.
-/

namespace Solfees.Schedule

open Solfees.Draining
open Solfees.Message
open Solfees.Run

section Listed

variable (parse : String → Option Pubkey)

/-- The schedule gives a slot index to a leader. -/
def Listed (schedule : List ScheduleEntry) (leader : Pubkey) (index : ℕ) : Prop :=
  ∃ entry ∈ schedule, parse entry.1 = some leader ∧ index ∈ entry.2

/-- No slot index is in the lists of two leaders. -/
def Exclusive (schedule : List ScheduleEntry) : Prop :=
  ∀ index leader leader', Listed parse schedule leader index →
    Listed parse schedule leader' index → leader = leader'

variable {parse} {entries : List ScheduleEntry} {entry : ScheduleEntry}

theorem not_listed_nil (leader : Pubkey) (index : ℕ) : ¬ Listed parse [] leader index := by
  rintro ⟨entry, hmem, -⟩
  exact absurd hmem List.not_mem_nil

theorem listed_concat_iff {leader : Pubkey} {index : ℕ} :
    Listed parse (entries ++ [entry]) leader index ↔
      Listed parse entries leader index ∨
        parse entry.1 = some leader ∧ index ∈ entry.2 := by
  simp only [Listed, List.mem_append, List.mem_singleton, or_and_right, exists_or,
    exists_eq_left]

theorem Exclusive.of_concat (h : Exclusive parse (entries ++ [entry])) :
    Exclusive parse entries :=
  fun index leader leader' hlisted hlisted' => h index leader leader'
    (listed_concat_iff.2 (Or.inl hlisted)) (listed_concat_iff.2 (Or.inl hlisted'))

end Listed

/-! ## Filling the table -/

/-- The map knows the number of every leader it knows. -/
def KnowsNumbers (filling : Filling) : Prop :=
  ∀ (leader : Pubkey) (number : UInt16), filling.map[leader]? = some number →
    filling.leaders[number.toNat]? = some leader

theorem getElem?_of_prefix {front whole : List Pubkey} (h : front <+: whole) {number : ℕ}
    {leader : Pubkey} (hget : front[number]? = some leader) :
    whole[number]? = some leader := by
  obtain ⟨back, rfl⟩ := h
  obtain ⟨hlt, -⟩ := List.getElem?_eq_some_iff.1 hget
  rw [List.getElem?_append_left hlt, hget]

/-- A leader gets a number that stands for it from then on. -/
theorem leaderIndex_knowsNumbers {filling next : Filling} {leader : Pubkey}
    {number : UInt16} (hknows : KnowsNumbers filling)
    (hnext : filling.leaderIndex leader = .ok (next, number)) :
    next.indices = filling.indices ∧ filling.leaders <+: next.leaders ∧
      next.leaders[number.toNat]? = some leader ∧ KnowsNumbers next := by
  rw [Filling.leaderIndex] at hnext
  cases hget : filling.map[leader]? with
  | some index =>
      rw [hget] at hnext
      obtain ⟨rfl, rfl⟩ := Prod.mk.inj (Except.ok.inj hnext)
      exact ⟨rfl, List.prefix_refl _, hknows leader index hget, hknows⟩
  | none =>
      rw [hget] at hnext
      dsimp only at hnext
      by_cases hroom : filling.leaders.length < 2 ^ 16
      · rw [if_pos hroom] at hnext
        obtain ⟨rfl, rfl⟩ := Prod.mk.inj (Except.ok.inj hnext)
        have hnumber : (UInt16.ofNat filling.leaders.length).toNat =
            filling.leaders.length := UInt16.toNat_ofNat_of_lt' hroom
        have hlast : (filling.leaders ++ [leader])[
            (UInt16.ofNat filling.leaders.length).toNat]? = some leader := by
          rw [hnumber, List.getElem?_concat_length]
        refine ⟨rfl, List.prefix_append _ _, hlast, ?_⟩
        intro other number hother
        dsimp only at hother ⊢
        rw [getElem?_insert] at hother
        split at hother
        · rename_i heq
          rw [← heq, ← Option.some.inj hother, hlast]
        · exact getElem?_of_prefix (List.prefix_append _ _) (hknows other number hother)
      · rw [if_neg hroom] at hnext
        cases hnext

/-- Exactly the indices of the list get the number. -/
theorem foldlM_assign_indices {number : UInt16} {indexes : List ℕ} {filling next : Filling}
    (hnext : indexes.foldlM (Filling.assign number) filling = .ok next) :
    next.leaders = filling.leaders ∧ next.map = filling.map ∧
      next.indices = fun index =>
        if index.val ∈ indexes then number else filling.indices index := by
  induction indexes generalizing filling with
  | nil =>
      obtain rfl := Except.ok.inj hnext
      exact ⟨rfl, rfl, by simp⟩
  | cons index indexes ih =>
      rw [List.foldlM_cons, Filling.assign] at hnext
      by_cases hindex : index < slotsInEpoch
      · rw [dif_pos hindex] at hnext
        obtain ⟨hleaders, hmap, hindices⟩ := ih hnext
        refine ⟨hleaders, hmap, hindices.trans ?_⟩
        funext other
        dsimp only
        rw [Function.update_apply]
        by_cases hother : other.val ∈ indexes
        · simp [hother]
        · simp [hother, Fin.ext_iff]
      · rw [dif_neg hindex] at hnext
        cases hnext

/-- The table after some entries: a listed index has the number of its leader, any
other one still has the zero it started with. -/
structure Tabled (parse : String → Option Pubkey) (entries : List ScheduleEntry)
    (filling : Filling) : Prop where
  knows : KnowsNumbers filling
  listed : ∀ leader (index : Fin slotsInEpoch), Listed parse entries leader index →
    filling.leaders[(filling.indices index).toNat]? = some leader
  unlisted : ∀ index : Fin slotsInEpoch,
    (∀ leader, ¬ Listed parse entries leader index) → filling.indices index = 0

variable {parse : String → Option Pubkey}

theorem tabled_init : Tabled parse [] .init where
  knows := by
    intro leader number hget
    simp [Filling.init] at hget
  listed := fun leader index hlisted => absurd hlisted (not_listed_nil leader index)
  unlisted := fun _ _ => rfl

theorem Tabled.add {entries : List ScheduleEntry} {filling next : Filling}
    {entry : ScheduleEntry} (h : Tabled parse entries filling)
    (hexclusive : Exclusive parse (entries ++ [entry]))
    (hnext : filling.add parse entry = .ok next) :
    Tabled parse (entries ++ [entry]) next := by
  rw [Filling.add] at hnext
  cases hparse : parse entry.1 with
  | none =>
      rw [hparse] at hnext
      cases hnext
  | some leader =>
      simp only [hparse] at hnext
      cases hnumber : filling.leaderIndex leader with
      | error fault =>
          rw [hnumber] at hnext
          cases hnext
      | ok numbered =>
          obtain ⟨middle, number⟩ := numbered
          rw [hnumber] at hnext
          obtain ⟨hindices, hprefix, hstands, hknows⟩ :=
            leaderIndex_knowsNumbers h.knows hnumber
          obtain ⟨hleaders, hmap, hassigned⟩ := foldlM_assign_indices hnext
          refine ⟨?_, ?_, ?_⟩
          · rw [KnowsNumbers, hmap, hleaders]
            exact hknows
          · intro other index hlisted
            rw [hassigned, hleaders]
            dsimp only
            by_cases hindex : index.val ∈ entry.2
            · have hother : other = leader := hexclusive index other leader hlisted
                (listed_concat_iff.2 (Or.inr ⟨hparse, hindex⟩))
              rw [if_pos hindex, hother, hstands]
            · have hbefore := h.listed other index
                ((listed_concat_iff.1 hlisted).resolve_right fun hnew => hindex hnew.2)
              rw [if_neg hindex, hindices]
              exact getElem?_of_prefix hprefix hbefore
          · intro index hunlisted
            have hindex : index.val ∉ entry.2 := fun hmem =>
              hunlisted leader (listed_concat_iff.2 (Or.inr ⟨hparse, hmem⟩))
            rw [hassigned]
            dsimp only
            rw [if_neg hindex, hindices]
            exact h.unlisted index fun other hbefore =>
              hunlisted other (listed_concat_iff.2 (Or.inl hbefore))

theorem tabled_of_run {entries : List ScheduleEntry} (hexclusive : Exclusive parse entries)
    {filling : Filling} (hrun : run (Filling.add parse) .init entries = .ok filling) :
    Tabled parse entries filling := by
  apply run_invariant_of_ok (fun entries filling =>
    Exclusive parse entries → Tabled parse entries filling) _ _ hrun hexclusive
  · exact fun _ => tabled_init
  · exact fun entries filling entry next hbefore hnext hexclusive =>
      (hbefore hexclusive.of_concat).add hexclusive hnext

/-! ## Looking a leader up -/

section Lookup

variable {entries : List ScheduleEntry} {filling : Filling}

theorem Tabled.getLeader_listed (h : Tabled parse entries filling) {leader : Pubkey}
    {index : ℕ} (hindex : index < slotsInEpoch) (hlisted : Listed parse entries leader index) :
    LeadersSchedule.getLeader ⟨filling.leaders, filling.indices⟩ index = .ok leader := by
  rw [LeadersSchedule.getLeader, dif_pos hindex]
  dsimp only
  rw [h.listed leader ⟨index, hindex⟩ hlisted]

/-- An index that is not listed goes to the first leader. -/
theorem Tabled.getLeader_unlisted (h : Tabled parse entries filling) {index : ℕ}
    (hindex : index < slotsInEpoch)
    (hunlisted : ∀ leader, ¬ Listed parse entries leader index) {first : Pubkey}
    {others : List Pubkey} (hleaders : filling.leaders = first :: others) :
    LeadersSchedule.getLeader ⟨filling.leaders, filling.indices⟩ index = .ok first := by
  rw [LeadersSchedule.getLeader, dif_pos hindex]
  dsimp only
  rw [h.unlisted ⟨index, hindex⟩ hunlisted, hleaders]
  rfl

/-- Where there is no leader, the first one is missing as well. -/
theorem Tabled.getLeader_of_nil (h : Tabled parse [] filling)
    (hleaders : filling.leaders = []) {index : ℕ} (hindex : index < slotsInEpoch) :
    LeadersSchedule.getLeader ⟨filling.leaders, filling.indices⟩ index =
      .error (.error "failed to find leader by index") := by
  rw [LeadersSchedule.getLeader, dif_pos hindex]
  dsimp only
  rw [h.unlisted ⟨index, hindex⟩ fun leader => not_listed_nil leader index, hleaders]
  rfl

/-- The leaders are those of the schedule, so there are none only if it is empty. -/
theorem Numbered.leaders_eq_nil_iff (hnumbered : Numbered (leadersOf parse entries) filling)
    (haccepted : Accepted parse entries) : filling.leaders = [] ↔ entries = [] := by
  rw [← List.toFinset_eq_empty_iff, hnumbered.keys, List.toFinset_eq_empty_iff, leadersOf,
    List.filterMap_eq_nil_iff]
  constructor
  · intro hnone
    apply List.eq_nil_iff_forall_not_mem.2
    intro entry hmem
    have hparsed := haccepted.parsed entry hmem
    rw [hnone entry hmem] at hparsed
    cases hparsed
  · rintro rfl
    exact fun entry hmem => absurd hmem List.not_mem_nil

end Lookup

/-- The table gives every slot index to the leader that the schedule gives it to, and to
no one if there is none. -/
def AttributesAsListed (parse : String → Option Pubkey) (schedule : List ScheduleEntry)
    (table : LeadersSchedule) : Prop :=
  ∀ index,
    (∀ leader, table.getLeader index = .ok leader ↔ Listed parse schedule leader index) ∧
    ((∀ leader, ¬ Listed parse schedule leader index) →
      ∃ message, table.getLeader index = .error (.error message))

/-- A filled table attributes the indices as they are listed exactly when the schedule is
empty or lists them all. -/
theorem Tabled.attributesAsListed_iff {schedule : List ScheduleEntry} {filling : Filling}
    (h : Tabled parse schedule filling)
    (hnumbered : Numbered (leadersOf parse schedule) filling)
    (haccepted : Accepted parse schedule)
    (hbound : ∀ leader index, Listed parse schedule leader index → index < slotsInEpoch) :
    AttributesAsListed parse schedule ⟨filling.leaders, filling.indices⟩ ↔
      schedule = [] ∨
        ∀ index < slotsInEpoch, ∃ leader, Listed parse schedule leader index := by
  have hnil := hnumbered.leaders_eq_nil_iff haccepted
  constructor
  · intro hexact
    by_cases hempty : schedule = []
    · exact Or.inl hempty
    · right
      intro index hindex
      by_contra hnone
      have hunlisted := not_exists.1 hnone
      obtain ⟨first, others, hleaders⟩ := List.exists_cons_of_ne_nil (mt hnil.1 hempty)
      have hfirst := h.getLeader_unlisted hindex hunlisted hleaders
      exact hunlisted first (((hexact index).1 first).1 hfirst)
  · intro hcovers index
    have hgiven (leader : Pubkey) (hlisted : Listed parse schedule leader index) :=
      h.getLeader_listed (hbound leader index hlisted) hlisted
    have herror (hunlisted : ∀ leader, ¬ Listed parse schedule leader index) :
        ∃ message, LeadersSchedule.getLeader ⟨filling.leaders, filling.indices⟩ index =
          .error (.error message) := by
      by_cases hindex : index < slotsInEpoch
      · rcases hcovers with rfl | hcovers
        · exact ⟨_, h.getLeader_of_nil (hnil.2 rfl) hindex⟩
        · obtain ⟨leader, hlisted⟩ := hcovers index hindex
          exact absurd hlisted (hunlisted leader)
      · rw [LeadersSchedule.getLeader, dif_neg hindex]
        exact ⟨_, rfl⟩
    refine ⟨fun leader => ⟨fun hget => ?_, hgiven leader⟩, herror⟩
    -- the index is listed, since it has a leader, and it has only one
    by_cases hunlisted : ∀ leader, ¬ Listed parse schedule leader index
    · obtain ⟨message, hmessage⟩ := herror hunlisted
      cases hget.symm.trans hmessage
    · obtain ⟨leader', hlisted⟩ := not_forall_not.1 hunlisted
      obtain rfl := Except.ok.inj (hget.symm.trans (hgiven leader' hlisted))
      exact hlisted

/-- For schedules of the epoch that give no index to two leaders, in any order of their
entries: the code refuses a key that does not parse and more leaders than a `u16`
numbers; otherwise every listed index goes to its leader, and no other index to anyone
exactly when there are no leaders or no other index. -/
theorem table_attributes_iff {schedule : List ScheduleEntry}
    (hindices : ∀ entry ∈ schedule, ∀ index ∈ entry.2, index < slotsInEpoch)
    (hexclusive : Exclusive parse schedule) :
    (¬ Accepted parse schedule ∧
      ∃ message, LeadersSchedule.new parse schedule = .error (.error message)) ∨
    (Accepted parse schedule ∧
      ∃ table, LeadersSchedule.new parse schedule = .ok table ∧
        (∀ leader index, Listed parse schedule leader index →
          table.getLeader index = .ok leader) ∧
        (AttributesAsListed parse schedule table ↔
          schedule = [] ∨
            ∀ index < slotsInEpoch, ∃ leader, Listed parse schedule leader index)) := by
  have hexplains : Explains parse schedule (run (Filling.add parse) .init schedule) :=
    explains_run schedule
  rw [LeadersSchedule.new]
  cases hrun : run (Filling.add parse) .init schedule with
  | error fault =>
      rw [hrun] at hexplains
      cases fault with
      | panicked =>
          obtain ⟨front, entry, back, rfl, -, index, hmem, hover⟩ := hexplains
          exact absurd (hindices entry (by simp) index hmem) (not_lt.2 hover)
      | error message => exact Or.inl ⟨hexplains.1, message, rfl⟩
  | ok filling =>
      rw [hrun] at hexplains
      obtain ⟨haccepted, -, hnumbered⟩ := hexplains
      have htabled := tabled_of_run hexclusive hrun
      have hbound : ∀ leader index, Listed parse schedule leader index →
          index < slotsInEpoch := by
        rintro leader index ⟨entry, hmem, -, hindex⟩
        exact hindices entry hmem index hindex
      refine Or.inr ⟨haccepted, _, rfl, fun leader index hlisted => ?_, ?_⟩
      · exact htabled.getLeader_listed (hbound leader index hlisted) hlisted
      · exact htabled.attributesAsListed_iff hnumbered haccepted hbound

/-! ## A schedule with one slot -/

/-- One leader, with the slot index 5. -/
def oneSlotSchedule : List ScheduleEntry :=
  [(systemProgram, [5])]

theorem not_listed_oneSlotSchedule (leader : Pubkey) :
    ¬ Listed parseSystemProgram oneSlotSchedule leader 6 := by
  rintro ⟨entry, hmem, -, hindex⟩
  rw [List.mem_singleton.1 hmem] at hindex
  simp at hindex

/-- The schedule gives slot index 6 to no one, and the table gives it to the leader of
slot index 5. -/
theorem unlisted_index_has_leader :
    (∀ leader, ¬ Listed parseSystemProgram oneSlotSchedule leader 6) ∧
      (LeadersSchedule.new parseSystemProgram oneSlotSchedule >>= fun table =>
        table.getLeader 6) = .ok 0 :=
  ⟨not_listed_oneSlotSchedule, by decide⟩

theorem table_attributes_iff_oneSlotSchedule :
    ∃ table, LeadersSchedule.new parseSystemProgram oneSlotSchedule = .ok table ∧
      table.getLeader 5 = .ok 0 ∧
      ¬ AttributesAsListed parseSystemProgram oneSlotSchedule table := by
  have hindices : ∀ entry ∈ oneSlotSchedule, ∀ index ∈ entry.2, index < slotsInEpoch := by
    decide
  have hexclusive : Exclusive parseSystemProgram oneSlotSchedule := by
    rintro index leader leader' ⟨entry, hmem, hparse, -⟩ ⟨entry', hmem', hparse', -⟩
    rw [List.mem_singleton.1 hmem] at hparse
    rw [List.mem_singleton.1 hmem'] at hparse'
    exact Option.some.inj (hparse.symm.trans hparse')
  have hlisted : Listed parseSystemProgram oneSlotSchedule 0 5 :=
    ⟨_, List.mem_singleton_self _, by decide, by decide⟩
  have haccepted : Accepted parseSystemProgram oneSlotSchedule := ⟨by decide, by decide⟩
  obtain ⟨-, table, htable, hgiven, hexact⟩ :=
    (table_attributes_iff hindices hexclusive).resolve_left fun h => h.1 haccepted
  refine ⟨table, htable, hgiven 0 5 hlisted, ?_⟩
  rw [hexact]
  rintro (hnil | hcovers)
  · cases hnil
  · obtain ⟨leader, hleader⟩ := hcovers 6 (by decide)
    exact not_listed_oneSlotSchedule leader hleader

end Solfees.Schedule
