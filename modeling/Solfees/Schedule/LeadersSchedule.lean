import Solfees.Core.Draining
import Solfees.Core.Run
import Solfees.Geyser.Message

/-!
# The leaders of an epoch

`LeadersSchedule::new` numbers the leaders of a schedule and writes the number
of a leader at each of its slot indices.  The schedule is a map: its entries
come in some order, each with a key that may not parse and with indices that are
written without a check, so an index past the epoch panics.
-/

namespace Solfees.Schedule

open Solfees.Draining
open Solfees.Message
open Solfees.Run

/-- The length of `indices`. -/
def slotsInEpoch : ℕ := 432000

/-- How the code is left without a value: by an error with its context, or by a
panic. -/
inductive Fault
  | error (message : String)
  | panicked
  deriving DecidableEq, Repr

structure LeadersSchedule where
  leaders : List Pubkey
  indices : Fin slotsInEpoch → UInt16

/-- The local variables of `LeadersSchedule::new`. -/
structure Filling where
  map : OrderedMap Pubkey UInt16
  leaders : List Pubkey
  indices : Fin slotsInEpoch → UInt16

/-- A leader with its slot indices, as the response has them. -/
abbrev ScheduleEntry := String × List ℕ

namespace Filling

def init : Filling where
  map := ∅
  leaders := []
  indices := fun _ => 0

/-- The number of a leader, a new one if the leader is new. -/
def leaderIndex (filling : Filling) (leader : Pubkey) :
    Except Fault (Filling × UInt16) :=
  match filling.map[leader]? with
  | some index => .ok (filling, index)
  | none =>
      if filling.leaders.length < 2 ^ 16 then
        let index := UInt16.ofNat filling.leaders.length
        .ok ({ filling with
          map := filling.map.insert leader index
          leaders := filling.leaders ++ [leader] }, index)
      else .error (.error "leader index out of bounds")

/-- `indices[index] = leader_index`. -/
def assign (leaderIndex : UInt16) (filling : Filling) (index : ℕ) :
    Except Fault Filling :=
  if hindex : index < slotsInEpoch then
    .ok { filling with
      indices := Function.update filling.indices ⟨index, hindex⟩ leaderIndex }
  else .error .panicked

/-- One turn of the loop over the schedule. -/
def add (parse : String → Option Pubkey) (filling : Filling) (entry : ScheduleEntry) :
    Except Fault Filling :=
  match parse entry.1 with
  | none => .error (.error "failed to parse leader key")
  | some leader => do
      let (filling, leaderIndex) ← filling.leaderIndex leader
      entry.2.foldlM (assign leaderIndex) filling

end Filling

/-- `LeadersSchedule::new`. -/
def LeadersSchedule.new (parse : String → Option Pubkey) (schedule : List ScheduleEntry) :
    Except Fault LeadersSchedule := do
  let filling ← run (Filling.add parse) .init schedule
  return { leaders := filling.leaders, indices := filling.indices }

/-- `LeadersSchedule::get_leader`. -/
def LeadersSchedule.getLeader (schedule : LeadersSchedule) (index : ℕ) :
    Except Fault Pubkey :=
  if hindex : index < slotsInEpoch then
    match schedule.leaders[(schedule.indices ⟨index, hindex⟩).toNat]? with
    | some leader => .ok leader
    | none => .error (.error "failed to find leader by index")
  else .error (.error "failed to find leader index")

/-! ## Schedules that overrun the epoch -/

section Overruns

variable (parse : String → Option Pubkey)

/-- The keys of the entries that parse. -/
def leadersOf (entries : List ScheduleEntry) : List Pubkey :=
  entries.filterMap fun entry => parse entry.1

/-- Every key parses, and the leaders can be numbered. -/
structure Accepted (entries : List ScheduleEntry) : Prop where
  parsed : ∀ entry ∈ entries, (parse entry.1).isSome = true
  count : (leadersOf parse entries).toFinset.card ≤ 2 ^ 16

/-- An index past the epoch is listed, and nothing up to its entry is refused. -/
def Overruns (schedule : List ScheduleEntry) : Prop :=
  ∃ front entry back, schedule = front ++ entry :: back ∧
    Accepted parse (front ++ [entry]) ∧ ∃ index ∈ entry.2, slotsInEpoch ≤ index

variable {parse} {entries : List ScheduleEntry} {entry : ScheduleEntry}

theorem accepted_nil : Accepted parse [] :=
  ⟨fun _ hmem => absurd hmem List.not_mem_nil, Nat.zero_le _⟩

theorem leadersOf_concat (entries : List ScheduleEntry) {leader : Pubkey}
    (hparse : parse entry.1 = some leader) :
    leadersOf parse (entries ++ [entry]) = leadersOf parse entries ++ [leader] := by
  simp [leadersOf, hparse]

theorem Accepted.of_append {front back : List ScheduleEntry}
    (h : Accepted parse (front ++ back)) : Accepted parse front := by
  refine ⟨fun entry hmem => h.parsed entry (List.mem_append_left _ hmem), ?_⟩
  apply le_trans (Finset.card_le_card _) h.count
  intro leader hmem
  rw [leadersOf, List.filterMap_append, List.toFinset_append]
  exact Finset.mem_union_left _ hmem

theorem accepted_concat_iff {leader : Pubkey} (h : Accepted parse entries)
    (hparse : parse entry.1 = some leader) :
    Accepted parse (entries ++ [entry]) ↔
      (leadersOf parse entries ++ [leader]).toFinset.card ≤ 2 ^ 16 := by
  rw [← leadersOf_concat entries hparse]
  refine ⟨fun haccepted => haccepted.count, fun hcount => ⟨?_, hcount⟩⟩
  intro entry' hmem
  rcases List.mem_append.1 hmem with hmem | hmem
  · exact h.parsed entry' hmem
  · rw [List.mem_singleton.1 hmem, hparse]
    rfl

theorem not_overruns_nil : ¬ Overruns parse [] := by
  rintro ⟨front, entry, back, hsplit, -⟩
  simp at hsplit

theorem overruns_concat_iff :
    Overruns parse (entries ++ [entry]) ↔ Overruns parse entries ∨
      (Accepted parse (entries ++ [entry]) ∧ ∃ index ∈ entry.2, slotsInEpoch ≤ index) := by
  constructor
  · rintro ⟨front, entry', back, hsplit, haccepted, hindex⟩
    rcases concat_eq_append_cons_iff.1 hsplit with ⟨rfl, rfl, -⟩ | ⟨back, hback, -⟩
    · exact Or.inr ⟨haccepted, hindex⟩
    · exact Or.inl ⟨front, entry', back, hback, haccepted, hindex⟩
  · rintro (⟨front, entry', back, rfl, haccepted, hindex⟩ | ⟨haccepted, hindex⟩)
    · exact ⟨front, entry', back ++ [entry], by simp, haccepted, hindex⟩
    · exact ⟨entries, entry, [], rfl, haccepted, hindex⟩

/-- An entry that is refused does not overrun the epoch. -/
theorem not_overruns_concat (hfits : ¬ Overruns parse entries)
    (hrefused : ¬ Accepted parse (entries ++ [entry])) :
    ¬ Overruns parse (entries ++ [entry]) := by
  rw [overruns_concat_iff]
  exact not_or.2 ⟨hfits, fun h => hrefused h.1⟩

end Overruns

/-! ## The numbering of the leaders -/

/-- The map knows the leaders, each once. -/
structure Numbered (keys : List Pubkey) (filling : Filling) : Prop where
  nodup : filling.leaders.Nodup
  keys : filling.leaders.toFinset = keys.toFinset
  map : ∀ leader, filling.map[leader]? = none ↔ leader ∉ filling.leaders

theorem Numbered.length {keys : List Pubkey} {filling : Filling}
    (h : Numbered keys filling) : filling.leaders.length = keys.toFinset.card := by
  rw [← h.keys, List.toFinset_card_of_nodup h.nodup]

/-- A new leader is put last, with any number. -/
theorem Numbered.concat {keys : List Pubkey} {filling : Filling} (h : Numbered keys filling)
    {leader : Pubkey} (hnot : leader ∉ filling.leaders) (index : UInt16) :
    Numbered (keys ++ [leader]) { filling with
      map := filling.map.insert leader index
      leaders := filling.leaders ++ [leader] } where
  nodup := by
    apply List.nodup_append.2
    refine ⟨h.nodup, List.nodup_singleton leader, ?_⟩
    intro other hmem leader' hleader'
    rw [List.mem_singleton.1 hleader']
    exact ne_of_mem_of_not_mem hmem hnot
  keys := by
    rw [List.toFinset_append, h.keys, List.toFinset_append]
  map := by
    intro other
    change (filling.map.insert leader index)[other]? = none ↔ _
    rw [getElem?_insert, List.mem_append, List.mem_singleton]
    split
    · rename_i heq
      simp [heq]
    · rename_i hne
      rw [h.map other]
      simp [Ne.symm hne]

/-- A leader gets a number exactly when the leaders still can be numbered. -/
theorem leaderIndex_spec {keys : List Pubkey} {filling : Filling}
    (h : Numbered keys filling) (hcount : keys.toFinset.card ≤ 2 ^ 16) (leader : Pubkey) :
    (∃ next index, filling.leaderIndex leader = .ok (next, index) ∧
      (keys ++ [leader]).toFinset.card ≤ 2 ^ 16 ∧ Numbered (keys ++ [leader]) next) ∨
    (∃ message, filling.leaderIndex leader = .error (.error message) ∧
      ¬ (keys ++ [leader]).toFinset.card ≤ 2 ^ 16) := by
  have hkeys : (keys ++ [leader]).toFinset = insert leader keys.toFinset := by
    rw [List.toFinset_append, Finset.union_comm]
    rfl
  rw [Filling.leaderIndex, hkeys]
  cases hget : filling.map[leader]? with
  | some index =>
      have hmem : leader ∈ filling.leaders := by
        by_contra hnot
        rw [(h.map leader).2 hnot] at hget
        cases hget
      have hinsert : insert leader keys.toFinset = keys.toFinset := by
        rw [← h.keys]
        exact Finset.insert_eq_self.2 (List.mem_toFinset.2 hmem)
      rw [hinsert]
      refine Or.inl ⟨filling, index, rfl, hcount, h.nodup, ?_, h.map⟩
      rw [hkeys, hinsert, h.keys]
  | none =>
      have hnot : leader ∉ filling.leaders := (h.map leader).1 hget
      have hnew : leader ∉ keys.toFinset := by
        rwa [← h.keys, List.mem_toFinset]
      rw [Finset.card_insert_of_notMem hnew, ← h.length]
      by_cases hroom : filling.leaders.length < 2 ^ 16
      · left
        simp only [hroom, if_true]
        exact ⟨_, _, rfl, hroom, h.concat hnot _⟩
      · right
        simp only [hroom, if_false]
        exact ⟨_, rfl, by omega⟩

/-- The indices of a leader are written, unless one is past the epoch. -/
theorem foldlM_assign_spec (leaderIndex : UInt16) (indexes : List ℕ) (filling : Filling) :
    (∃ next, indexes.foldlM (Filling.assign leaderIndex) filling = .ok next ∧
      (∀ index ∈ indexes, index < slotsInEpoch) ∧
      next.leaders = filling.leaders ∧ next.map = filling.map) ∨
    (indexes.foldlM (Filling.assign leaderIndex) filling = .error .panicked ∧
      ∃ index ∈ indexes, slotsInEpoch ≤ index) := by
  induction indexes generalizing filling with
  | nil => exact Or.inl ⟨filling, rfl, fun _ hmem => absurd hmem List.not_mem_nil, rfl, rfl⟩
  | cons index indexes ih =>
      rw [List.foldlM_cons, Filling.assign]
      by_cases hindex : index < slotsInEpoch
      · rw [dif_pos hindex]
        rcases ih { filling with
            indices := Function.update filling.indices ⟨index, hindex⟩ leaderIndex } with
          ⟨next, hnext, hindexes, hleaders, hmap⟩ | ⟨hpanic, index', hmem, hindex'⟩
        · exact Or.inl ⟨next, hnext, List.forall_mem_cons.2 ⟨hindex, hindexes⟩,
            hleaders, hmap⟩
        · exact Or.inr ⟨hpanic, index', List.mem_cons_of_mem _ hmem, hindex'⟩
      · rw [dif_neg hindex]
        exact Or.inr ⟨rfl, index, List.mem_cons_self, not_lt.1 hindex⟩

/-! ## When the code panics -/

/-- What the entries say about the outcome of the loop. -/
def Explains (parse : String → Option Pubkey) (entries : List ScheduleEntry) :
    Except Fault Filling → Prop
  | .ok filling => Accepted parse entries ∧ ¬ Overruns parse entries ∧
      Numbered (leadersOf parse entries) filling
  | .error .panicked => Overruns parse entries
  | .error (.error _) => ¬ Accepted parse entries ∧ ¬ Overruns parse entries

variable {parse : String → Option Pubkey}

theorem explains_add {entries : List ScheduleEntry} {filling : Filling}
    (h : Explains parse entries (.ok filling)) (entry : ScheduleEntry) :
    Explains parse (entries ++ [entry]) (filling.add parse entry) := by
  obtain ⟨haccepted, hfits, hnumbered⟩ := h
  rw [Filling.add]
  cases hparse : parse entry.1 with
  | none =>
      have hrefused : ¬ Accepted parse (entries ++ [entry]) := by
        intro h
        have hsome := h.parsed entry (by simp)
        rw [hparse] at hsome
        cases hsome
      exact ⟨hrefused, not_overruns_concat hfits hrefused⟩
  | some leader =>
      have hiff := accepted_concat_iff haccepted hparse
      rcases leaderIndex_spec hnumbered haccepted.count leader with
        ⟨next, index, hnext, hcount, hnumbered'⟩ | ⟨message, herror, hcount⟩
      · have haccepted' := hiff.2 hcount
        simp only [hnext]
        change Explains parse _ (entry.2.foldlM (Filling.assign index) next)
        rcases foldlM_assign_spec index entry.2 next with
          ⟨filled, hfilled, hindexes, hleaders, hmap⟩ | ⟨hpanic, hindex⟩
        · rw [hfilled]
          refine ⟨haccepted', ?_, ?_, ?_, ?_⟩
          · rw [overruns_concat_iff]
            rintro (hbefore | ⟨-, index, hmem, hindex⟩)
            · exact hfits hbefore
            · exact absurd (hindexes index hmem) (not_lt.2 hindex)
          · rw [hleaders]
            exact hnumbered'.nodup
          · rw [hleaders, leadersOf_concat entries hparse]
            exact hnumbered'.keys
          · rw [hleaders, hmap]
            exact hnumbered'.map
        · rw [hpanic]
          exact overruns_concat_iff.2 (Or.inr ⟨haccepted', hindex⟩)
      · have hrefused : ¬ Accepted parse (entries ++ [entry]) := fun h => hcount (hiff.1 h)
        simp only [herror]
        exact ⟨hrefused, not_overruns_concat hfits hrefused⟩

theorem explains_run (entries : List ScheduleEntry) :
    Explains parse entries (run (Filling.add parse) .init entries) := by
  induction entries using List.reverseRecOn with
  | nil =>
      refine ⟨accepted_nil, not_overruns_nil, List.nodup_nil, rfl, fun leader => ?_⟩
      simp [Filling.init]
  | append_singleton entries entry ih =>
      rw [run_concat]
      cases hrun : run (Filling.add parse) .init entries with
      | ok filling =>
          rw [hrun] at ih
          exact explains_add ih entry
      | error fault =>
          rw [hrun] at ih
          cases fault with
          | panicked => exact overruns_concat_iff.2 (Or.inl ih)
          | error message =>
              have hrefused : ¬ Accepted parse (entries ++ [entry]) :=
                fun h => ih.1 h.of_append
              exact ⟨hrefused, not_overruns_concat ih.2 hrefused⟩

/-- The code panics exactly on the schedules that overrun the epoch. -/
theorem new_eq_panicked_iff (schedule : List ScheduleEntry) :
    LeadersSchedule.new parse schedule = .error .panicked ↔ Overruns parse schedule := by
  have h : Explains parse schedule (run (Filling.add parse) .init schedule) :=
    explains_run schedule
  rw [LeadersSchedule.new]
  cases hrun : run (Filling.add parse) .init schedule with
  | ok filling =>
      rw [hrun] at h
      exact iff_of_false (fun heq => by cases heq) h.2.1
  | error fault =>
      rw [hrun] at h
      cases fault with
      | panicked => exact ⟨fun _ => h, fun _ => rfl⟩
      | error message => exact iff_of_false (fun heq => by cases heq) h.2

/-! ## A key that parses -/

def systemProgram : String := "11111111111111111111111111111111"

def parseSystemProgram (key : String) : Option Pubkey :=
  if key = systemProgram then some 0 else none

end Solfees.Schedule
