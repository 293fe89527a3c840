import Solfees.Schedule.SolanaSchedule

/-!
# At most one fetch for each epoch

The entry of an epoch says how the latest attempt at its schedule stands, and
every earlier attempt has failed.  This holds for as long as no response
overruns the epoch: the panic ends the task before it takes the lock, so the
mark stays with nobody left to clear it.
-/

namespace Solfees.Schedule

open Solfees.Attempts
open Solfees.Draining
open Solfees.Message
open Solfees.Run

variable {epochAndSlotIndex : Slot → Epoch × ℕ} {parse : String → Option Pubkey}
  {state next : SolanaSchedule} {number : ℕ} {task : FetchTask}

/-- Fetching as it is meant: an epoch is in progress exactly while one of its tasks
runs, at most one does, a stored schedule stays whatever comes next, and an epoch
all of whose tasks have failed is fetched again. -/
structure SingleFlight (epochAndSlotIndex : Slot → Epoch × ℕ)
    (parse : String → Option Pubkey) (state : SolanaSchedule) : Prop where
  inProgress : ∀ epoch : Epoch,
    state.leaderScheduleByEpoch[epoch]? = some none ↔ state.running epoch = 1
  once : ∀ epoch : Epoch, state.running epoch ≤ 1
  kept : ∀ event next (epoch : Epoch) (schedule : LeadersSchedule),
    state.step epochAndSlotIndex parse event = .ok next →
    state.leaderScheduleByEpoch[epoch]? = some (some schedule) →
    next.leaderScheduleByEpoch[epoch]? = some (some schedule)
  restarts : ∀ slot, (∀ task ∈ state.tasks,
      task.epoch = (epochAndSlotIndex slot).1 → task.phase.isFailed = true) →
    (state.getLeader epochAndSlotIndex slot).1.tasks =
      state.tasks ++ [⟨(epochAndSlotIndex slot).1, slot, .fetching⟩]

/-! ## The entries follow the attempts -/

/-- Every entry says how the latest attempt stands. -/
structure Tracked (state : SolanaSchedule) : Prop where
  entry : ∀ epoch : Epoch, state.leaderScheduleByEpoch[epoch]? = entry (state.attempts epoch)
  serial : ∀ epoch : Epoch, Serial (state.attempts epoch)

theorem tracked_init : Tracked .init := by
  constructor
  · intro epoch
    simp [SolanaSchedule.init, SolanaSchedule.attempts, entry]
  · intro epoch
    exact serial_nil

/-- The epoch of a running task is in progress. -/
theorem Tracked.entry_of_task (h : Tracked state) (htask : state.tasks[number]? = some task)
    (hrunning : task.phase.isRunning = true) :
    state.leaderScheduleByEpoch[task.epoch]? = some none := by
  rw [h.entry, (h.serial task.epoch).entry_eq_inProgress_iff, ← state.running_eq]
  apply le_antisymm
  · rw [state.running_eq]
    exact (h.serial task.epoch).running_le_one
  · rw [Nat.one_le_iff_ne_zero, SolanaSchedule.running, Nat.ne_zero_iff_zero_lt,
      List.countP_pos_iff]
    exact ⟨task, List.mem_of_getElem? htask, by simp [hrunning]⟩

/-- A running task that takes a step, with the entry that goes with it. -/
theorem Tracked.setPhase (h : Tracked state) (htask : state.tasks[number]? = some task)
    (hrunning : task.phase.isRunning = true) {phase : Phase}
    {entries : OrderedMap Epoch (Option LeadersSchedule)}
    (hentry : entries[task.epoch]? = phase.attempt.entry)
    (hother : ∀ other ≠ task.epoch,
      entries[other]? = state.leaderScheduleByEpoch[other]?) :
    Tracked { state.setPhase number task phase with leaderScheduleByEpoch := entries } := by
  obtain ⟨⟨front, back, hattempts, hset⟩, hkept⟩ :=
    SolanaSchedule.attempts_setPhase htask phase
  have hserial := h.serial task.epoch
  rw [hattempts] at hserial
  obtain rfl : back = [] := by
    apply hserial.eq_nil
    rw [Phase.isFailed_attempt]
    cases hphase : task.phase <;> simp_all [Phase.isRunning, Phase.isFailed]
  constructor
  · intro epoch
    change entries[epoch]? = Attempts.entry ((state.setPhase number task phase).attempts epoch)
    by_cases hepoch : epoch = task.epoch
    · rw [hepoch, hset, entry_concat, hentry]
    · rw [hother epoch hepoch, hkept epoch hepoch, h.entry]
  · intro epoch
    change Serial ((state.setPhase number task phase).attempts epoch)
    by_cases hepoch : epoch = task.epoch
    · rw [hepoch, hset]
      exact serial_concat_iff.2 (serial_concat_iff.1 hserial)
    · rw [hkept epoch hepoch]
      exact h.serial epoch

/-! ## The steps -/

theorem tracked_getLeader (h : Tracked state) (slot : Slot) :
    Tracked (state.getLeader epochAndSlotIndex slot).1 := by
  cases hget : state.leaderScheduleByEpoch[(epochAndSlotIndex slot).1]? with
  | some entry =>
      rw [SolanaSchedule.getLeader_of_some hget]
      exact h
  | none =>
      rw [SolanaSchedule.getLeader_of_none hget]
      constructor
      · intro epoch
        rw [SolanaSchedule.attempts_spawnFetch, SolanaSchedule.spawnFetch, getElem?_insert]
        split
        · rw [entry_concat]
          rfl
        · rw [List.append_nil, h.entry]
      · intro epoch
        rw [SolanaSchedule.attempts_spawnFetch]
        split
        · rename_i hepoch
          apply (h.serial epoch).concat
          rw [← h.entry, ← hepoch, hget]
        · rw [List.append_nil]
          exact h.serial epoch

/-- What a response does to the task that awaits it. -/
theorem onResponse_cases {response : RpcResponse}
    (hnext : state.onResponse parse number response = some next) :
    ∃ task, state.tasks[number]? = some task ∧ task.phase = .fetching ∧
      next = state.setPhase number task
        (.ofUpdate (updateLeaderSchedule parse response)) := by
  obtain ⟨task, htask, hphase⟩ := Option.bind_eq_some_iff.1 hnext
  split at hphase
  · exact ⟨task, htask, ‹_›, (Option.some.inj hphase).symm⟩
  · cases hphase

/-- What a task does with the lock. -/
theorem onLocked_cases (hnext : state.onLocked number = some next) :
    ∃ task, state.tasks[number]? = some task ∧
      ((∃ schedule, task.phase = .storing schedule ∧
        next = { state.setPhase number task (.stored schedule) with
          leaderScheduleByEpoch :=
            state.leaderScheduleByEpoch.insert task.epoch (some schedule) }) ∨
      (∃ message, task.phase = .clearing message ∧
        next = { state.setPhase number task .cleared with
          leaderScheduleByEpoch := state.leaderScheduleByEpoch.erase task.epoch })) := by
  obtain ⟨task, htask, hphase⟩ := Option.bind_eq_some_iff.1 hnext
  split at hphase
  · exact ⟨task, htask, Or.inl ⟨_, ‹_›, (Option.some.inj hphase).symm⟩⟩
  · exact ⟨task, htask, Or.inr ⟨_, ‹_›, (Option.some.inj hphase).symm⟩⟩
  · cases hphase

theorem tracked_onResponse {response : RpcResponse} (h : Tracked state)
    (hnext : state.onResponse parse number response = some next)
    (hfits : updateLeaderSchedule parse response ≠ .error .panicked) : Tracked next := by
  obtain ⟨task, htask, hphase, rfl⟩ := onResponse_cases hnext
  have hrunning : task.phase.isRunning = true := by rw [hphase, Phase.isRunning]
  apply h.setPhase htask hrunning _ fun _ _ => rfl
  rw [h.entry_of_task htask hrunning]
  cases hupdate : updateLeaderSchedule parse response with
  | ok schedule => rfl
  | error fault =>
      cases fault with
      | error message => rfl
      | panicked => exact absurd hupdate hfits

theorem tracked_onLocked (h : Tracked state) (hnext : state.onLocked number = some next) :
    Tracked next := by
  obtain ⟨task, htask, ⟨schedule, hphase, rfl⟩ | ⟨message, hphase, rfl⟩⟩ :=
    onLocked_cases hnext
  · apply h.setPhase htask (by rw [hphase, Phase.isRunning])
    · rw [getElem?_insert, if_pos rfl]
      rfl
    · intro other hother
      rw [getElem?_insert, if_neg (Ne.symm hother)]
  · apply h.setPhase htask (by rw [hphase, Phase.isRunning])
    · rw [getElem?_erase, if_pos rfl]
      rfl
    · intro other hother
      rw [getElem?_erase, if_neg (Ne.symm hother)]

theorem updateLeaderSchedule_eq_panicked_iff {response : RpcResponse} :
    updateLeaderSchedule parse response = .error .panicked ↔
      ∃ schedule, response = .ok (some schedule) ∧ Overruns parse schedule := by
  match response with
  | .error message => simp [updateLeaderSchedule]
  | .ok none => simp [updateLeaderSchedule]
  | .ok (some schedule) => simp [updateLeaderSchedule, new_eq_panicked_iff]

/-- What an event does to the state. -/
theorem step_cases {event : Event} (hnext : state.step epochAndSlotIndex parse event = .ok next) :
    (∃ slot, event = .getLeader slot ∧
      next = (state.getLeader epochAndSlotIndex slot).1) ∨
    (∃ number response, event = .responded number response ∧
      state.onResponse parse number response = some next) ∨
    (∃ number, event = .locked number ∧ state.onLocked number = some next) := by
  cases event with
  | getLeader slot => exact Or.inl ⟨slot, rfl, (Except.ok.inj hnext).symm⟩
  | responded number response =>
      exact Or.inr (Or.inl ⟨number, response, rfl, eq_some_of_elim_eq_ok hnext⟩)
  | locked number => exact Or.inr (Or.inr ⟨number, rfl, eq_some_of_elim_eq_ok hnext⟩)

/-! ## What the attempts give -/

/-- A stored schedule stays. -/
theorem Tracked.kept (h : Tracked state) {event : Event}
    (hnext : state.step epochAndSlotIndex parse event = .ok next) {epoch : Epoch}
    {schedule : LeadersSchedule}
    (hstored : state.leaderScheduleByEpoch[epoch]? = some (some schedule)) :
    next.leaderScheduleByEpoch[epoch]? = some (some schedule) := by
  rcases step_cases hnext with ⟨slot, -, rfl⟩ | ⟨number, response, -, hresponse⟩ |
    ⟨number, -, hlocked⟩
  · cases hget : state.leaderScheduleByEpoch[(epochAndSlotIndex slot).1]? with
    | some entry => rwa [SolanaSchedule.getLeader_of_some hget]
    | none =>
        have hne : (epochAndSlotIndex slot).1 ≠ epoch := by
          intro heq
          rw [heq, hstored] at hget
          cases hget
        rwa [SolanaSchedule.getLeader_of_none hget, SolanaSchedule.spawnFetch,
          getElem?_insert, if_neg hne]
  · obtain ⟨task, -, -, rfl⟩ := onResponse_cases hresponse
    exact hstored
  · obtain ⟨task, htask, hcases⟩ := onLocked_cases hlocked
    have hne (hrunning : task.phase.isRunning = true) : task.epoch ≠ epoch := by
      intro heq
      have hentry := h.entry_of_task htask hrunning
      rw [heq, hstored] at hentry
      cases hentry
    rcases hcases with ⟨schedule, hphase, rfl⟩ | ⟨message, hphase, rfl⟩
    · rwa [getElem?_insert, if_neg (hne (by rw [hphase, Phase.isRunning]))]
    · rwa [getElem?_erase, if_neg (hne (by rw [hphase, Phase.isRunning]))]

theorem Tracked.singleFlight (h : Tracked state) :
    SingleFlight epochAndSlotIndex parse state where
  inProgress epoch := by
    rw [h.entry, (h.serial epoch).entry_eq_inProgress_iff, state.running_eq]
  once epoch := by
    rw [state.running_eq]
    exact (h.serial epoch).running_le_one
  kept _ _ _ _ hnext hstored := h.kept hnext hstored
  restarts slot hfailed := by
    have hentry : state.leaderScheduleByEpoch[(epochAndSlotIndex slot).1]? = none := by
      rw [h.entry]
      apply entry_of_failed
      intro attempt hmem
      obtain ⟨task, htask, rfl⟩ := List.mem_map.1 hmem
      obtain ⟨htask, hepoch⟩ := List.mem_filter.1 htask
      rw [Phase.isFailed_attempt]
      exact hfailed task htask (of_decide_eq_true hepoch)
    rw [SolanaSchedule.getLeader_of_none hentry]
    rfl

/-- A panic leaves an epoch in progress without a task. -/
theorem not_singleFlight_of_panicked {response : RpcResponse}
    (h : SingleFlight epochAndSlotIndex parse state)
    (hnext : state.onResponse parse number response = some next)
    (hpanicked : updateLeaderSchedule parse response = .error .panicked) :
    ¬ SingleFlight epochAndSlotIndex parse next := by
  intro h'
  obtain ⟨task, htask, hphase, rfl⟩ := onResponse_cases hnext
  rw [hpanicked] at h'
  obtain ⟨⟨front, back, hbefore, hafter⟩, -⟩ :=
    SolanaSchedule.attempts_setPhase htask (.ofUpdate (.error .panicked))
  have hcount : state.running task.epoch =
      (state.setPhase number task (.ofUpdate (.error .panicked))).running task.epoch + 1 := by
    rw [SolanaSchedule.running_eq, SolanaSchedule.running_eq, hbefore, hafter, hphase,
      Attempts.running, Attempts.running, List.countP_append, List.countP_append,
      List.countP_cons, List.countP_cons]
    rfl
  have hone : state.running task.epoch = 1 := by
    have honce := h.once task.epoch
    omega
  have hstill := (h'.inProgress task.epoch).1 ((h.inProgress task.epoch).2 hone)
  omega

/-! ## Whole runs -/

/-- A response that does not overrun the epoch. -/
def Event.Fits (parse : String → Option Pubkey) : Event → Prop
  | .responded _ (.ok (some schedule)) => ¬ Overruns parse schedule
  | _ => True

theorem fits_iff (number : ℕ) (response : RpcResponse) :
    (Event.responded number response).Fits parse ↔
      updateLeaderSchedule parse response ≠ .error .panicked := by
  rw [ne_eq, updateLeaderSchedule_eq_panicked_iff]
  match response with
  | .error message => simp [Event.Fits]
  | .ok none => simp [Event.Fits]
  | .ok (some schedule) => simp [Event.Fits]

theorem tracked_of_run {events : List Event}
    (hrun : run (SolanaSchedule.step epochAndSlotIndex parse) .init events = .ok state)
    (hfits : ∀ event ∈ events, event.Fits parse) : Tracked state := by
  have hinv := run_invariant_of_ok
    (fun events state => (∀ event ∈ events, Event.Fits parse event) → Tracked state)
    (fun _ => tracked_init) (by
      intro before state event next htracked hnext hfits
      have h := htracked fun event hmem => hfits event (List.mem_append_left _ hmem)
      rcases step_cases hnext with ⟨slot, -, rfl⟩ | ⟨number, response, rfl, hresponse⟩ |
        ⟨number, -, hlocked⟩
      · exact tracked_getLeader h slot
      · exact tracked_onResponse h hresponse ((fits_iff number response).1
          (hfits _ (List.mem_append_right _ List.mem_cons_self)))
      · exact tracked_onLocked h hlocked) hrun
  exact hinv hfits

/-- A run fetches as it is meant to, in every state it passes through, exactly
when no response overruns the epoch. -/
theorem single_flight_iff {events : List Event} {final : SolanaSchedule}
    (hrun : run (SolanaSchedule.step epochAndSlotIndex parse) .init events = .ok final) :
    (∀ front, front <+: events → ∀ state,
      run (SolanaSchedule.step epochAndSlotIndex parse) .init front = .ok state →
      SingleFlight epochAndSlotIndex parse state) ↔
    ∀ event ∈ events, event.Fits parse := by
  constructor
  · intro h event hmem
    obtain ⟨front, back, rfl⟩ := List.append_of_mem hmem
    rw [List.append_cons] at hrun
    obtain ⟨next, hnext, -⟩ := exists_run_of_append hrun
    obtain ⟨state, hstate, hlast⟩ := exists_run_of_append hnext
    rw [run_singleton] at hlast
    have hbefore := h front (List.prefix_append front _) state hstate
    have hafter := h (front ++ [event]) ⟨back, by simp⟩ next hnext
    rcases step_cases hlast with ⟨slot, rfl, -⟩ | ⟨number, response, rfl, hresponse⟩ |
      ⟨number, rfl, -⟩
    · trivial
    · rw [fits_iff]
      intro hpanicked
      exact not_singleFlight_of_panicked hbefore hresponse hpanicked hafter
    · trivial
  · intro hfits front hfront state hstate
    apply (tracked_of_run hstate _).singleFlight
    exact fun event hmem => hfits event (hfront.subset hmem)

/-! ## A schedule that fits, and one that overruns its epoch -/

def normalEpochs (slot : Slot) : Epoch × ℕ :=
  (slot / slotsInEpoch, slot % slotsInEpoch)

def storedRun : List Event :=
  [.getLeader 5, .responded 0 (.ok (some [(systemProgram, [5, 7])])), .locked 0,
    .getLeader 7]

def overrunRun : List Event :=
  [.getLeader 5, .responded 0 (.ok (some [(systemProgram, [432000])]))]

theorem single_flight_iff_storedRun :
    ∃ final, run (SolanaSchedule.step normalEpochs parseSystemProgram) .init storedRun =
        .ok final ∧
      SingleFlight normalEpochs parseSystemProgram final := by
  obtain ⟨final, hrun⟩ : ∃ final,
      run (SolanaSchedule.step normalEpochs parseSystemProgram) .init storedRun =
        .ok final :=
    ⟨_, rfl⟩
  have hfits : ∀ event ∈ storedRun, event.Fits parseSystemProgram := by
    intro event hmem
    fin_cases hmem
    · trivial
    · rw [fits_iff]
      intro hpanicked
      cases hpanicked
    · trivial
    · trivial
  exact ⟨final, hrun, (single_flight_iff hrun).2 hfits storedRun (List.prefix_refl _)
    final hrun⟩

/-- The overrun ends the only task, and the epoch stays in progress: it is never
fetched again. -/
theorem overrun_wedges_epoch :
    ∃ state, run (SolanaSchedule.step normalEpochs parseSystemProgram) .init overrunRun =
        .ok state ∧
      state.leaderScheduleByEpoch[0]? = some none ∧ state.running 0 = 0 ∧
      (∀ slot < slotsInEpoch, state.getLeader normalEpochs slot = (state, none)) ∧
      ¬ SingleFlight normalEpochs parseSystemProgram state := by
  obtain ⟨state, hrun, hentry, hrunning⟩ : ∃ state,
      run (SolanaSchedule.step normalEpochs parseSystemProgram) .init overrunRun =
        .ok state ∧
      state.leaderScheduleByEpoch[0]? = some none ∧ state.running 0 = 0 :=
    ⟨_, rfl, rfl, rfl⟩
  refine ⟨state, hrun, hentry, hrunning, ?_, ?_⟩
  · intro slot hslot
    have hepoch : (normalEpochs slot).1 = 0 := Nat.div_eq_of_lt hslot
    simp only [SolanaSchedule.getLeader, hepoch, hentry]
  · intro h
    have hone := (h.inProgress 0).1 hentry
    rw [hrunning] at hone
    cases hone

end Solfees.Schedule
