import Solfees.Core.Attempts
import Solfees.Schedule.LeadersSchedule

/-!
# Fetching leader schedules

`get_leader` marks an epoch without a schedule as in progress and spawns a task
that fetches it.  The task awaits the response, and takes the lock once more, to
store the schedule or to clear the mark.  The steps below are the critical
sections and what a task does between them.  The split of a slot is that of
`EpochSchedule::get_epoch_and_slot_index`.
-/

namespace Solfees.Schedule

open Solfees.Attempts
open Solfees.Draining
open Solfees.Message

abbrev Epoch := ℕ

/-- What `get_leader_schedule_with_commitment` gives. -/
abbrev RpcResponse := Except String (Option (List ScheduleEntry))

/-- Where a fetch task stands: it awaits the response, it is about to take the
lock, or it has ended. -/
inductive Phase
  | fetching
  | storing (schedule : LeadersSchedule)
  | clearing (message : String)
  | stored (schedule : LeadersSchedule)
  | cleared
  | panicked

structure FetchTask where
  epoch : Epoch
  slot : Slot
  phase : Phase

structure SolanaSchedule where
  leaderScheduleByEpoch : OrderedMap Epoch (Option LeadersSchedule)
  tasks : List FetchTask

/-- `update_leader_schedule` up to the lock. -/
def updateLeaderSchedule (parse : String → Option Pubkey) :
    RpcResponse → Except Fault LeadersSchedule
  | .error _ => .error (.error "failed to fetch schedule from RPC")
  | .ok none => .error (.error "no schedule in RPC response")
  | .ok (some response) => LeadersSchedule.new parse response

/-- A panic ends the task; its error is nobody's to handle. -/
def Phase.ofUpdate : Except Fault LeadersSchedule → Phase
  | .ok schedule => .storing schedule
  | .error (.error message) => .clearing message
  | .error .panicked => .panicked

namespace SolanaSchedule

def init : SolanaSchedule where
  leaderScheduleByEpoch := ∅
  tasks := []

/-- An epoch without an entry: it is marked, and a task spawned. -/
def spawnFetch (state : SolanaSchedule) (epoch : Epoch) (slot : Slot) : SolanaSchedule where
  leaderScheduleByEpoch := state.leaderScheduleByEpoch.insert epoch none
  tasks := state.tasks ++ [⟨epoch, slot, .fetching⟩]

/-- `SolanaSchedule::get_leader`. -/
def getLeader (epochAndSlotIndex : Slot → Epoch × ℕ) (state : SolanaSchedule)
    (slot : Slot) : SolanaSchedule × Option Pubkey :=
  let (epoch, index) := epochAndSlotIndex slot
  match state.leaderScheduleByEpoch[epoch]? with
  | some (some leaderSchedule) => (state, (leaderSchedule.getLeader index).toOption)
  | some none => (state, none)
  | none => (state.spawnFetch epoch slot, none)

def setPhase (state : SolanaSchedule) (number : ℕ) (task : FetchTask) (phase : Phase) :
    SolanaSchedule :=
  { state with tasks := state.tasks.set number { task with phase := phase } }

/-- A task that awaits the response gets it. -/
def onResponse (parse : String → Option Pubkey) (state : SolanaSchedule) (number : ℕ)
    (response : RpcResponse) : Option SolanaSchedule :=
  state.tasks[number]?.bind fun task =>
    match task.phase with
    | .fetching => some (state.setPhase number task
        (.ofUpdate (updateLeaderSchedule parse response)))
    | _ => none

/-- A task that is about to take the lock takes it. -/
def onLocked (state : SolanaSchedule) (number : ℕ) : Option SolanaSchedule :=
  state.tasks[number]?.bind fun task =>
    match task.phase with
    | .storing schedule => some { state.setPhase number task (.stored schedule) with
        leaderScheduleByEpoch :=
          state.leaderScheduleByEpoch.insert task.epoch (some schedule) }
    | .clearing _ => some { state.setPhase number task .cleared with
        leaderScheduleByEpoch := state.leaderScheduleByEpoch.erase task.epoch }
    | _ => none

end SolanaSchedule

/-- The steps that can be interleaved. -/
inductive Event
  | getLeader (slot : Slot)
  | responded (number : ℕ) (response : RpcResponse)
  | locked (number : ℕ)

/-- One step; a task that is elsewhere does not take it. -/
def SolanaSchedule.step (epochAndSlotIndex : Slot → Epoch × ℕ)
    (parse : String → Option Pubkey) (state : SolanaSchedule) (event : Event) :
    Except Event SolanaSchedule :=
  match event with
  | .getLeader slot => .ok (state.getLeader epochAndSlotIndex slot).1
  | .responded number response =>
      (state.onResponse parse number response).elim (.error event) .ok
  | .locked number => (state.onLocked number).elim (.error event) .ok

namespace SolanaSchedule

variable {epochAndSlotIndex : Slot → Epoch × ℕ} {state : SolanaSchedule} {slot : Slot}

theorem getLeader_of_none
    (h : state.leaderScheduleByEpoch[(epochAndSlotIndex slot).1]? = none) :
    state.getLeader epochAndSlotIndex slot =
      (state.spawnFetch (epochAndSlotIndex slot).1 slot, none) := by
  simp only [getLeader, h]

theorem getLeader_of_some {entry : Option LeadersSchedule}
    (h : state.leaderScheduleByEpoch[(epochAndSlotIndex slot).1]? = some entry) :
    (state.getLeader epochAndSlotIndex slot).1 = state := by
  simp only [getLeader, h]
  cases entry <;> rfl

end SolanaSchedule

/-! ## The attempts of an epoch -/

namespace Phase

def isRunning : Phase → Bool
  | .fetching => true
  | .storing _ => true
  | .clearing _ => true
  | _ => false

/-- The task has ended without storing a schedule. -/
def isFailed : Phase → Bool
  | .cleared => true
  | .panicked => true
  | _ => false

def attempt : Phase → Attempt LeadersSchedule
  | .fetching => .running
  | .storing _ => .running
  | .clearing _ => .running
  | .stored schedule => .stored schedule
  | .cleared => .failed
  | .panicked => .failed

theorem isRunning_attempt (phase : Phase) : phase.attempt.isRunning = phase.isRunning := by
  cases phase <;> rfl

theorem isFailed_attempt (phase : Phase) : phase.attempt.isFailed = phase.isFailed := by
  cases phase <;> rfl

end Phase

namespace SolanaSchedule

variable {state : SolanaSchedule} {epoch : Epoch}

/-- How many tasks of an epoch still run. -/
def running (state : SolanaSchedule) (epoch : Epoch) : ℕ :=
  state.tasks.countP fun task => decide (task.epoch = epoch) && task.phase.isRunning

/-- The tasks of an epoch as attempts at its schedule. -/
def attempts (state : SolanaSchedule) (epoch : Epoch) : List (Attempt LeadersSchedule) :=
  (state.tasks.filter fun task => decide (task.epoch = epoch)).map fun task =>
    task.phase.attempt

theorem running_eq (state : SolanaSchedule) (epoch : Epoch) :
    state.running epoch = Attempts.running (state.attempts epoch) := by
  rw [running, Attempts.running, attempts, List.countP_map, List.countP_filter]
  congr 1
  funext task
  rw [Function.comp_apply, Phase.isRunning_attempt, Bool.and_comm]

theorem attempts_spawnFetch (state : SolanaSchedule) (epoch other : Epoch) (slot : Slot) :
    (state.spawnFetch epoch slot).attempts other =
      state.attempts other ++ if epoch = other then [.running] else [] := by
  rw [attempts, spawnFetch, List.filter_append, List.map_append]
  by_cases hother : epoch = other <;> simp [attempts, hother, Phase.attempt]

theorem setPhase_tasks {number : ℕ} {task : FetchTask}
    (htask : state.tasks[number]? = some task) (phase : Phase) :
    ∃ front back, state.tasks = front ++ task :: back ∧
      (state.setPhase number task phase).tasks =
        front ++ { task with phase := phase } :: back := by
  obtain ⟨hnumber, hget⟩ := List.getElem?_eq_some_iff.1 htask
  refine ⟨state.tasks.take number, state.tasks.drop (number + 1), ?_, ?_⟩
  · rw [← hget, List.getElem_cons_drop, List.take_append_drop]
  · rw [setPhase, List.set_eq_take_append_cons_drop, if_pos hnumber]

/-- A task that takes a step changes its own attempt only. -/
theorem attempts_setPhase {number : ℕ} {task : FetchTask}
    (htask : state.tasks[number]? = some task) (phase : Phase) :
    (∃ front back, state.attempts task.epoch = front ++ task.phase.attempt :: back ∧
      (state.setPhase number task phase).attempts task.epoch =
        front ++ phase.attempt :: back) ∧
    ∀ other ≠ task.epoch, (state.setPhase number task phase).attempts other =
      state.attempts other := by
  obtain ⟨front, back, htasks, hset⟩ := setPhase_tasks htask phase
  constructor
  · simp only [attempts, htasks, hset, List.filter_append, List.filter_cons,
      decide_true, if_true, List.map_append, List.map_cons]
    exact ⟨_, _, rfl, rfl⟩
  · intro other hother
    simp [attempts, htasks, hset, Ne.symm hother]

end SolanaSchedule

end Solfees.Schedule
