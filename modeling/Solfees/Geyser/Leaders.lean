import Solfees.Geyser.Attachment
import Solfees.Schedule.LeaderTable
import Solfees.Schedule.SingleFlight

/-!
# The leaders of the blocks

The task of `subscribe` owns a `SolanaSchedule`, which it asks for the leader of
each block it sends.  The first question about an epoch starts a fetch, which
runs beside the task: the polls of the stream, the responses of the RPC and the
turns of the fetch tasks at the lock come in any order.
-/

namespace Solfees.Leaders

open Solfees.Draining
open Solfees.Grouping
open Solfees.Message
open Solfees.Run
open Solfees.Schedule
open Solfees.Stream

/-- The task, the schedule it owns and what it has sent. -/
structure Subscription where
  task : GeyserTask
  schedule : SolanaSchedule
  sent : List (Except String GeyserMessage)

def Subscription.init : Subscription where
  task := .init
  schedule := .init
  sent := []

/-- What the task gets from the stream and whether its receiver would take a message, or
what happens to a fetch task. -/
inductive SubscriptionEvent (Raw : Type)
  | polled (item : StreamItem Raw) (sendOk : Bool)
  | responded (number : ℕ) (response : RpcResponse)
  | locked (number : ℕ)

section Definitions

variable {Raw : Type}

/-- The slot whose leader the task asks for: only at a `BlockMeta`, and only when
it has collected transactions of the slot. -/
def asked (task : GeyserTask) (item : StreamItem Raw) : Option Slot :=
  match item with
  | some (.ok (some (.blockMeta info))) =>
      if task.alive then task.transactions[info.slot]?.map fun _ => info.slot else none
  | _ => none

variable (decoders : Decoders Raw) (epochAndSlotIndex : Slot → Epoch × ℕ)
  (parse : String → Option Pubkey)

/-- The schedule after a poll, and the leader if the task asks for one. -/
def answer (state : Subscription) (item : StreamItem Raw) :
    SolanaSchedule × Option Pubkey :=
  match asked state.task item with
  | some slot => state.schedule.getLeader epochAndSlotIndex slot
  | none => (state.schedule, none)

/-- One turn of the loop.  It ends with a message that the receiver does not take. -/
def onPolled (state : Subscription) (item : StreamItem Raw) (sendOk : Bool) :
    Subscription :=
  let (schedule, leader) := answer epochAndSlotIndex state item
  match state.task.onEvent decoders ⟨item, leader⟩ with
  | (task, none) => { state with task := task, schedule := schedule }
  | (task, some message) =>
      if sendOk then
        { task := task, schedule := schedule, sent := state.sent ++ [message] }
      else
        { task := { task with alive := false }, schedule := schedule, sent := state.sent }

/-- One step; a fetch task that is elsewhere does not take it. -/
def step (state : Subscription) (event : SubscriptionEvent Raw) :
    Except (SubscriptionEvent Raw) Subscription :=
  match event with
  | .polled item sendOk => .ok (onPolled decoders epochAndSlotIndex state item sendOk)
  | .responded number response =>
      ((state.schedule.onResponse parse number response).map fun schedule =>
        { state with schedule := schedule }).elim (.error event) .ok
  | .locked number =>
      ((state.schedule.onLocked number).map fun schedule =>
        { state with schedule := schedule }).elim (.error event) .ok

end Definitions

/-- The blocks among what was sent. -/
def blocksIn (sent : List (Except String GeyserMessage)) : List Block :=
  sent.filterMap fun
    | .ok (.slot block) => some block
    | _ => none

theorem blocksIn_append (front back : List (Except String GeyserMessage)) :
    blocksIn (front ++ back) = blocksIn front ++ blocksIn back := by
  rw [blocksIn, List.filterMap_append, blocksIn, blocksIn]

/-! ## What a step does -/

section Steps

variable {Raw : Type} {decoders : Decoders Raw} {epochAndSlotIndex : Slot → Epoch × ℕ}
  {parse : String → Option Pubkey} {state next : Subscription}

theorem step_cases {event : SubscriptionEvent Raw}
    (hnext : step decoders epochAndSlotIndex parse state event = .ok next) :
    (∃ item sendOk, event = .polled item sendOk ∧
      next = onPolled decoders epochAndSlotIndex state item sendOk) ∨
    (∃ number response schedule, event = .responded number response ∧
      state.schedule.onResponse parse number response = some schedule ∧
      next = { state with schedule := schedule }) ∨
    (∃ number schedule, event = .locked number ∧
      state.schedule.onLocked number = some schedule ∧
      next = { state with schedule := schedule }) := by
  cases event with
  | polled item sendOk => exact Or.inl ⟨item, sendOk, rfl, (Except.ok.inj hnext).symm⟩
  | responded number response =>
      obtain ⟨schedule, hschedule, rfl⟩ :=
        Option.map_eq_some_iff.1 (eq_some_of_elim_eq_ok hnext)
      exact Or.inr (Or.inl ⟨number, response, schedule, rfl, hschedule, rfl⟩)
  | locked number =>
      obtain ⟨schedule, hschedule, rfl⟩ :=
        Option.map_eq_some_iff.1 (eq_some_of_elim_eq_ok hnext)
      exact Or.inr (Or.inr ⟨number, schedule, rfl, hschedule, rfl⟩)

variable (decoders) (epochAndSlotIndex) in
/-- What a turn of the loop leaves: the answer of the schedule, what is collected, and the
message if there is one and the receiver takes it.  A message that it does not take ends
the loop. -/
theorem onPolled_spec (state : Subscription) (item : StreamItem Raw) (sendOk : Bool) :
    let result := state.task.onEvent decoders ⟨item, (answer epochAndSlotIndex state item).2⟩
    let next := onPolled decoders epochAndSlotIndex state item sendOk
    next.schedule = (answer epochAndSlotIndex state item).1 ∧
      next.task.transactions = result.1.transactions ∧
      (next.task = result.1 ∧ next.sent = state.sent ++ result.2.toList ∧
          (sendOk = false → result.2 = none) ∨
        next.task.alive = false ∧ next.sent = state.sent ∧ sendOk = false) := by
  dsimp only
  rw [onPolled]
  dsimp only
  split
  · rename_i task heq
    rw [heq]
    exact ⟨rfl, rfl, Or.inl ⟨rfl, (List.append_nil _).symm, fun _ => rfl⟩⟩
  · rename_i task message heq
    rw [heq]
    cases sendOk with
    | true => exact ⟨rfl, rfl, Or.inl ⟨rfl, rfl, fun h => by cases h⟩⟩
    | false => exact ⟨rfl, rfl, Or.inr ⟨rfl, rfl, rfl⟩⟩

theorem slot_of_buildBlock {parseHash : String → Option Hash} {leader : Option Pubkey}
    {info : SubscribeUpdateBlockMeta} {transactions : List GeyserTransaction}
    {block : Block}
    (hbuild : buildBlock parseHash leader info transactions = .ok (.slot block)) :
    block.slot = info.slot ∧ block.leader = leader ∧ block.transactions = transactions := by
  obtain ⟨hash, -, hbuild⟩ := exists_of_bind_eq_ok hbuild
  obtain ⟨time, -, hbuild⟩ := exists_of_bind_eq_ok hbuild
  obtain ⟨height, -, hbuild⟩ := exists_of_bind_eq_ok hbuild
  obtain ⟨parentHash, -, hbuild⟩ := exists_of_bind_eq_ok hbuild
  rw [← GeyserMessage.slot.inj (Except.ok.inj hbuild)]
  exact ⟨rfl, rfl, rfl⟩

/-! The arms of the loop other than that of a `BlockMeta` send no block. -/

theorem onSlot_ne_block {task : GeyserTask} {slot : Slot} {status : ℤ} {block : Block} :
    (task.onSlot slot status).2 ≠ some (.ok (.slot block)) := by
  intro hsent
  rw [GeyserTask.onSlot] at hsent
  split at hsent
  · cases hsent
  · split at hsent
    · split at hsent <;> cases hsent
    · cases hsent

theorem onTransaction_ne_block {task : GeyserTask} {slot : Slot} {transaction : Option Raw}
    {block : Block} :
    (task.onTransaction decoders slot transaction).2 ≠ some (.ok (.slot block)) := by
  intro hsent
  rw [GeyserTask.onTransaction.eq_def] at hsent
  split at hsent
  · cases hsent
  · split at hsent
    · cases hsent
    · cases hsent
    · split at hsent <;> cases hsent

/-- A block is sent for a slot whose leader was asked for, with the answer, and with what
was collected for the slot. -/
theorem sent_block {task : GeyserTask} {event : StreamEvent Raw} {block : Block}
    (hsent : (task.onEvent decoders event).2 = some (.ok (.slot block))) :
    asked task event.item = some block.slot ∧ block.leader = event.leader ∧
      task.transactions[block.slot]? = some block.transactions := by
  obtain ⟨item, leader⟩ := event
  rw [GeyserTask.onEvent] at hsent
  split at hsent
  · rename_i halive
    dsimp only at hsent
    split at hsent
    · exact absurd hsent onSlot_ne_block
    · exact absurd hsent onTransaction_ne_block
    · rename_i info
      rw [GeyserTask.onBlockMeta] at hsent
      split at hsent
      · cases hsent
      · rename_i transactions htransactions
        dsimp only at hsent
        split at hsent
        · rename_i message hbuild
          obtain rfl := Except.ok.inj (Option.some.inj hsent)
          obtain ⟨hslot, hleader, hcollected⟩ := slot_of_buildBlock hbuild
          rw [hslot, hcollected]
          refine ⟨?_, hleader, htransactions⟩
          change (if task.alive then _ else _) = _
          rw [if_pos halive, htransactions, Option.map_some]
        · cases hsent
    all_goals cases hsent
  · cases hsent

/-- What a step sends comes after what was sent, and every block of it has the leader
that the schedule gives for its slot, and what was collected for it. -/
theorem step_sends {event : SubscriptionEvent Raw}
    (hnext : step decoders epochAndSlotIndex parse state event = .ok next) :
    ∃ tail, next.sent = state.sent ++ tail ∧ ∀ block ∈ blocksIn tail,
      block.leader = (state.schedule.getLeader epochAndSlotIndex block.slot).2 ∧
        state.task.transactions[block.slot]? = some block.transactions := by
  rcases step_cases hnext with ⟨item, sendOk, -, rfl⟩ |
    ⟨number, response, schedule, -, -, rfl⟩ | ⟨number, schedule, -, -, rfl⟩
  · obtain ⟨-, -, ⟨-, hsent, -⟩ | ⟨-, hsent, -⟩⟩ :=
      onPolled_spec decoders epochAndSlotIndex state item sendOk
    · refine ⟨_, hsent, fun block hmem => ?_⟩
      obtain ⟨message, hmessage, hblock⟩ := List.mem_filterMap.1 hmem
      have hsent := Option.mem_toList.1 hmessage
      split at hblock
      · obtain rfl := Option.some.inj hblock
        obtain ⟨hasked, hleader, hcollected⟩ := sent_block hsent
        refine ⟨?_, hcollected⟩
        rw [hleader]
        simp only [hasked, answer]
      · cases hblock
    · exact ⟨[], by rw [hsent, List.append_nil], fun _ hmem => absurd hmem List.not_mem_nil⟩
  · exact ⟨[], (List.append_nil _).symm, fun _ hmem => absurd hmem List.not_mem_nil⟩
  · exact ⟨[], (List.append_nil _).symm, fun _ hmem => absurd hmem List.not_mem_nil⟩

/-- The schedule takes a step of its own, or none. -/
theorem schedule_of_step {event : SubscriptionEvent Raw}
    (hnext : step decoders epochAndSlotIndex parse state event = .ok next) :
    next.schedule = state.schedule ∨
      (∃ slot, next.schedule = (state.schedule.getLeader epochAndSlotIndex slot).1) ∨
      (∃ number response, event = .responded number response ∧
        state.schedule.onResponse parse number response = some next.schedule) ∨
      ∃ number, state.schedule.onLocked number = some next.schedule := by
  rcases step_cases hnext with ⟨item, sendOk, -, rfl⟩ |
    ⟨number, response, schedule, rfl, hresponse, rfl⟩ | ⟨number, schedule, -, hlocked, rfl⟩
  · obtain ⟨hschedule, -⟩ := onPolled_spec decoders epochAndSlotIndex state item sendOk
    rw [hschedule, answer]
    split
    · exact Or.inr (Or.inl ⟨_, rfl⟩)
    · exact Or.inl rfl
  · exact Or.inr (Or.inr (Or.inl ⟨number, response, rfl, hresponse⟩))
  · exact Or.inr (Or.inr (Or.inr ⟨number, hlocked⟩))

end Steps

/-! ## Schedules that tell the truth -/

section Truth

variable (epochAndSlotIndex : Slot → Epoch × ℕ) (parse : String → Option Pubkey)
  (truth : Epoch → ℕ → Option Pubkey)

/-- The response lists exactly the leaders of the epoch, and no index past it. -/
structure Describes (epoch : Epoch) (entries : List ScheduleEntry) : Prop where
  listed : ∀ leader index, Listed parse entries leader index ↔
    truth epoch index = some leader
  bounded : ∀ entry ∈ entries, ∀ index ∈ entry.2, index < slotsInEpoch

/-- The leader of a slot, if there is one. -/
def trueLeader (slot : Slot) : Option Pubkey :=
  truth (epochAndSlotIndex slot).1 (epochAndSlotIndex slot).2

/-- The table gives every index that has a leader to this leader. -/
def Attributes (epoch : Epoch) (table : LeadersSchedule) : Prop :=
  ∀ index leader, truth epoch index = some leader → table.getLeader index = .ok leader

/-- Every stored table is true, and so is one that is about to be stored. -/
structure Sound (state : SolanaSchedule) : Prop where
  tracked : Tracked state
  stored : ∀ (epoch : Epoch) table,
    state.leaderScheduleByEpoch[epoch]? = some (some table) → Attributes truth epoch table
  storing : ∀ task ∈ state.tasks, ∀ table, task.phase = .storing table →
    Attributes truth task.epoch table

variable {epochAndSlotIndex} {parse} {truth} {state next : SolanaSchedule}

theorem Describes.attributes {epoch : Epoch} {entries : List ScheduleEntry}
    {table : LeadersSchedule} (h : Describes parse truth epoch entries)
    (htable : LeadersSchedule.new parse entries = .ok table) :
    Attributes truth epoch table := by
  obtain ⟨filling, hfilling, htable⟩ := exists_of_bind_eq_ok htable
  obtain rfl := Except.ok.inj htable
  have hexclusive : Exclusive parse entries := by
    intro index leader leader' hlisted hlisted'
    rw [h.listed] at hlisted hlisted'
    exact Option.some.inj (hlisted.symm.trans hlisted')
  intro index leader hleader
  have hlisted := (h.listed leader index).2 hleader
  obtain ⟨entry, hmem, -, hindex⟩ := hlisted
  exact (tabled_of_run hexclusive hfilling).getLeader_listed
    (h.bounded entry hmem index hindex) ((h.listed leader index).2 hleader)

theorem Describes.not_overruns {epoch : Epoch} {entries : List ScheduleEntry}
    (h : Describes parse truth epoch entries) : ¬ Overruns parse entries := by
  rintro ⟨front, entry, back, rfl, -, index, hindex, hover⟩
  exact absurd (h.bounded entry (by simp) index hindex) (not_lt.2 hover)

theorem sound_init : Sound truth .init where
  tracked := tracked_init
  stored := fun epoch table hstored => by simp [SolanaSchedule.init] at hstored
  storing := fun task hmem => absurd hmem List.not_mem_nil

theorem Sound.getLeader (h : Sound truth state) (slot : Slot) :
    Sound truth (state.getLeader epochAndSlotIndex slot).1 := by
  have htracked : Tracked (state.getLeader epochAndSlotIndex slot).1 :=
    tracked_getLeader h.tracked slot
  cases hget : state.leaderScheduleByEpoch[(epochAndSlotIndex slot).1]? with
  | some entry =>
      rw [SolanaSchedule.getLeader_of_some hget]
      exact h
  | none =>
      rw [SolanaSchedule.getLeader_of_none hget] at htracked ⊢
      refine ⟨htracked, ?_, ?_⟩
      · intro epoch table hstored
        rw [SolanaSchedule.spawnFetch, getElem?_insert] at hstored
        split at hstored
        · cases Option.some.inj hstored
        · exact h.stored epoch table hstored
      · intro task hmem table hphase
        rcases List.mem_append.1 hmem with hbefore | hnew
        · exact h.storing task hbefore table hphase
        · rw [List.mem_singleton.1 hnew] at hphase
          cases hphase

theorem Sound.setPhase (h : Sound truth state) {number : ℕ} {task : FetchTask}
    {phase : Phase}
    (hphase : ∀ table, phase = .storing table → Attributes truth task.epoch table) :
    ∀ other ∈ (state.setPhase number task phase).tasks, ∀ table,
      other.phase = .storing table → Attributes truth other.epoch table := by
  intro other hmem table hother
  rcases List.mem_or_eq_of_mem_set hmem with hbefore | rfl
  · exact h.storing other hbefore table hother
  · exact hphase table hother

theorem Sound.onResponse (h : Sound truth state) {number : ℕ} {response : RpcResponse}
    (hnext : state.onResponse parse number response = some next)
    (hhonest : ∀ task entries, state.tasks[number]? = some task →
      response = .ok (some entries) → Describes parse truth task.epoch entries) :
    Sound truth next := by
  have hfits : updateLeaderSchedule parse response ≠ .error .panicked := by
    rw [ne_eq, updateLeaderSchedule_eq_panicked_iff]
    rintro ⟨entries, rfl, hoverruns⟩
    obtain ⟨task, htask, -, -⟩ := onResponse_cases hnext
    exact (hhonest task entries htask rfl).not_overruns hoverruns
  have htracked := tracked_onResponse h.tracked hnext hfits
  obtain ⟨task, htask, -, rfl⟩ := onResponse_cases hnext
  refine ⟨htracked, h.stored, h.setPhase ?_⟩
  intro table hphase
  match response with
  | .error message => cases hphase
  | .ok none => cases hphase
  | .ok (some entries) =>
      apply (hhonest task entries htask rfl).attributes
      change Phase.ofUpdate (LeadersSchedule.new parse entries) = _ at hphase
      match hnew : LeadersSchedule.new parse entries with
      | .ok schedule =>
          rw [hnew] at hphase
          rw [Phase.storing.inj hphase]
      | .error (.error message) =>
          rw [hnew] at hphase
          cases hphase
      | .error .panicked =>
          rw [hnew] at hphase
          cases hphase

theorem Sound.onLocked (h : Sound truth state) {number : ℕ}
    (hnext : state.onLocked number = some next) : Sound truth next := by
  have htracked := tracked_onLocked h.tracked hnext
  obtain ⟨task, htask, ⟨schedule, hphase, rfl⟩ | ⟨message, hphase, rfl⟩⟩ :=
    onLocked_cases hnext
  · refine ⟨htracked, ?_, h.setPhase nofun⟩
    intro epoch table hstored
    dsimp only at hstored
    rw [getElem?_insert] at hstored
    split at hstored
    · rename_i hepoch
      rw [← hepoch, ← Option.some.inj (Option.some.inj hstored)]
      exact h.storing task (List.mem_of_getElem? htask) schedule hphase
    · exact h.stored epoch table hstored
  · refine ⟨htracked, ?_, h.setPhase nofun⟩
    intro epoch table hstored
    dsimp only at hstored
    rw [getElem?_erase] at hstored
    split at hstored
    · cases hstored
    · exact h.stored epoch table hstored

/-- The table of the epoch is stored. -/
def Stored (state : SolanaSchedule) (epoch : Epoch) : Prop :=
  ∃ table, state.leaderScheduleByEpoch[epoch]? = some (some table)

theorem stored_of_getLeader {slot : Slot}
    (hleader : (state.getLeader epochAndSlotIndex slot).2 ≠ none) :
    Stored state (epochAndSlotIndex slot).1 := by
  match hget : state.leaderScheduleByEpoch[(epochAndSlotIndex slot).1]? with
  | none => simp [SolanaSchedule.getLeader, hget] at hleader
  | some none => simp [SolanaSchedule.getLeader, hget] at hleader
  | some (some table) => exact ⟨table, hget⟩

theorem Sound.getLeader_of_stored (h : Sound truth state) {slot : Slot}
    (hstored : Stored state (epochAndSlotIndex slot).1) {leader : Pubkey}
    (hleader : trueLeader epochAndSlotIndex truth slot = some leader) :
    (state.getLeader epochAndSlotIndex slot).2 = some leader := by
  obtain ⟨table, htable⟩ := hstored
  simp only [SolanaSchedule.getLeader, htable]
  rw [h.stored _ table htable _ leader hleader]
  rfl

end Truth

/-! ## The blocks that are sent -/

section Blocks

variable {Raw : Type} (decoders : Decoders Raw) (epochAndSlotIndex : Slot → Epoch × ℕ)
  (parse : String → Option Pubkey) (truth : Epoch → ℕ → Option Pubkey)

/-- A schedule that comes for a fetch task describes the epoch of the task. -/
def Honest (before : List (SubscriptionEvent Raw)) (event : SubscriptionEvent Raw) : Prop :=
  ∀ number entries, event = .responded number (.ok (some entries)) →
    ∀ state task, run (step decoders epochAndSlotIndex parse) .init before = .ok state →
      state.schedule.tasks[number]? = some task → Describes parse truth task.epoch entries

/-- A block of a slot that has a leader has no other leader. -/
def LedTruly (block : Block) : Prop :=
  ∀ leader, trueLeader epochAndSlotIndex truth block.slot = some leader →
    block.leader = none ∨ block.leader = some leader

/-- A block of a slot that has a leader has this leader. -/
def LedKnown (block : Block) : Prop :=
  ∀ leader, trueLeader epochAndSlotIndex truth block.slot = some leader →
    block.leader = some leader

/-- The schedule is sound, it keeps the table behind every leader that was sent, and these
leaders are those of the slots. -/
structure Led (state : Subscription) : Prop where
  sound : Sound truth state.schedule
  stored : ∀ block ∈ blocksIn state.sent, block.leader ≠ none →
    Stored state.schedule (epochAndSlotIndex block.slot).1
  truly : ∀ block ∈ blocksIn state.sent, LedTruly epochAndSlotIndex truth block

variable {decoders} {epochAndSlotIndex} {parse} {truth} {state next : Subscription}
  {events : List (SubscriptionEvent Raw)}

theorem led_init : Led epochAndSlotIndex truth .init where
  sound := sound_init
  stored := fun _ hmem => absurd hmem List.not_mem_nil
  truly := fun _ hmem => absurd hmem List.not_mem_nil

/-- A step stores no table that is not true, and drops none. -/
theorem sound_step {event : SubscriptionEvent Raw} (hsound : Sound truth state.schedule)
    (hbefore : run (step decoders epochAndSlotIndex parse) .init events = .ok state)
    (hhonest : Honest decoders epochAndSlotIndex parse truth events event)
    (hnext : step decoders epochAndSlotIndex parse state event = .ok next) :
    Sound truth next.schedule ∧
      ∀ epoch, Stored state.schedule epoch → Stored next.schedule epoch := by
  have hkept {event : Schedule.Event}
      (hstep : state.schedule.step epochAndSlotIndex parse event = .ok next.schedule) :
      ∀ epoch, Stored state.schedule epoch → Stored next.schedule epoch :=
    fun epoch ⟨table, htable⟩ => ⟨table, hsound.tracked.kept hstep htable⟩
  rcases schedule_of_step hnext with hsame | ⟨slot, hasked⟩ |
    ⟨number, response, rfl, hresponse⟩ | ⟨number, hlocked⟩
  · rw [hsame]
    exact ⟨hsound, fun _ => id⟩
  · have hstep : state.schedule.step epochAndSlotIndex parse (.getLeader slot) =
        .ok next.schedule := congrArg Except.ok hasked.symm
    refine ⟨?_, hkept hstep⟩
    rw [hasked]
    exact hsound.getLeader slot
  · have hstep : state.schedule.step epochAndSlotIndex parse (.responded number response) =
        .ok next.schedule := by
      rw [SolanaSchedule.step, hresponse]
      rfl
    refine ⟨hsound.onResponse hresponse ?_, hkept hstep⟩
    rintro task entries htask rfl
    exact hhonest number entries rfl state task hbefore htask
  · have hstep : state.schedule.step epochAndSlotIndex parse (.locked number) =
        .ok next.schedule := by
      rw [SolanaSchedule.step, hlocked]
      rfl
    exact ⟨hsound.onLocked hlocked, hkept hstep⟩

theorem Led.step {event : SubscriptionEvent Raw} (h : Led epochAndSlotIndex truth state)
    (hbefore : run (step decoders epochAndSlotIndex parse) .init events = .ok state)
    (hhonest : Honest decoders epochAndSlotIndex parse truth events event)
    (hnext : Leaders.step decoders epochAndSlotIndex parse state event = .ok next) :
    Led epochAndSlotIndex truth next := by
  obtain ⟨hsound, hkept⟩ := sound_step h.sound hbefore hhonest hnext
  obtain ⟨tail, htail, hgiven⟩ := step_sends hnext
  -- a block of the tail has a leader only if the table was stored before the step
  have hstored (block : Block) (hmem : block ∈ blocksIn tail) (hsome : block.leader ≠ none) :
      Stored state.schedule (epochAndSlotIndex block.slot).1 :=
    stored_of_getLeader ((hgiven block hmem).1 ▸ hsome)
  refine ⟨hsound, ?_, ?_⟩ <;> rw [htail, blocksIn_append]
  · intro block hmem hsome
    apply hkept
    rcases List.mem_append.1 hmem with hold | hnew
    · exact h.stored block hold hsome
    · exact hstored block hnew hsome
  · intro block hmem leader htrue
    rcases List.mem_append.1 hmem with hold | hnew
    · exact h.truly block hold leader htrue
    · by_cases hnone : block.leader = none
      · exact Or.inl hnone
      · right
        rw [(hgiven block hnew).1]
        exact h.sound.getLeader_of_stored (hstored block hnew hnone) htrue

theorem led_of_run {final : Subscription}
    (hrun : run (step decoders epochAndSlotIndex parse) .init events = .ok final)
    (hhonest : Admitted (Honest decoders epochAndSlotIndex parse truth) events) :
    Led epochAndSlotIndex truth final := by
  refine run_invariant_of_reached (fun events state =>
    Admitted (Honest decoders epochAndSlotIndex parse truth) events →
      Led epochAndSlotIndex truth state) (fun _ => led_init) ?_ hrun hhonest
  intro before state event next hbefore hled hnext hhonest
  exact (hled hhonest.append_left).step hbefore hhonest.last hnext

/-- However polls, responses and stores are interleaved, no block of a slot that has a
leader is sent with another one. -/
theorem blocks_led_truly {final : Subscription}
    (hrun : run (step decoders epochAndSlotIndex parse) .init events = .ok final)
    (hhonest : Admitted (Honest decoders epochAndSlotIndex parse truth) events) :
    ∀ block ∈ blocksIn final.sent, LedTruly epochAndSlotIndex truth block :=
  (led_of_run hrun hhonest).truly

/-- From the moment the table of an epoch is stored, every block of the epoch whose slot has
a leader is sent with this leader; and a block with a leader shows that this moment has
come. -/
theorem leaders_known_once_stored {front back : List (SubscriptionEvent Raw)}
    {middle final : Subscription}
    (hfront : run (step decoders epochAndSlotIndex parse) .init front = .ok middle)
    (hback : run (step decoders epochAndSlotIndex parse) middle back = .ok final)
    (hhonest : Admitted (Honest decoders epochAndSlotIndex parse truth) (front ++ back)) :
    (∀ block ∈ blocksIn middle.sent, block.leader ≠ none →
      Stored middle.schedule (epochAndSlotIndex block.slot).1) ∧
    ∃ later, final.sent = middle.sent ++ later ∧ ∀ block ∈ blocksIn later,
      Stored middle.schedule (epochAndSlotIndex block.slot).1 →
        LedKnown epochAndSlotIndex truth block := by
  refine ⟨(led_of_run hfront hhonest.append_left).stored, ?_⟩
  have hinv := run_invariant_of_reached (fun back state =>
    Admitted (Honest decoders epochAndSlotIndex parse truth) (front ++ back) →
      (∀ epoch, Stored middle.schedule epoch → Stored state.schedule epoch) ∧
      ∃ later, state.sent = middle.sent ++ later ∧ ∀ block ∈ blocksIn later,
        Stored middle.schedule (epochAndSlotIndex block.slot).1 →
          LedKnown epochAndSlotIndex truth block) ?_ ?_ hback hhonest
  · exact hinv.2
  · exact fun _ => ⟨fun _ => id, [], (List.append_nil _).symm,
      fun _ hmem => absurd hmem List.not_mem_nil⟩
  · intro before state event next hbefore hinv hnext hhonest
    rw [← List.append_assoc] at hhonest
    obtain ⟨hkept, later, hlater, hknown⟩ := hinv hhonest.append_left
    have hreached : run (step decoders epochAndSlotIndex parse) .init (front ++ before) =
        .ok state := by
      rw [run_append, hfront]
      exact hbefore
    have hsound := (led_of_run hreached hhonest.append_left).sound
    obtain ⟨-, hkeeps⟩ := sound_step hsound hreached hhonest.last hnext
    obtain ⟨tail, htail, hgiven⟩ := step_sends hnext
    refine ⟨fun epoch hstored => hkeeps epoch (hkept epoch hstored), later ++ tail, ?_, ?_⟩
    · rw [htail, hlater, List.append_assoc]
    · rw [blocksIn_append]
      intro block hmem hstored leader htrue
      rcases List.mem_append.1 hmem with hold | hnew
      · exact hknown block hold hstored leader htrue
      · rw [(hgiven block hnew).1]
        exact hsound.getLeader_of_stored (hkept _ hstored) htrue

/-! ## A block before the schedule is stored, and one after -/

def sampleTruth (_ : Epoch) (index : ℕ) : Option Pubkey :=
  if index = 5 ∨ index = 7 then some 0 else none

/-- The block of slot 5 starts the fetch, and is sent without a leader. -/
def fetchedFront : List (SubscriptionEvent ℕ) :=
  [.polled (sampleTransactionEvent 5 1).item true,
    .polled (sampleBlockMetaEvent 5).item true,
    .responded 0 (.ok (some [(systemProgram, [5, 7])])), .locked 0]

/-- That of slot 7 finds the table stored. -/
def fetchedBack : List (SubscriptionEvent ℕ) :=
  [.polled (sampleTransactionEvent 7 2).item true, .polled (sampleBlockMetaEvent 7).item true]

theorem describes_sample (epoch : Epoch) :
    Describes parseSystemProgram sampleTruth epoch [(systemProgram, [5, 7])] := by
  constructor
  · intro leader index
    simp only [Listed, exists_eq_left, parseSystemProgram, if_true,
      Option.some.injEq, List.mem_cons, List.not_mem_nil, or_false, sampleTruth]
    split <;> simp_all
  · decide

/-- The schedules that come are all the one of the sample. -/
theorem honest_of_sample {events : List (SubscriptionEvent ℕ)}
    (hsample : ∀ number entries, .responded number (.ok (some entries)) ∈ events →
      entries = [(systemProgram, [5, 7])]) :
    Admitted (Honest sampleDecoders normalEpochs parseSystemProgram sampleTruth) events := by
  intro before event after hsplit number entries hevent state task _ _
  rw [hsample number entries (by rw [hsplit, hevent]; simp)]
  exact describes_sample task.epoch

theorem honest_fetched : Admitted
    (Honest sampleDecoders normalEpochs parseSystemProgram sampleTruth)
    (fetchedFront ++ fetchedBack) :=
  honest_of_sample (by simp [fetchedFront, fetchedBack])

/-- The leaders of the blocks that were sent. -/
def leadersOfBlocks (state : Subscription) : List (Slot × Option Pubkey) :=
  (blocksIn state.sent).map fun block => (block.slot, block.leader)

theorem blocks_led_truly_fetched :
    ∃ final,
      run (step sampleDecoders normalEpochs parseSystemProgram) .init
        (fetchedFront ++ fetchedBack) = .ok final ∧
      leadersOfBlocks final = [(5, none), (7, some 0)] ∧
      ∀ block ∈ blocksIn final.sent, LedTruly normalEpochs sampleTruth block := by
  have hview : (run (step sampleDecoders normalEpochs parseSystemProgram) .init
      (fetchedFront ++ fetchedBack)).toOption.map leadersOfBlocks =
      some [(5, none), (7, some 0)] := by
    decide
  obtain ⟨final, hrun, hleaders⟩ := exists_ok_of_view hview
  exact ⟨final, hrun, hleaders, blocks_led_truly hrun honest_fetched⟩

/-- The table of epoch 0 is stored before the block of slot 7 is sent. -/
theorem leaders_known_once_stored_fetched :
    ∃ middle final later,
      run (step sampleDecoders normalEpochs parseSystemProgram) .init fetchedFront =
        .ok middle ∧
      run (step sampleDecoders normalEpochs parseSystemProgram) middle fetchedBack =
        .ok final ∧
      Stored middle.schedule 0 ∧ final.sent = middle.sent ++ later ∧
      ∀ block ∈ blocksIn later, Stored middle.schedule (normalEpochs block.slot).1 →
        LedKnown normalEpochs sampleTruth block := by
  have hview : (run (step sampleDecoders normalEpochs parseSystemProgram) .init
      (fetchedFront ++ fetchedBack)).toOption.map leadersOfBlocks =
      some [(5, none), (7, some 0)] := by
    decide
  have hstored : (run (step sampleDecoders normalEpochs parseSystemProgram) .init
      fetchedFront).toOption.map (fun state =>
        state.schedule.leaderScheduleByEpoch[0]?.map Option.isSome) =
      some (some true) := by
    decide
  obtain ⟨final, hrun, -⟩ := exists_ok_of_view hview
  obtain ⟨middle, hfront, hback⟩ := exists_run_of_append hrun
  rw [hfront] at hstored
  obtain ⟨entry, hentry, hsome⟩ := Option.map_eq_some_iff.1 (Option.some.inj hstored)
  obtain ⟨table, rfl⟩ := Option.isSome_iff_exists.1 hsome
  obtain ⟨-, later, hlater, hknown⟩ :=
    leaders_known_once_stored hfront hback honest_fetched
  exact ⟨middle, final, later, hfront, hback, ⟨table, hentry⟩, hlater, hknown⟩

end Blocks

end Solfees.Leaders
