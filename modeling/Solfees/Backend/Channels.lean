import Solfees.Backend.Origin

/-!
# The channels of the publishers

The channel between a geyser task and its publisher has no bound.  The task keeps its end
for as long as it runs and never waits for the other one, which is gone when the publisher
has failed: then the task ends at the next message.
-/

namespace Solfees.Origin

open Solfees.Backend
open Solfees.Leaders
open Solfees.Message
open Solfees.Run
open Solfees.Stream
open Solfees.Transport
open Solfees.Wiring

/-! ## How a task ends -/

section Task

variable {Raw : Type} {decoders : Decoders Raw} {task : GeyserTask}

/-- After a message the task goes on, and after an error it does not. -/
def EndsWithError (result : GeyserTask × Option (Except String GeyserMessage)) : Prop :=
  ∀ message ∈ result.2, result.1.alive = message.toOption.isSome

theorem endsWithError_fail (task : GeyserTask) (error : String) :
    EndsWithError (task.fail error) := by
  intro message hmessage
  rw [← Option.some.inj hmessage]
  rfl

theorem endsWithError_silent (task : GeyserTask) : EndsWithError (task, none) := by
  intro message hmessage
  cases hmessage

theorem endsWithError_sends {task : GeyserTask} (halive : task.alive = true)
    (sent : GeyserMessage) : EndsWithError (task, some (.ok sent)) := by
  intro message hmessage
  rw [← Option.some.inj hmessage]
  exact halive

theorem endsWithError_onSlot (halive : task.alive = true) (slot : Slot) (status : ℤ) :
    EndsWithError (task.onSlot slot status) := by
  rw [GeyserTask.onSlot]
  split
  · exact endsWithError_fail task _
  · split
    · split
      · exact endsWithError_sends halive _
      · exact endsWithError_silent _
    · exact endsWithError_sends halive _

theorem endsWithError_onTransaction (slot : Slot) (transaction : Option Raw) :
    EndsWithError (task.onTransaction decoders slot transaction) := by
  rw [GeyserTask.onTransaction.eq_def]
  split
  · exact endsWithError_fail task _
  · split
    · exact endsWithError_fail task _
    · exact endsWithError_fail task _
    · split
      · exact endsWithError_silent _
      · exact endsWithError_silent _

theorem endsWithError_onBlockMeta (halive : task.alive = true) (leader : Option Pubkey)
    (info : SubscribeUpdateBlockMeta) : EndsWithError (task.onBlockMeta decoders leader info) := by
  rw [GeyserTask.onBlockMeta]
  split
  · exact endsWithError_silent task
  · dsimp only
    split
    · exact endsWithError_sends halive _
    · exact endsWithError_fail _ _

variable (decoders) in
/-- Only a task that runs sends anything, and it never starts again. -/
theorem alive_of_onEvent (task : GeyserTask) (event : StreamEvent Raw) :
    EndsWithError (task.onEvent decoders event) ∧
      (∀ message ∈ (task.onEvent decoders event).2, task.alive = true) ∧
      ((task.onEvent decoders event).1.alive = true → task.alive = true) := by
  rw [GeyserTask.onEvent]
  split
  · rename_i halive
    refine ⟨?_, fun _ _ => halive, fun _ => halive⟩
    split
    · exact endsWithError_onSlot halive _ _
    · exact endsWithError_onTransaction _ _
    · exact endsWithError_onBlockMeta halive _ _
    · exact endsWithError_silent task
    · exact endsWithError_silent task
    · exact endsWithError_fail task _
    · exact endsWithError_fail task _
  · exact ⟨endsWithError_silent task, fun _ hmessage => (Option.not_mem_none _ hmessage).elim, id⟩

/-- A step sends at most one message, which tells whether the task goes on. -/
theorem exists_sent_of_step {geyser : Geyser Raw} {state next : Subscription}
    {event : SubscriptionEvent Raw}
    (hnext : Leaders.step geyser.decoders geyser.epochAndSlotIndex geyser.parse state event =
      .ok next) :
    ∃ message : Option (Except String GeyserMessage),
      next.sent = state.sent ++ message.toList ∧
      (∀ result ∈ message, state.task.alive = true ∧
        next.task.alive = result.toOption.isSome) ∧
      (next.task.alive = true → state.task.alive = true) := by
  rcases step_cases hnext with ⟨item, sendOk, -, rfl⟩ |
    ⟨number, response, schedule, -, -, rfl⟩ | ⟨number, schedule, -, -, rfl⟩
  · obtain ⟨-, -, ⟨htask, hsent, -⟩ | ⟨hended, hsent, -⟩⟩ :=
      onPolled_spec geyser.decoders geyser.epochAndSlotIndex state item sendOk
    · obtain ⟨hends, hsends, hstarts⟩ := alive_of_onEvent geyser.decoders state.task
        ⟨item, (answer geyser.epochAndSlotIndex state item).2⟩
      rw [htask]
      exact ⟨_, hsent, fun result hresult => ⟨hsends result hresult, hends result hresult⟩,
        hstarts⟩
    · refine ⟨none, by rw [hsent]; exact (List.append_nil _).symm,
        fun _ h => (Option.not_mem_none _ h).elim, fun halive => ?_⟩
      rw [hended] at halive
      cases halive
  · exact ⟨none, (List.append_nil _).symm, fun _ h => (Option.not_mem_none _ h).elim, id⟩
  · exact ⟨none, (List.append_nil _).symm, fun _ h => (Option.not_mem_none _ h).elim, id⟩

end Task

/-! ## How a channel ends -/

section Channel

variable {Raw Params : Type} {geyser : Geyser Raw} {deployment : Deployment Params}
  {events : List (PipelineEvent Raw Params)} {pipeline : Pipeline Params}
  {system after : System Params}

/-- The publisher's own steps leave its channel open or closed. -/
theorem alive_of_publisher_step {publisher next : PublishLoop.Publisher}
    {event : PublishLoop.Event}
    (hstep : publisher.step deployment.redis deployment.serialize event = .ok next)
    (hsent : ∀ result, event ≠ .sent result) (hdropped : event ≠ .dropped) :
    next.alive = publisher.alive := by
  cases StreamError.stepped_of_step hstep with
  | sent channel phase stream result => exact absurd rfl (hsent result)
  | dropped channel phase stream => exact absurd rfl hdropped
  | _ => rfl

/-- Whether the channels of the publishers are open. -/
def openChannels (system : System Params) : List Bool :=
  system.relay.publishers.map PublishLoop.Publisher.alive

/-- Only what a task does at its end opens or closes a channel. -/
theorem openChannels_of_step {event : SystemEvent Params} (hevent : atSender event = false)
    (hstep : system.step deployment event = .ok after) :
    openChannels after = openChannels system := by
  cases advanced_of_step hstep with
  | relayed hrelay =>
      cases relayed_of_step hrelay with
      | @publisher number event now trimmed publisher next hpublisher hnext =>
          have halive : next.alive = publisher.alive := by
            refine alive_of_publisher_step hnext ?_ ?_
            · rintro result rfl
              cases hevent
            · rintro rfl
              cases hevent
          rw [openChannels, List.map_set, halive]
          refine Interleaving.set_of_getElem? ?_
          rw [List.getElem?_map, hpublisher, Option.map_some]
      | polled hrunning => rfl
      | pollFailed hrunning => rfl
  | served hevent hhub => rfl
  | handed hmain hmessage hhub => rfl
  | stopped hmain hevent hhub => rfl
  | failed received error hevent => rfl

/-- What a publisher's channel takes, the system takes. -/
theorem exists_atChannel {number : ℕ} {event : PublishLoop.Event}
    {publisher next : PublishLoop.Publisher}
    (hpublisher : system.relay.publishers[number]? = some publisher)
    (hnext : publisher.step deployment.redis deployment.serialize event = .ok next) :
    ∃ after, run (System.step deployment) system [atChannel number event] = .ok after ∧
      openChannels after = (openChannels system).set number next.alive := by
  rw [run_singleton, atChannel, System.step, Relay.step, hpublisher]
  simp only [hnext]
  exact ⟨_, rfl, List.map_set ..⟩

variable (deployment) in
/-- The channel of a task takes what the task does in a step. -/
theorem exists_handedOver {number : ℕ} {task next : Subscription}
    {event : SubscriptionEvent Raw}
    (hopen : (openChannels system)[number]? = some task.task.alive)
    (hnext : Leaders.step geyser.decoders geyser.epochAndSlotIndex geyser.parse task event =
      .ok next) :
    ∃ after, run (System.step deployment) system (handOver number task next) = .ok after ∧
      openChannels after = (openChannels system).set number next.task.alive := by
  obtain ⟨message, hsent, hresult, hstarts⟩ := exists_sent_of_step hnext
  obtain ⟨publisher, hpublisher, halive⟩ := Option.map_eq_some_iff.1
    ((List.getElem?_map ..).symm.trans hopen)
  rw [handOver, hsent, List.drop_left]
  cases message with
  | some result =>
      obtain ⟨hruns, hends⟩ := hresult result rfl
      have hstep : publisher.step deployment.redis deployment.serialize (.sent result) =
          .ok { publisher with
            alive := result.toOption.isSome
            channel := publisher.channel ++ [result] } := by
        rw [PublishLoop.Publisher.step, if_pos (halive.trans hruns)]
      rw [hends]
      simpa using exists_atChannel hpublisher hstep
  | none =>
      by_cases hended : task.task.alive = true ∧ next.task.alive = false
      · have hstep : publisher.step deployment.redis deployment.serialize .dropped =
            .ok { publisher with alive := false } := by
          rw [PublishLoop.Publisher.step, if_pos (halive.trans hended.1)]
        rw [hended.1, hended.2]
        exact exists_atChannel hpublisher hstep
      · have hsame : next.task.alive = task.task.alive := by
          revert hstarts hended
          cases task.task.alive <;> cases next.task.alive <;> simp
        refine ⟨system, ?_, ?_⟩
        · rw [hsame]
          cases task.task.alive <;> rfl
        · rw [hsame]
          exact (Interleaving.set_of_getElem? hopen).symm

/-- The open channels are those of the tasks that run. -/
theorem openChannels_of_run (hrun : runPipeline geyser deployment events = .ok pipeline) :
    openChannels pipeline.target = pipeline.sources.map fun task => task.task.alive := by
  refine run_invariant_of_ok (fun _ (pipeline : Pipeline Params) =>
    openChannels pipeline.target = pipeline.sources.map fun task => task.task.alive) ?_ ?_ hrun
  · change (List.replicate _ _).map _ = (List.replicate _ _).map _
    rw [List.map_replicate, List.map_replicate]
    rfl
  · intro before pipeline event next hbefore hstep
    cases took_of_step hstep with
    | @source number event task latest target htask hallowed hlatest htarget =>
        have hopen : (openChannels pipeline.target)[number]? = some task.task.alive := by
          rw [hbefore, List.getElem?_map, htask, Option.map_some]
        obtain ⟨after, hafter, hchannels⟩ := exists_handedOver deployment hopen hlatest
        obtain rfl := Except.ok.inj (hafter.symm.trans htarget)
        rw [hchannels, hbefore, List.map_set]
    | target hevent htarget => exact (openChannels_of_step hevent htarget).trans hbefore

/-! ## When a publisher has stopped -/

theorem exists_allowsSend (publisher : PublishLoop.Publisher) :
    ∃ sendOk, publisher.allowsSend sendOk = true := by
  obtain ⟨alive, channel, phase, stream⟩ := publisher
  cases phase with
  | stopped stop => exact ⟨false, rfl⟩
  | _ => exact ⟨true, rfl⟩

theorem exists_stopped_of_allowsSend {publisher : PublishLoop.Publisher}
    (hsend : publisher.allowsSend false = true) : ∃ stop, publisher.phase = .stopped stop := by
  obtain ⟨alive, channel, phase, stream⟩ := publisher
  cases phase with
  | stopped stop => exact ⟨stop, rfl⟩
  | _ => cases hsend

/-- A publisher that has stopped stays so. -/
theorem stopped_of_step {stop : PublishLoop.Stop} {number : ℕ}
    {publisher : PublishLoop.Publisher}
    (hpublisher : system.relay.publishers[number]? = some publisher)
    (hstop : publisher.phase = .stopped stop) {event : SystemEvent Params}
    (hstep : system.step deployment event = .ok after) :
    ∃ next, after.relay.publishers[number]? = some next ∧ next.phase = .stopped stop := by
  cases advanced_of_step hstep with
  | relayed hrelay =>
      cases relayed_of_step hrelay with
      | @publisher other event now trimmed old next hold hnext =>
          by_cases hother : other = number
          · subst hother
            obtain rfl := Option.some.inj (hold.symm.trans hpublisher)
            have hbound := (List.getElem?_eq_some_iff.1 hold).1
            refine ⟨next, List.getElem?_set_self hbound, ?_⟩
            exact StreamError.stopped_of_stepped (StreamError.stepped_of_step hnext) hstop
          · exact ⟨publisher, by rw [List.getElem?_set_ne hother, hpublisher], hstop⟩
      | polled hrunning => exact ⟨publisher, hpublisher, hstop⟩
      | pollFailed hrunning => exact ⟨publisher, hpublisher, hstop⟩
  | served hevent hhub => exact ⟨publisher, hpublisher, hstop⟩
  | handed hmain hmessage hhub => exact ⟨publisher, hpublisher, hstop⟩
  | stopped hmain hevent hhub => exact ⟨publisher, hpublisher, hstop⟩
  | failed received error hevent => exact ⟨publisher, hpublisher, hstop⟩

theorem stopped_of_run {stop : PublishLoop.Stop} {number : ℕ}
    {publisher : PublishLoop.Publisher}
    (hpublisher : system.relay.publishers[number]? = some publisher)
    (hstop : publisher.phase = .stopped stop) {systemEvents : List (SystemEvent Params)}
    (hrun : run (System.step deployment) system systemEvents = .ok after) :
    ∃ next, after.relay.publishers[number]? = some next ∧ next.phase = .stopped stop := by
  refine run_invariant_of_ok (fun _ (after : System Params) => ∃ next,
    after.relay.publishers[number]? = some next ∧ next.phase = .stopped stop)
    ⟨publisher, hpublisher, hstop⟩ ?_ hrun
  intro before middle event last ⟨middle', hmiddle, hstopped⟩ hstep
  exact stopped_of_step hmiddle hstopped hstep

/-- A task whose receiver is gone sends nothing. -/
theorem sent_of_failed {number : ℕ} {publisher : PublishLoop.Publisher}
    (hpublisher : system.relay.publishers[number]? = some publisher)
    {stop : PublishLoop.Stop} (hstop : publisher.phase = .stopped stop)
    (hfailed : stop.isError = true) {task next : Subscription}
    {event : SubscriptionEvent Raw} (hallowed : allowed number system event = true)
    (hnext : Leaders.step geyser.decoders geyser.epochAndSlotIndex geyser.parse task event =
      .ok next) : next.sent = task.sent := by
  rcases step_cases hnext with ⟨item, sendOk, rfl, rfl⟩ |
    ⟨number, response, schedule, -, -, rfl⟩ | ⟨number, schedule, -, -, rfl⟩
  · have hsend : sendOk = false := by
      simpa [allowed, hpublisher, PublishLoop.Publisher.allowsSend, hstop, hfailed] using
        hallowed
    obtain ⟨-, -, ⟨-, hsent, hnone⟩ | ⟨-, hsent, -⟩⟩ :=
      onPolled_spec geyser.decoders geyser.epochAndSlotIndex task item sendOk
    · rw [hsent, hnone hsend]
      exact List.append_nil _
    · exact hsent
  · rfl
  · rfl

/-- Nothing more comes from the task of a publisher that has failed. -/
theorem silent_of_failed {number : ℕ} {publisher : PublishLoop.Publisher}
    (hpublisher : pipeline.target.relay.publishers[number]? = some publisher)
    {stop : PublishLoop.Stop} (hstop : publisher.phase = .stopped stop)
    (hfailed : stop.isError = true) {task : Subscription}
    (htask : pipeline.sources[number]? = some task) {more : List (PipelineEvent Raw Params)}
    {later : Pipeline Params}
    (hmore : run (Wiring.step (wires geyser deployment)) pipeline more = .ok later) :
    ∃ last, later.sources[number]? = some last ∧ last.sent = task.sent := by
  have hinv := run_invariant_of_ok (fun _ (later : Pipeline Params) =>
    (∃ next, later.target.relay.publishers[number]? = some next ∧ next.phase = .stopped stop) ∧
      ∃ last, later.sources[number]? = some last ∧ last.sent = task.sent)
    ⟨⟨publisher, hpublisher, hstop⟩, task, htask, rfl⟩ ?_ hmore
  · exact hinv.2
  · intro before middle event next ⟨⟨old, hold, hstopped⟩, last, hlast, hsent⟩ hstep
    cases took_of_step hstep with
    | @source other event source latest target hsource hallowed hlatest htarget =>
        refine ⟨stopped_of_run hold hstopped htarget, ?_⟩
        by_cases hother : other = number
        · subst hother
          obtain rfl := Option.some.inj (hsource.symm.trans hlast)
          have hbound := (List.getElem?_eq_some_iff.1 hsource).1
          refine ⟨latest, List.getElem?_set_self hbound, ?_⟩
          rw [sent_of_failed hold hstopped hfailed hallowed hlatest, hsent]
        · exact ⟨last, by rw [List.getElem?_set_ne hother, hlast], hsent⟩
    | target hevent htarget => exact ⟨stopped_of_step hold hstopped htarget, last, hlast, hsent⟩

/-- **The channels follow the tasks.**  In every state that can be reached, the sender's end
of a channel is there exactly as long as its task runs.  No task is ever held up: what it
can do on its own it can do beside all others, and it can always poll the stream.  A
message is lost at the channel only when the publisher has stopped, and once it has failed
the task sends nothing more. -/
theorem channels_follow_tasks (hrun : runPipeline geyser deployment events = .ok pipeline)
    {number : ℕ} {task : Subscription} (htask : pipeline.sources[number]? = some task)
    {publisher : PublishLoop.Publisher}
    (hpublisher : pipeline.target.relay.publishers[number]? = some publisher) :
    publisher.alive = task.task.alive ∧
    (∀ event next, allowed number pipeline.target event = true →
      Leaders.step geyser.decoders geyser.epochAndSlotIndex geyser.parse task event = .ok next →
      ∃ after, Wiring.step (wires geyser deployment) pipeline (.source number event) =
        .ok after ∧ after.sources = pipeline.sources.set number next) ∧
    (∀ item : StreamItem Raw,
      (∃ sendOk after, Wiring.step (wires geyser deployment) pipeline
        (.source number (.polled item sendOk)) = .ok after) ∧
      ∀ after, Wiring.step (wires geyser deployment) pipeline
        (.source number (.polled item false)) = .ok after →
          ∃ stop, publisher.phase = .stopped stop) ∧
    ∀ stop, publisher.phase = .stopped stop → stop.isError = true →
      ∀ more later, run (Wiring.step (wires geyser deployment)) pipeline more = .ok later →
        ∃ last, later.sources[number]? = some last ∧ last.sent = task.sent := by
  have hmatch : (openChannels pipeline.target)[number]? = some task.task.alive := by
    rw [openChannels_of_run hrun, List.getElem?_map, htask, Option.map_some]
  have htakes (event : SubscriptionEvent Raw) (next : Subscription)
      (hallowed : allowed number pipeline.target event = true)
      (hnext : Leaders.step geyser.decoders geyser.epochAndSlotIndex geyser.parse task event =
        .ok next) :
      ∃ after, Wiring.step (wires geyser deployment) pipeline (.source number event) =
        .ok after ∧ after.sources = pipeline.sources.set number next := by
    obtain ⟨target, htarget, -⟩ := exists_handedOver deployment hmatch hnext
    refine ⟨⟨pipeline.sources.set number next, target⟩, ?_, rfl⟩
    rw [Wiring.step, htask]
    simp only [wires, hallowed, if_true, hnext, htarget]
  refine ⟨?_, htakes, fun item => ⟨?_, fun after hafter => ?_⟩,
    fun stop hstop hfailed more later hmore =>
      silent_of_failed hpublisher hstop hfailed htask hmore⟩
  · rw [openChannels, List.getElem?_map, hpublisher] at hmatch
    exact Option.some.inj hmatch
  · obtain ⟨sendOk, hsend⟩ := exists_allowsSend publisher
    obtain ⟨after, hafter, -⟩ := htakes (.polled item sendOk) _
      (by rwa [allowed, hpublisher]) rfl
    exact ⟨sendOk, after, hafter⟩
  · cases took_of_step hafter with
    | source hsource hallowed hlatest htarget =>
        have hsend : publisher.allowsSend false = true := by
          simpa [wires, allowed, hpublisher] using hallowed
        exact exists_stopped_of_allowsSend hsend

/-- Why a publisher has stopped, if it has. -/
def stopOf (publisher : PublishLoop.Publisher) : Option PublishLoop.Stop :=
  match publisher.phase with
  | .stopped stop => some stop
  | _ => none

theorem stopOf_eq_some_iff {publisher : PublishLoop.Publisher} {stop : PublishLoop.Stop} :
    stopOf publisher = some stop ↔ publisher.phase = .stopped stop := by
  obtain ⟨alive, channel, phase, stream⟩ := publisher
  cases phase <;> simp [stopOf]

/-- The first block is rejected by Redis, and the publisher fails. -/
def rejectedBlock : List (PipelineEvent ℕ (List (List String))) :=
  fetchedFront.map (.source 0) ++
    [.relay (.publisher 0 .taken 0 0), .relay (.publisher 0 .taken 0 0),
      .relay (.publisher 0 (.rejected false) 0 0)].map .target

/-- The transaction of the next block comes, and with its `BlockMeta` the task ends. -/
def unheardBlock : List (PipelineEvent ℕ (List (List String))) :=
  [.polled (Grouping.sampleTransactionEvent 7 2).item false,
    .polled (Grouping.sampleBlockMetaEvent 7).item false].map (.source 0)

theorem channels_follow_tasks_rejectedBlock :
    ∃ pipeline task publisher later last,
      runPipeline sampleGeyser sampleDelivery rejectedBlock = .ok pipeline ∧
      pipeline.sources[0]? = some task ∧
      pipeline.target.relay.publishers[0]? = some publisher ∧
      publisher.phase = .stopped .failedToSend ∧ publisher.alive = task.task.alive ∧
      run (Wiring.step (wires sampleGeyser sampleDelivery)) pipeline unheardBlock =
        .ok later ∧
      later.sources[0]? = some last ∧ last.sent = task.sent ∧ last.task.alive = false := by
  have hstopped : (runPipeline sampleGeyser sampleDelivery rejectedBlock).toOption.map
      (fun pipeline => (pipeline.sources.length, pipeline.target.relay.publishers.map stopOf)) =
        some (1, [some .failedToSend]) := by
    decide +kernel
  have hended : (runPipeline sampleGeyser sampleDelivery (rejectedBlock ++
      unheardBlock)).toOption.map (fun later => later.sources.map fun task => task.task.alive) =
        some [false] := by
    decide +kernel
  obtain ⟨later, hlater, hended⟩ := exists_ok_of_view hended
  obtain ⟨pipeline, hrun, hmore⟩ := exists_run_of_append hlater
  obtain ⟨reached, hreached, hstopped⟩ := exists_ok_of_view hstopped
  obtain rfl := Except.ok.inj (hreached.symm.trans hrun)
  obtain ⟨hlength, hstops⟩ := Prod.mk.inj hstopped
  have htask := List.getElem?_eq_getElem (show 0 < reached.sources.length by omega)
  obtain ⟨publisher, hpublishers, hstop⟩ := List.map_eq_singleton_iff.1 hstops
  have hpublisher : reached.target.relay.publishers[0]? = some publisher := by
    rw [hpublishers]
    rfl
  have hphase := stopOf_eq_some_iff.1 hstop
  obtain ⟨halive, -, -, hsilent⟩ := channels_follow_tasks hrun htask hpublisher
  obtain ⟨last, hlast, hsent⟩ := hsilent _ hphase rfl _ _ hmore
  refine ⟨reached, _, publisher, later, last, hrun, htask, hpublisher, hphase, halive, hmore,
    hlast, hsent, ?_⟩
  have hlasts : (later.sources.map fun task => task.task.alive)[0]? = some false := by
    rw [hended]
    rfl
  rw [List.getElem?_map, hlast] at hlasts
  exact Option.some.inj hlasts

end Channel

end Solfees.Origin
