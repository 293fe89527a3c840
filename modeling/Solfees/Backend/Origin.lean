import Solfees.Backend.EndToEnd
import Solfees.Core.Wiring
import Solfees.Geyser.Collecting

/-!
# Where the slots come from

Beside each publisher runs the geyser task that fills its channel.  From these tasks to
the stores of the update loop nothing is made up and nothing is altered: what the clients
are shown of a slot was sent by a task, with the leader and the transactions of the slot.
-/

namespace Solfees.Origin

open Solfees.Backend
open Solfees.Collecting
open Solfees.Fees
open Solfees.Interleaving
open Solfees.Leaders
open Solfees.Message
open Solfees.MessageJournal
open Solfees.Run
open Solfees.Schedule
open Solfees.SnapshotReplay
open Solfees.Sockets
open Solfees.Stream
open Solfees.Subscribe
open Solfees.Transport
open Solfees.Trimming
open Solfees.UpdateLoop
open Solfees.WellOrdered (HasBlock)
open Solfees.Wiring

variable {Raw Params : Type}

/-- What the geyser tasks are set up with. -/
structure Geyser (Raw : Type) where
  decoders : Decoders Raw
  epochAndSlotIndex : Slot → Epoch × ℕ
  parse : String → Option Pubkey

/-- The geyser tasks, one for each publisher, and the rest of the system. -/
abbrev Pipeline (Params : Type) := Wired Subscription (System Params)

abbrev PipelineEvent (Raw Params : Type) :=
  Wiring.Event (SubscriptionEvent Raw) (SystemEvent Params)

/-- Something happens to the channel of a publisher. -/
def atChannel (number : ℕ) (event : PublishLoop.Event) : SystemEvent Params :=
  .relay (.publisher number event 0 0)

/-- What a task has sent in a step comes into the channel of its publisher.  A task that
ends with nothing sent drops its end. -/
def handOver (number : ℕ) (task next : Subscription) : List (SystemEvent Params) :=
  let sent := next.sent.drop task.sent.length
  let dropped := task.task.alive && !next.task.alive && sent.isEmpty
  (sent.map PublishLoop.Event.sent ++ if dropped then [PublishLoop.Event.dropped] else []).map
    (atChannel number)

/-- A task sends as the receiver of its publisher allows it. -/
def allowed (number : ℕ) (system : System Params) : SubscriptionEvent Raw → Bool
  | .polled _ sendOk =>
      system.relay.publishers[number]?.any fun publisher => publisher.allowsSend sendOk
  | _ => true

/-- Only its task does anything at the sender's end of a channel. -/
def atSender : SystemEvent Params → Bool
  | .relay (.publisher _ (.sent _) _ _) => true
  | .relay (.publisher _ .dropped _ _) => true
  | _ => false

section Model

variable (geyser : Geyser Raw) (deployment : Deployment Params)

def wires : Wires Subscription (System Params) (SubscriptionEvent Raw) (SystemEvent Params)
    (SubscriptionEvent Raw) Halt where
  sourceStep := Leaders.step geyser.decoders geyser.epochAndSlotIndex geyser.parse
  targetStep := System.step deployment
  enabled := allowed
  feeds := handOver
  reserved := atSender

/-- All tasks and processes after the events. -/
def runPipeline (events : List (PipelineEvent Raw Params)) :
    Except (Wiring.Fault (SubscriptionEvent Raw) Halt) (Pipeline Params) :=
  run (Wiring.step (wires geyser deployment))
    ⟨List.replicate deployment.publishers .init, .init deployment⟩ events

end Model

/-- What comes into the channel of a publisher at an event. -/
def carried (number : ℕ) : SystemEvent Params → Option (Except String GeyserMessage)
  | .relay (.publisher other (.sent result) _ _) => if other = number then some result else none
  | _ => none

variable {geyser : Geyser Raw} {deployment : Deployment Params}
  {events : List (PipelineEvent Raw Params)} {pipeline : Pipeline Params}

/-! ## What the publishers are sent -/

/-- What a task has sent in a step, and nothing else, comes into its channel. -/
theorem filterMap_carried_handOver (number : ℕ) (task next : Subscription) :
    (handOver number task next : List (SystemEvent Params)).filterMap (carried number) =
      next.sent.drop task.sent.length := by
  have hdropped (dropped : Bool) : (if dropped then [PublishLoop.Event.dropped] else []).filterMap
      ((carried number : SystemEvent Params → _) ∘ atChannel number) = [] := by
    cases dropped <;> rfl
  rw [handOver, List.filterMap_map, List.filterMap_append, hdropped, List.append_nil,
    List.filterMap_map]
  simp [Function.comp_def, atChannel, carried]

theorem carries : Carries (wires geyser deployment) Subscription.sent carried where
  fed := by
    intro number task event next hnext
    obtain ⟨tail, htail, -⟩ := step_sends hnext
    rw [wires, filterMap_carried_handOver, htail, List.drop_left]
  apart := by
    intro number other task next hother
    refine List.filterMap_eq_nil_iff.2 fun event hevent => ?_
    obtain ⟨channelEvent, -, rfl⟩ := List.mem_map.1 hevent
    cases channelEvent with
    | sent result => exact if_neg hother
    | _ => rfl
  reserved := by
    intro number event hevent
    cases event with
    | relay event =>
        cases event with
        | publisher other channelEvent now trimmed =>
            cases channelEvent with
            | sent result => cases hevent
            | _ => rfl
        | _ => rfl
    | _ => rfl

theorem sentTo_relayEvents (number : ℕ) (events : List (SystemEvent Params)) :
    sentTo number (relayEvents events) =
      (events.filterMap (carried number)).filterMap Except.toOption := by
  rw [sentTo, eventsOf, relayEvents, List.filterMap_filterMap, List.filterMap_filterMap,
    List.filterMap_filterMap]
  congr 1
  funext event
  cases event with
  | relay event =>
      cases event with
      | publisher other channelEvent now trimmed =>
          by_cases hother : other = number
          · cases channelEvent <;>
              simp [SystemEvent.relay?, carried, StreamError.messageOf, hother]
          · cases channelEvent <;> simp [SystemEvent.relay?, carried, hother]
      | _ => rfl
  | _ => rfl

/-- The processes have made a run of their own, in which every publisher was sent what its
task has sent. -/
theorem exists_run_target_of_pipeline
    (hrun : runPipeline geyser deployment events = .ok pipeline) :
    ∃ systemEvents, runSystem deployment systemEvents = .ok pipeline.target ∧
      ∀ number : ℕ, sentTo number (relayEvents systemEvents) =
        ((pipeline.sources[number]?.map Subscription.sent).getD []).filterMap
          Except.toOption := by
  have hinit : ∀ task ∈ List.replicate deployment.publishers Subscription.init,
      task.sent = [] := by
    intro task htask
    rw [List.eq_of_mem_replicate htask]
    rfl
  obtain ⟨systemEvents, hsystem, hfed⟩ := exists_run_target carries hinit hrun
  refine ⟨systemEvents, hsystem, fun number => ?_⟩
  rw [sentTo_relayEvents, hfed number]

/-- The messages that a task has sent. -/
def messagesOf (task : Subscription) : List GeyserMessage :=
  task.sent.filterMap Except.toOption

/-- The publisher waits for the next message. -/
def isIdle (publisher : PublishLoop.Publisher) : Bool :=
  match publisher.phase, publisher.channel with
  | .receiving, [] => true
  | _, _ => false

theorem isIdle_iff {publisher : PublishLoop.Publisher} :
    isIdle publisher = true ↔ publisher.phase = .receiving ∧ publisher.channel = [] := by
  obtain ⟨alive, channel, phase, stream⟩ := publisher
  cases phase <;> cases channel <;> simp [isIdle]

/-- Nobody has stopped, nothing waits on the way from the tasks to the stores, and the
consumer has got every entry up to its latest id. -/
structure Settled (pipeline : Pipeline Params) : Prop where
  publishers : ∀ publisher ∈ pipeline.target.relay.publishers, isIdle publisher = true
  lossless : Reader.Lossless pipeline.target.relay.stream pipeline.target.relay.reader
  main : pipeline.target.main = .running
  phase : pipeline.target.hub.server.phase ≠ .ended
  drained : Drained pipeline.target

/-- **All that was sent is applied.**  When nothing waits on the way, nobody has stopped and
the stream keeps at least one entry, the stores are those after what the deduplication lets
through of an interleaving of all that the tasks have sent, and the connections can read the
updates of all of it. -/
theorem all_sent_applied (hrun : runPipeline geyser deployment events = .ok pipeline)
    (hmaxlen : 0 < deployment.redis.streamMaxlen.toNat) (hsettled : Settled pipeline) :
    ∃ merged, Interleaves (pipeline.sources.map messagesOf) merged ∧
      LoopState.runUpdateLoop (outputs Deduplication.deduplicate .init merged) =
        .ok pipeline.target.hub.server.state ∧
      pipeline.target.hub.log =
        (outputs Deduplication.deduplicate .init merged).map toStreamsUpdate := by
  obtain ⟨systemEvents, hsystem, hfed⟩ := exists_run_target_of_pipeline hrun
  obtain ⟨hubEvents, handed, hlinked⟩ := linked_of_run hsystem
  have hstate := applied_all_of_drained hsystem hmaxlen
    ((lossless_iff_of_run deployment.roundTrips hlinked.relay).1 hsettled.lossless)
    hsettled.main hsettled.phase hsettled.drained
  refine ⟨_, ?_, hstate, (streams_of_runUpdateLoop hstate).2⟩
  have hpublished : pipeline.target.relay.published deployment.deserialize =
      pipeline.sources.map messagesOf := by
    refine List.ext_getElem? fun number => ?_
    rw [Relay.published, List.getElem?_map, List.getElem?_map]
    cases htask : pipeline.sources[number]? with
    | none =>
        rw [List.getElem?_eq_none_iff, length_sources_of_run hrun, List.length_replicate] at htask
        rw [List.getElem?_eq_none_iff.2 (by rwa [length_publishers_of_run hlinked.relay])]
        rfl
    | some task =>
        have hnumber := (List.getElem?_eq_some_iff.1 htask).1
        rw [length_sources_of_run hrun, List.length_replicate,
          ← length_publishers_of_run hlinked.relay] at hnumber
        have hpublisher := List.getElem?_eq_getElem hnumber
        obtain ⟨hphase, hchannel⟩ :=
          isIdle_iff.1 (hsettled.publishers _ (List.mem_of_getElem? hpublisher))
        rw [hpublisher, Option.map_some, Option.map_some,
          published_all deployment.roundTrips hlinked.relay hpublisher hphase hchannel,
          hfed number, htask]
        rfl
  rw [← hpublished]
  exact interleaves_published hlinked.relay

/-! ## What is shown of a slot -/

section Shown

variable (geyser) (truth : Epoch → ℕ → Option Pubkey) (events)

variable {geyser} {truth} {events}

/-- The blocks of the sample, before and after the schedule is stored. -/
def sampleBlock (slot : Slot) (leader : Option Pubkey) (number : ℕ) : Block where
  leader := leader
  slot := slot
  hash := 0
  time := 0
  height := 1
  parentSlot := 0
  parentHash := 0
  transactions := [Grouping.sampleTransaction number]

def sampleMessages : List GeyserMessage :=
  [.slot (sampleBlock 5 none 1), .status 5 .confirmed, .slot (sampleBlock 7 (some 0) 2)]

def writeSample (message : GeyserMessage) : Option (List UInt8) :=
  (sampleMessages.idxOf? message).map fun index => [UInt8.ofNat index]

def readSample (bytes : List UInt8) : Option GeyserMessage :=
  sampleMessages.find? fun message => writeSample message = some bytes

theorem roundTrips_sample : RoundTrips writeSample readSample := by
  have hread : ∀ message ∈ sampleMessages, ∀ payload ∈ writeSample message,
      readSample payload = some message := by
    decide +kernel
  intro message payload h
  obtain ⟨index, hindex, -⟩ := Option.map_eq_some_iff.1 h
  exact hread message (List.isSome_idxOf?.1 (by rw [hindex]; rfl)) payload h

def sampleGeyser : Geyser ℕ where
  decoders := Grouping.sampleDecoders
  epochAndSlotIndex := normalEpochs
  parse := parseSystemProgram

def sampleDelivery : Deployment (List (List String)) where
  setup := Sockets.sampleSetup
  redis := StreamError.localConfig
  publishers := 1
  serialize := writeSample
  deserialize := readSample
  roundTrips := roundTrips_sample

/-- The task sends a block, a status of it and another block. -/
def blocksAndStatus : List (SubscriptionEvent ℕ) :=
  fetchedFront ++ .polled (some (.ok (some (.slot 5 1)))) true :: fetchedBack

/-- All three are published, polled, received and applied. -/
def twoBlocksThrough : List (PipelineEvent ℕ (List (List String))) :=
  blocksAndStatus.map (.source 0) ++
    [.relay (.publisher 0 .taken 0 0), .relay (.publisher 0 .taken 0 0),
      .relay (.publisher 0 .taken 0 0), .relay (.publisher 0 .taken 0 0),
      .relay (.publisher 0 .accepted 1 0), .relay .polled, .received, .received, .received,
      .hub (.server .turn), .hub (.server .turn), .hub (.server .turn)].map .target

end Shown

/-- After them nothing waits, and all three messages were applied. -/
theorem all_sent_applied_twoBlocksThrough :
    ∃ pipeline merged, runPipeline sampleGeyser sampleDelivery twoBlocksThrough = .ok pipeline ∧
      Settled pipeline ∧ Interleaves [sampleMessages] merged ∧
      LoopState.runUpdateLoop (outputs Deduplication.deduplicate .init merged) =
        .ok pipeline.target.hub.server.state := by
  have hview : (runPipeline sampleGeyser sampleDelivery twoBlocksThrough).toOption.map
      (fun pipeline => decide (pipeline.target.main = .running ∧
        pipeline.target.hub.server.phase ≠ .ended ∧
        xread pipeline.target.relay.stream pipeline.target.relay.consumer.latestId = [] ∧
        pipeline.target.received = pipeline.target.relay.consumer.tx.length ∧
        pipeline.target.hub.server.messages = [] ∧
        pipeline.target.relay.delivered = pipeline.target.relay.stream.entries ∧
        pipeline.sources.map messagesOf = [sampleMessages])) = some true := by
    decide +kernel
  have hidle : (runPipeline sampleGeyser sampleDelivery twoBlocksThrough).toOption.map
      (fun pipeline => pipeline.target.relay.publishers.all isIdle) = some true := by
    decide +kernel
  obtain ⟨pipeline, hrun, hview⟩ := exists_ok_of_view hview
  rw [hrun] at hidle
  obtain ⟨hmain, hphase, hread, hreceived, happlied, hdelivered, hsources⟩ :=
    of_decide_eq_true hview
  have hsettled : Settled pipeline := by
    refine ⟨fun publisher hmem => ?_, fun entry hentry _ => ?_, hmain, hphase,
      ⟨hread, hreceived, happlied⟩⟩
    · exact List.all_eq_true.1 (Option.some.inj hidle) publisher hmem
    · change entry ∈ pipeline.target.relay.delivered
      rwa [hdelivered]
  obtain ⟨merged, hmerged, hstate, -⟩ := all_sent_applied hrun (by decide) hsettled
  rw [hsources] at hmerged
  exact ⟨pipeline, merged, hrun, hsettled, hmerged, hstate⟩

end Solfees.Origin
