import Solfees.Backend.Main
import Solfees.Redis.Publishers
import Solfees.Rpc.SnapshotSync

/-!
# From the validators to the clients

At every moment the update loop has applied the first of the messages that the
consumer's deduplication lets through, and if nothing waits on the way it has applied
them all.  With publishers of one sequence of messages, these are the messages of the
sequence itself, each once, however many publishers there are and wherever they stop.
-/

namespace Solfees.Backend

open Solfees.Actors
open Solfees.Interleaving
open Solfees.Message
open Solfees.Run
open Solfees.SnapshotReplay
open Solfees.Sockets
open Solfees.Subscribe
open Solfees.Transport
open Solfees.Trimming
open Solfees.UpdateLoop

variable {Params : Type} {deployment : Deployment Params} {system next : System Params}
  {events : List (SystemEvent Params)}

/-! ## One step -/

/-- What a step does. -/
inductive Advanced (deployment : Deployment Params) (system : System Params) :
    SystemEvent Params → System Params → Prop
  | relayed {event : RelayEvent} {relay : Relay}
      (hrelay : system.relay.step deployment.redis deployment.serialize
        deployment.deserialize event = .ok relay) :
      Advanced deployment system (.relay event) { system with relay := relay }
  | served {event : HubEvent Params} {hub : Hub Params}
      (hevent : event.server?.bind Event.pushed? = none)
      (hhub : system.hub.step deployment.setup event = .ok hub) :
      Advanced deployment system (.hub event) { system with hub := hub }
  | handed {message : GeyserMessage} {hub : Hub Params} (hmain : system.main = .running)
      (hmessage : system.relay.consumer.tx[system.received]? = some (.ok message))
      (hhub : system.hub.step deployment.setup (.server (.push (some message))) = .ok hub) :
      Advanced deployment system .received
        { system with received := system.received + 1, hub := hub, main := .running }
  | stopped {event : SystemEvent Params} {hub : Hub Params} (hmain : system.main = .running)
      (hevent : event = .received ∨ event = .signal)
      (hhub : system.hub.step deployment.setup (.server (.push none)) = .ok hub) :
      Advanced deployment system event { system with hub := hub, main := .stopping }
  | failed {event : SystemEvent Params} (received : ℕ) (error : String)
      (hevent : event = .received ∨ event = .signal ∨ event = .tasksFinished) :
      Advanced deployment system event
        { system with received := received, main := .failed error }

theorem exists_of_onHub {event : HubEvent Params} {main : MainPhase}
    (h : system.onHub deployment event main = .ok next) :
    ∃ hub, system.hub.step deployment.setup event = .ok hub ∧
      next = { system with hub := hub, main := main } := by
  rw [System.onHub] at h
  cases hhub : system.hub.step deployment.setup event with
  | error fault =>
      rw [hhub] at h
      cases h
  | ok hub =>
      rw [hhub] at h
      exact ⟨hub, rfl, (Except.ok.inj h).symm⟩

theorem exists_of_send {message : Option GeyserMessage} {main : MainPhase}
    (h : system.send deployment message main = .ok next) :
    (∃ error, next = { system with main := .failed error }) ∨
      ∃ hub, system.hub.step deployment.setup (.server (.push message)) = .ok hub ∧
        next = { system with hub := hub, main := main } := by
  rw [System.send] at h
  split at h
  · exact Or.inl ⟨_, (Except.ok.inj h).symm⟩
  · exact Or.inr (exists_of_onHub h)

theorem advanced_of_step {event : SystemEvent Params}
    (hstep : system.step deployment event = .ok next) :
    Advanced deployment system event next := by
  cases event with
  | relay event =>
      rw [System.step] at hstep
      split at hstep
      next relay hrelay =>
        obtain rfl := Except.ok.inj hstep
        exact .relayed hrelay
      next => cases hstep
  | hub event =>
      rw [System.step] at hstep
      split at hstep
      next => cases hstep
      next hevent =>
        obtain ⟨hub, hhub, rfl⟩ := exists_of_onHub hstep
        exact .served (Option.not_isSome_iff_eq_none.1 hevent) hhub
  | received =>
      rw [System.step] at hstep
      split at hstep
      next hmain =>
        rw [System.onReceived.eq_def] at hstep
        split at hstep
        next message hmessage =>
          rcases exists_of_send hstep with ⟨error, rfl⟩ | ⟨hub, hhub, rfl⟩
          · exact .failed _ error (Or.inl rfl)
          · exact .handed hmain hmessage hhub
        next error herror =>
          obtain rfl := Except.ok.inj hstep
          exact .failed _ error (Or.inl rfl)
        next =>
          split at hstep
          next => cases hstep
          next =>
            rcases exists_of_send hstep with ⟨error, rfl⟩ | ⟨hub, hhub, rfl⟩
            · exact .failed _ error (Or.inl rfl)
            · exact .stopped hmain (Or.inl rfl) hhub
      next => cases hstep
  | signal =>
      rw [System.step] at hstep
      split at hstep
      next hmain =>
        rcases exists_of_send hstep with ⟨error, rfl⟩ | ⟨hub, hhub, rfl⟩
        · exact .failed _ error (Or.inr (Or.inl rfl))
        · exact .stopped hmain (Or.inr rfl) hhub
      next => cases hstep
  | tasksFinished =>
      rw [System.step] at hstep
      split at hstep
      next =>
        obtain rfl := Except.ok.inj hstep
        exact .failed _ _ (Or.inr (Or.inr rfl))
      next => cases hstep

/-! ## What the consumer has sent stays sent -/

theorem tx_prefix_onStreamId (streamFieldKey : String)
    (deserialize : List UInt8 → Option GeyserMessage) (consumer : Consumer)
    (streamId : StreamId) :
    consumer.tx <+: (consumer.onStreamId streamFieldKey deserialize streamId).tx := by
  rw [Consumer.onStreamId]
  split
  · split
    · split
      · exact List.prefix_append _ _
      · exact List.prefix_append _ _
    · exact List.prefix_append _ _
  · exact List.prefix_rfl

theorem tx_prefix_foldl (streamFieldKey : String)
    (deserialize : List UInt8 → Option GeyserMessage) (ids : List StreamId)
    (consumer : Consumer) :
    consumer.tx <+: (ids.foldl (Consumer.onStreamId streamFieldKey deserialize) consumer).tx := by
  induction ids generalizing consumer with
  | nil => exact List.prefix_rfl
  | cons streamId ids ih => exact (tx_prefix_onStreamId _ _ consumer streamId).trans (ih _)

theorem tx_prefix_onReply (streamFieldKey : String)
    (deserialize : List UInt8 → Option GeyserMessage) (consumer : Consumer)
    (reply : XreadReply) :
    consumer.tx <+: (consumer.onReply streamFieldKey deserialize reply).tx := by
  rw [Consumer.onReply.eq_def]
  split
  · split
    · exact List.prefix_append _ _
    · split
      · exact List.prefix_rfl
      · exact tx_prefix_foldl _ _ _ consumer
  · exact List.prefix_rfl

theorem tx_prefix_of_step {relay after : Relay} {event : RelayEvent}
    (hstep : relay.step deployment.redis deployment.serialize deployment.deserialize event =
      .ok after) : relay.consumer.tx <+: after.consumer.tx := by
  cases relayed_of_step hstep with
  | publisher hpublisher hafter => exact List.prefix_rfl
  | polled hrunning => exact tx_prefix_onReply _ _ _ _
  | pollFailed hrunning => exact tx_prefix_onReply _ _ _ _

/-! ## What the update loop is given -/

/-- The parts of the system have made runs of their own, and the update loop was given
the first messages that the consumer sent, and then perhaps told to stop. -/
structure Linked (deployment : Deployment Params) (events : List (SystemEvent Params))
    (system : System Params) (hubEvents : List (HubEvent Params))
    (handed : List GeyserMessage) : Prop where
  relay : runRelay deployment.redis deployment.serialize deployment.deserialize
    deployment.publishers (relayEvents events) = .ok system.relay
  hub : runHub deployment.setup hubEvents = .ok system.hub
  sent : handed.map .ok <+: system.relay.consumer.tx
  given : pushes (serverEvents hubEvents) <+: handed.map some ++ [none]
  running : system.main = .running →
    handed.length = system.received ∧ pushes (serverEvents hubEvents) = handed.map some

theorem prefix_concat_of_getElem? {A : Type*} {front list : List A} (h : front <+: list) {a : A}
    (ha : list[front.length]? = some a) : front ++ [a] <+: list := by
  obtain ⟨rest, rfl⟩ := h
  rw [List.getElem?_append_right le_rfl, Nat.sub_self] at ha
  cases rest with
  | nil => cases ha
  | cons first rest =>
      obtain rfl := Option.some.inj ha
      exact ⟨rest, by simp⟩

theorem serverEvents_concat (hubEvents : List (HubEvent Params)) (event : HubEvent Params) :
    serverEvents (hubEvents ++ [event]) = serverEvents hubEvents ++ event.server?.toList := by
  rw [serverEvents, List.filterMap_append]
  cases hserver : event.server? <;> simp [serverEvents, hserver]

theorem pushes_concat (hubEvents : List (HubEvent Params)) (event : HubEvent Params) :
    pushes (serverEvents (hubEvents ++ [event])) =
      pushes (serverEvents hubEvents) ++ (event.server?.bind Event.pushed?).toList := by
  rw [serverEvents_concat, pushes_append]
  cases hserver : event.server? with
  | none => rfl
  | some serverEvent => cases hpushed : serverEvent.pushed? <;> simp [pushes, hpushed]

theorem relayEvents_concat (events : List (SystemEvent Params)) (event : SystemEvent Params) :
    relayEvents (events ++ [event]) = relayEvents events ++ event.relay?.toList := by
  rw [relayEvents, List.filterMap_append]
  cases hrelay : event.relay? <;> simp [relayEvents, hrelay]

theorem linked_of_run (hrun : runSystem deployment events = .ok system) :
    ∃ hubEvents handed, Linked deployment events system hubEvents handed := by
  refine run_invariant_of_ok (fun events system => ∃ hubEvents handed,
    Linked deployment events system hubEvents handed) ?_ ?_ hrun
  · exact ⟨[], [], rfl, rfl, List.nil_prefix, List.nil_prefix, fun _ => ⟨rfl, rfl⟩⟩
  · intro before system event next ⟨hubEvents, handed, hlinked⟩ hstep
    cases advanced_of_step hstep with
    | @relayed event relay hrelay =>
        refine ⟨hubEvents, handed, ?_, hlinked.hub,
          hlinked.sent.trans (tx_prefix_of_step hrelay), hlinked.given, hlinked.running⟩
        rw [relayEvents_concat]
        exact (run_concat_of_ok hlinked.relay event).trans hrelay
    | @served event hub hevent hhub =>
        have hpushes := pushes_concat hubEvents event
        rw [hevent, Option.toList_none, List.append_nil] at hpushes
        refine ⟨hubEvents ++ [event], handed, ?_, ?_, hlinked.sent, ?_, ?_⟩
        · rw [relayEvents_concat]
          exact (congrArg _ (List.append_nil _)).trans hlinked.relay
        · exact (run_concat_of_ok hlinked.hub event).trans hhub
        · rw [hpushes]
          exact hlinked.given
        · rw [hpushes]
          exact hlinked.running
    | @handed message hub hmain hmessage hhub =>
        obtain ⟨hlength, hpushed⟩ := hlinked.running hmain
        have hpushes := pushes_concat hubEvents (.server (.push (some message)))
        rw [hpushed] at hpushes
        have hall : Actors.pushes (serverEvents
            (hubEvents ++ [.server (.push (some message))])) =
              (handed ++ [message]).map some := by
          rw [hpushes, List.map_append]
          rfl
        refine ⟨hubEvents ++ [.server (.push (some message))], handed ++ [message],
          ?_, ?_, ?_, ?_, fun _ => ⟨?_, hall⟩⟩
        · rw [relayEvents_concat]
          exact (congrArg _ (List.append_nil _)).trans hlinked.relay
        · exact (run_concat_of_ok hlinked.hub _).trans hhub
        · rw [List.map_append]
          refine prefix_concat_of_getElem? hlinked.sent ?_
          rwa [List.length_map, hlength]
        · rw [hall]
          exact List.prefix_append _ _
        · rw [List.length_append, hlength]
          rfl
    | @stopped event hub hmain hevent hhub =>
        obtain ⟨hlength, hpushed⟩ := hlinked.running hmain
        refine ⟨hubEvents ++ [.server (.push none)], handed, ?_, ?_, hlinked.sent, ?_, ?_⟩
        · rw [relayEvents_concat]
          rcases hevent with rfl | rfl <;>
            exact (congrArg _ (List.append_nil _)).trans hlinked.relay
        · exact (run_concat_of_ok hlinked.hub _).trans hhub
        · rw [pushes_concat, hpushed]
          exact List.prefix_rfl
        · exact fun hrunning => nomatch hrunning
    | @failed event received error hevent =>
        refine ⟨hubEvents, handed, ?_, hlinked.hub, hlinked.sent, hlinked.given, ?_⟩
        · rw [relayEvents_concat]
          rcases hevent with rfl | rfl | rfl <;>
            exact (congrArg _ (List.append_nil _)).trans hlinked.relay
        · exact fun hrunning => nomatch hrunning

/-! ## From one end to the other -/

/-- Nothing waits: the next poll gets nothing, `main2` has received all that was sent, and
the update loop has no message left. -/
structure Drained (system : System Params) : Prop where
  read : xread system.relay.stream system.relay.consumer.latestId = []
  received : system.received = system.relay.consumer.tx.length
  applied : system.hub.server.messages = []

/-- The messages among the results. -/
theorem filterMap_toOption (messages : List GeyserMessage) (errors : List String) :
    (messages.map Except.ok ++ errors.map Except.error).filterMap Except.toOption =
      messages := by
  simp [List.filterMap_map, Function.comp_def, Except.toOption]

theorem filterMap_toOption_ok (messages : List GeyserMessage) :
    (messages.map (Except.ok : GeyserMessage → Except String GeyserMessage)).filterMap
      Except.toOption = messages := by
  simpa using filterMap_toOption messages []

theorem prefix_of_map_some {first second : List GeyserMessage}
    (h : first.map some <+: second.map some ++ [none]) : first <+: second := by
  simpa [List.filterMap_map] using h.filterMap id

/-- What the deduplication lets through it was given. -/
theorem mem_of_mem_outputs {state : Deduplication} {messages : List GeyserMessage}
    {message : GeyserMessage}
    (h : message ∈ outputs Deduplication.deduplicate state messages) : message ∈ messages := by
  refine (outputs_sublist (fun state message output houtput => ?_) state messages).subset h
  rw [Deduplication.deduplicate] at houtput
  split at houtput
  · cases houtput
  · dsimp only at houtput
    split at houtput
    · cases houtput
    · exact (Option.some.inj houtput).symm

/-- More messages let through more. -/
theorem outputs_mono {messages messages' : List GeyserMessage} (h : messages <+: messages') :
    outputs Deduplication.deduplicate .init messages <+:
      outputs Deduplication.deduplicate .init messages' := by
  obtain ⟨more, rfl⟩ := h
  rw [outputs_append]
  exact List.prefix_append _ _

/-- What the update loop has applied, and where it comes from. -/
theorem exists_applied_of_run (hrun : runSystem deployment events = .ok system) :
    ∃ applied, LoopState.runUpdateLoop applied = .ok system.hub.server.state ∧
      system.hub.log = applied.map toStreamsUpdate ∧
      applied <+: outputs Deduplication.deduplicate .init
        (messagesIn deployment.deserialize system.relay.delivered) := by
  obtain ⟨hubEvents, handed, hlinked⟩ := linked_of_run hrun
  obtain ⟨applied, hstate, hlog, happlied⟩ := log_of_run hlinked.hub
  obtain ⟨position, hfed, -⟩ := served_of_run deployment.roundTrips hlinked.relay
  refine ⟨applied, hstate, hlog, ?_⟩
  have hsent := hlinked.sent.filterMap Except.toOption
  rw [hfed.tx, filterMap_toOption, filterMap_toOption_ok] at hsent
  exact (prefix_of_map_some (happlied.trans hlinked.given)).trans hsent

/-- A consumer that has lost nothing has got the first entries of the stream. -/
theorem delivered_prefix_of_lossless {relay : Relay} {position : ℕ}
    (hat : Reader.At relay.stream position relay.reader)
    (hlossless : Reader.Lossless relay.stream relay.reader) :
    relay.delivered <+: relay.stream.entries := by
  have hdelivered : relay.delivered = relay.stream.entries.take position :=
    hat.lossless_iff.1 hlossless
  rw [hdelivered]
  exact List.take_prefix _ _

theorem messagesIn_mono {deserialize : List UInt8 → Option GeyserMessage}
    {entries entries' : List (EntryId × PublishLoop.Xadd)} (h : entries <+: entries') :
    messagesIn deserialize entries <+: messagesIn deserialize entries' :=
  h.filterMap _

/-- **End to end.**  However the publishers, Redis, the consumer, `main2`, the update loop,
the clients and the connections take their turns: the stores are those after the first
messages that the deduplication lets through of what was delivered, which is a part of an
interleaving of what the publishers were sent; and the same messages are broadcast.  As
long as the consumer is not outrun, nothing is missing between them. -/
theorem end_to_end (hrun : runSystem deployment events = .ok system) :
    ∃ applied published, LoopState.runUpdateLoop applied = .ok system.hub.server.state ∧
      system.hub.log = applied.map toStreamsUpdate ∧
      applied <+: outputs Deduplication.deduplicate .init
        (messagesIn deployment.deserialize system.relay.delivered) ∧
      system.relay.delivered.Sublist system.relay.stream.entries ∧
      Interleaves published
        (messagesIn deployment.deserialize system.relay.stream.entries) ∧
      (∀ number first, published[number]? = some first →
        first <+: sentTo number (relayEvents events)) ∧
      (¬ PolledOutrun deployment.redis deployment.serialize deployment.deserialize
          deployment.publishers (relayEvents events) →
        applied <+: outputs Deduplication.deduplicate .init
          (messagesIn deployment.deserialize system.relay.stream.entries)) := by
  obtain ⟨hubEvents, handed, hlinked⟩ := linked_of_run hrun
  obtain ⟨applied, hstate, hlog, happlied⟩ := exists_applied_of_run hrun
  obtain ⟨position, -, hat⟩ := served_of_run deployment.roundTrips hlinked.relay
  refine ⟨applied, _, hstate, hlog, happlied, hat.sublist.trans (List.take_sublist _ _),
    interleaves_published hlinked.relay,
    fun _ _ => published_first deployment.roundTrips hlinked.relay, fun hoverrun => ?_⟩
  have hlossless := (lossless_iff_of_run deployment.roundTrips hlinked.relay).2 hoverrun
  exact happlied.trans
    (outputs_mono (messagesIn_mono (delivered_prefix_of_lossless hat hlossless)))

/-- Two publishers of the same two statuses. -/
def sampleDeployment : Deployment (List (List String)) where
  setup := sampleSetup
  redis := StreamError.localConfig
  publishers := 2
  serialize := writeStatus
  deserialize := readStatus
  roundTrips := roundTrips_status

/-- What both have published goes through to the stores. -/
def handedOn : List (SystemEvent (List (List String))) :=
  bothPublish.map .relay ++ [.received, .received, .hub (.server .turn), .hub (.server .turn)]

theorem relayEvents_handedOn : relayEvents handedOn = bothPublish := rfl

/-- After `handedOn` nothing waits on the way. -/
theorem exists_handedOn :
    ∃ system, runSystem sampleDeployment handedOn = .ok system ∧
      system.main = .running ∧ system.hub.server.phase ≠ .ended ∧ Drained system ∧
      messagesIn readStatus system.relay.stream.entries =
        [.status 5 .processed, .status 5 .processed, .status 5 .confirmed] ∧
      ¬ PolledOutrun StreamError.localConfig writeStatus readStatus 2 bothPublish := by
  have hview : (runSystem sampleDeployment handedOn).toOption.map (fun system =>
      decide (system.main = .running ∧ system.hub.server.phase ≠ .ended ∧
        xread system.relay.stream system.relay.consumer.latestId = [] ∧
        system.received = system.relay.consumer.tx.length ∧
        system.hub.server.messages = [])) = some true := by
    decide +kernel
  have hstream : (runSystem sampleDeployment handedOn).toOption.map (fun system =>
      (messagesIn readStatus system.relay.stream.entries,
        decide (system.relay.delivered = system.relay.stream.entries))) =
      some ([.status 5 .processed, .status 5 .processed, .status 5 .confirmed], true) := by
    decide +kernel
  obtain ⟨system, hrun, hview⟩ := exists_ok_of_view hview
  obtain ⟨_, hsame, hstream⟩ := exists_ok_of_view hstream
  obtain rfl := Except.ok.inj (hrun.symm.trans hsame)
  obtain ⟨hmain, hphase, hread, hreceived, happlied⟩ := of_decide_eq_true hview
  obtain ⟨hmessages, hdelivered⟩ := Prod.mk.inj hstream
  refine ⟨system, hrun, hmain, hphase, ⟨hread, hreceived, happlied⟩, hmessages, ?_⟩
  obtain ⟨hubEvents, handed, hlinked⟩ := linked_of_run hrun
  have hrelay := hlinked.relay
  rw [relayEvents_handedOn] at hrelay
  refine (lossless_iff_of_run roundTrips_status hrelay).1 fun entry hentry _ => ?_
  change entry ∈ system.relay.delivered
  rwa [of_decide_eq_true hdelivered]

theorem end_to_end_handedOn :
    ∃ system applied, runSystem sampleDeployment handedOn = .ok system ∧
      LoopState.runUpdateLoop applied = .ok system.hub.server.state ∧
      applied <+: outputs Deduplication.deduplicate .init
        [.status 5 .processed, .status 5 .processed, .status 5 .confirmed] := by
  obtain ⟨system, hrun, -, -, -, hmessages, hoverrun⟩ := exists_handedOn
  obtain ⟨applied, published, hstate, -, -, -, -, -, happlied⟩ := end_to_end hrun
  refine ⟨system, applied, hrun, hstate, ?_⟩
  rw [← hmessages]
  exact happlied hoverrun

/-! ## When nothing waits on the way -/

/-- A consumer that would get nothing stands at the end of the stream. -/
theorem delivered_eq_of_drained {relay : Relay} {position : ℕ} {streamMaxlen : ℕ}
    (hat : Reader.At relay.stream position relay.reader)
    (hlossless : Reader.Lossless relay.stream relay.reader)
    (hretains : relay.stream.Retains streamMaxlen) (hmaxlen : 0 < streamMaxlen)
    (hread : xread relay.stream relay.consumer.latestId = []) :
    relay.delivered = relay.stream.entries := by
  have hdelivered : relay.delivered = relay.stream.entries.take position :=
    hat.lossless_iff.1 hlossless
  have hnothing : relay.stream.read 5 relay.reader.cursor = [] := hread
  rw [hat.read_eq, List.take_eq_nil_iff, List.drop_eq_nil_iff] at hnothing
  rw [hdelivered, List.take_eq_self_iff]
  rw [TrimmedLog.Retains] at hretains
  omega

theorem applied_all_of_drained (hrun : runSystem deployment events = .ok system)
    (hmaxlen : 0 < deployment.redis.streamMaxlen.toNat)
    (hoverrun : ¬ PolledOutrun deployment.redis deployment.serialize deployment.deserialize
      deployment.publishers (relayEvents events))
    (hmain : system.main = .running) (hphase : system.hub.server.phase ≠ .ended)
    (hdrained : Drained system) :
    LoopState.runUpdateLoop (outputs Deduplication.deduplicate .init
      (messagesIn deployment.deserialize system.relay.stream.entries)) =
        .ok system.hub.server.state := by
  obtain ⟨hubEvents, handed, hlinked⟩ := linked_of_run hrun
  obtain ⟨position, hfed, hat⟩ := served_of_run deployment.roundTrips hlinked.relay
  have hlossless := (lossless_iff_of_run deployment.roundTrips hlinked.relay).2 hoverrun
  have hdelivered := delivered_eq_of_drained hat hlossless (retains_of_run hlinked.relay)
    hmaxlen hdrained.read
  obtain ⟨hlength, hpushed⟩ := hlinked.running hmain
  -- all that the consumer sent is a message that was handed on
  have hall : handed.map .ok = system.relay.consumer.tx := by
    refine hlinked.sent.eq_of_length ?_
    rw [List.length_map, hlength, hdrained.received]
  have hhanded : handed = outputs Deduplication.deduplicate .init
      (messagesIn deployment.deserialize system.relay.stream.entries) := by
    rw [← filterMap_toOption_ok handed, hall, hfed.tx, hdelivered, filterMap_toOption]
  obtain ⟨messages, hmessages, hstate⟩ :=
    state_of_messages_eq_nil (runServer_of_runHub hlinked.hub) hphase hdrained.applied
  rw [hpushed] at hmessages
  rw [← hhanded, List.map_injective_iff.2 (Option.some_injective _) hmessages]
  exact hstate

/-- **Nothing is stuck.**  While `main2` and the update loop run and the stream keeps at least
one entry, when nothing waits on the way and the consumer was never outrun, the stores are
those after every message of the stream that the deduplication lets through, and the
connections can read the updates of all of them. -/
theorem drained_applied_all (hrun : runSystem deployment events = .ok system)
    (hmaxlen : 0 < deployment.redis.streamMaxlen.toNat)
    (hoverrun : ¬ PolledOutrun deployment.redis deployment.serialize deployment.deserialize
      deployment.publishers (relayEvents events))
    (hmain : system.main = .running) (hphase : system.hub.server.phase ≠ .ended)
    (hdrained : Drained system) :
    LoopState.runUpdateLoop (outputs Deduplication.deduplicate .init
      (messagesIn deployment.deserialize system.relay.stream.entries)) =
        .ok system.hub.server.state ∧
      system.hub.log = (outputs Deduplication.deduplicate .init
        (messagesIn deployment.deserialize system.relay.stream.entries)).map
          toStreamsUpdate := by
  have hstate := applied_all_of_drained hrun hmaxlen hoverrun hmain hphase hdrained
  exact ⟨hstate, (streams_of_runUpdateLoop hstate).2⟩

theorem drained_applied_all_handedOn :
    ∃ system, runSystem sampleDeployment handedOn = .ok system ∧
      system.hub.log = twoStatuses.map toStreamsUpdate := by
  obtain ⟨system, hrun, hmain, hphase, hdrained, hmessages, hoverrun⟩ := exists_handedOn
  have hlog := (drained_applied_all hrun (by decide) hoverrun hmain hphase hdrained).2
  refine ⟨system, hrun, hlog.trans (congrArg (List.map toStreamsUpdate) ?_)⟩
  change outputs _ _ (messagesIn readStatus _) = _
  rw [hmessages]
  decide

/-! ## Publishers of one sequence -/

/-- Wherever the publishers of one sequence stand, the deduplication lets through what it
lets through of a prefix of the sequence that contains what each of them has published. -/
theorem exists_outputs_eq_select {relay : Relay} {relayed : List RelayEvent}
    (hrun : runRelay deployment.redis deployment.serialize deployment.deserialize
      deployment.publishers relayed = .ok relay) {messages : List GeyserMessage}
    (hsent : ∀ number, sentTo number relayed <+: messages)
    (hspaced : Admitted Forwarding.spaced
      (messagesIn deployment.deserialize relay.stream.entries)) :
    ∃ longest, longest <+: messages ∧
      (∀ published ∈ relay.published deployment.deserialize, published <+: longest) ∧
      outputs Deduplication.deduplicate .init
          (messagesIn deployment.deserialize relay.stream.entries) =
        select Forwarding.keep longest := by
  have hpublished : ∀ published ∈ relay.published deployment.deserialize,
      published <+: messages := by
    intro published hmem
    obtain ⟨number, hnumber⟩ := List.mem_iff_getElem?.1 hmem
    exact (published_first deployment.roundTrips hrun hnumber).trans (hsent number)
  obtain ⟨longest, hlongest, hall, hselect⟩ := exists_select_eq_of_interleaves
    (fun _ _ message hsame => Publishers.keep_congr message hsame)
    (fun _ _ => Publishers.keep_of_mem) hpublished (interleaves_published hrun)
  exact ⟨longest, hlongest, hall, (Forwarding.outputs_deduplicate hspaced).trans hselect⟩

/-- **Redundant publishers.**  Let every publisher be sent a prefix of one sequence of
messages, no message come back so late that the deduplication has forgotten its slot, and
the consumer never be outrun at a poll.  At any moment the update loop has applied the
first of the messages that the deduplication keeps of the sequence, no slot and kind twice.
When it and `main2` still run and nothing waits on the way, it has applied all that it
keeps of a prefix that contains what each publisher has published.  So a publisher that
stops changes nothing as long as another one goes on. -/
theorem publishers_redundant (hrun : runSystem deployment events = .ok system)
    {messages : List GeyserMessage}
    (hsent : ∀ number, sentTo number (relayEvents events) <+: messages)
    (hspaced : Admitted Forwarding.spaced
      (messagesIn deployment.deserialize system.relay.stream.entries))
    (hoverrun : ¬ PolledOutrun deployment.redis deployment.serialize deployment.deserialize
      deployment.publishers (relayEvents events)) :
    (∃ applied, LoopState.runUpdateLoop applied = .ok system.hub.server.state ∧
      applied <+: select Forwarding.keep messages ∧
      (applied.map Forwarding.kindOf).Nodup) ∧
    (0 < deployment.redis.streamMaxlen.toNat → system.main = .running →
      system.hub.server.phase ≠ .ended → Drained system →
      ∃ longest, longest <+: messages ∧
        (∀ published ∈ system.relay.published deployment.deserialize, published <+: longest) ∧
        LoopState.runUpdateLoop (select Forwarding.keep longest) =
          .ok system.hub.server.state) := by
  obtain ⟨hubEvents, handed, hlinked⟩ := linked_of_run hrun
  obtain ⟨longest, hlongest, hall, hselect⟩ :=
    exists_outputs_eq_select hlinked.relay hsent hspaced
  refine ⟨?_, fun hmaxlen hmain hphase hdrained => ⟨longest, hlongest, hall, ?_⟩⟩
  · obtain ⟨applied, hstate, -, happlied⟩ := exists_applied_of_run hrun
    obtain ⟨position, -, hat⟩ := served_of_run deployment.roundTrips hlinked.relay
    have hlossless := (lossless_iff_of_run deployment.roundTrips hlinked.relay).2 hoverrun
    have hfirst := (happlied.trans (outputs_mono (messagesIn_mono
      (delivered_prefix_of_lossless hat hlossless)))).trans
        (hselect ▸ select_isPrefix Forwarding.keep hlongest)
    refine ⟨applied, hstate, hfirst, ?_⟩
    exact (Forwarding.nodup_forwarded messages).sublist (hfirst.sublist.map _)
  · rw [← hselect]
    exact applied_all_of_drained hrun hmaxlen hoverrun hmain hphase hdrained

theorem publishers_redundant_handedOn :
    ∃ system applied, runSystem sampleDeployment handedOn = .ok system ∧
      LoopState.runUpdateLoop applied = .ok system.hub.server.state ∧
      applied <+: select Forwarding.keep twoStatuses := by
  obtain ⟨system, hrun, -, -, -, hmessages, hoverrun⟩ := exists_handedOn
  have hsent : ∀ number, sentTo number (relayEvents handedOn) <+: twoStatuses := by
    intro number
    rw [relayEvents_handedOn]
    match number with
    | 0 => decide
    | 1 => decide
    | _ + 2 => exact List.nil_prefix
  have hspaced : Admitted Forwarding.spaced (messagesIn sampleDeployment.deserialize
      system.relay.stream.entries) := by
    change Admitted Forwarding.spaced (messagesIn readStatus _)
    rw [hmessages]
    exact Forwarding.spaced_of_few (by decide)
  obtain ⟨⟨applied, hstate, happlied, -⟩, -⟩ :=
    publishers_redundant hrun hsent hspaced hoverrun
  exact ⟨system, applied, hrun, hstate, happlied⟩

end Solfees.Backend
