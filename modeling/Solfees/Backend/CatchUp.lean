import Solfees.Backend.EndToEnd

/-!
# Catching up

However far the consumer, `main2` and the update loop have fallen behind, their own steps
are enough to bring everything that is in the stream to the stores.  Nothing that waits
on the way needs anybody outside to move it.
-/

namespace Solfees.Backend

open Solfees.Actors
open Solfees.LatestBlockhash (LatestBlockhashStorage)
open Solfees.Message
open Solfees.Run
open Solfees.RpcServer
open Solfees.Sockets
open Solfees.Subscribe
open Solfees.Transport
open Solfees.Trimming
open Solfees.UpdateLoop

variable {Params : Type} {deployment : Deployment Params} {start system : System Params}
  {events : List (SystemEvent Params)}

/-- A poll, a message that `main2` receives, or a step of the update loop. -/
inductive Own : SystemEvent Params → Prop
  | polled : Own (.relay .polled)
  | received : Own .received
  | turn : Own (.hub (.server .turn))

/-- Nobody has stopped: the consumer polls, `main2` is in its loop, and so is the update
loop, to which a sender is still there. -/
structure Live (system : System Params) : Prop where
  consumer : system.relay.consumer.running = true
  main : system.main = .running
  phase : system.hub.server.phase ≠ .ended
  connected : system.hub.server.connected = true

/-- The consumer has got all there was, and the next poll will not pass over anything. -/
def Current (relay : Relay) : Prop :=
  Reader.Lossless relay.stream relay.reader ∧ ¬ relay.Outrun

/-- What catching up leaves as it is. -/
structure CatchingUp (start system : System Params) : Prop where
  live : Live system
  stream : system.relay.stream = start.relay.stream
  current : Current start.relay → Current system.relay

/-! ## The polls -/

variable (deployment) in
theorem step_polled {relay : Relay} (hrunning : relay.consumer.running = true) :
    relay.step deployment.redis deployment.serialize deployment.deserialize .polled =
      .ok (relay.onReply deployment.redis deployment.deserialize
        (xread relay.stream relay.consumer.latestId)
        (xreadReply deployment.redis.streamKey
          (xread relay.stream relay.consumer.latestId))) := by
  rw [Relay.step, if_pos hrunning]

/-- A consumer that is current stays so through a poll that gets something. -/
theorem Current.take {relay next : Relay} {position : ℕ} (hcurrent : Current relay)
    (hat : Reader.At relay.stream position relay.reader)
    (htrimmed : relay.stream.trimmed ≤ relay.stream.entries.length)
    (hmore : relay.stream.read 5 relay.reader.cursor ≠ [])
    (hstream : next.stream = relay.stream) (hreader : next.reader = relay.readerAfter .polled) :
    Current next := by
  have htaken := (lossless_polled_iff hat htrimmed).2 hcurrent
  rw [Current, Relay.Outrun, hstream, hreader]
  refine ⟨htaken, fun houtrun => ?_⟩
  -- the position only moves on, so what is forgotten stays behind it
  have hbehind : relay.stream.trimmed ≤ position := by
    by_contra hforgotten
    exact hcurrent.2 ⟨hmore, (hat.exists_forgotten_iff htrimmed).2 hforgotten⟩
  refine ((hat.take hmore).exists_forgotten_iff htrimmed).1 houtrun.2 ?_
  omega

/-- A poll that gets something leaves less to poll. -/
theorem exists_polled (hrun : runSystem deployment events = .ok system)
    (h : CatchingUp start system)
    (hmore : xread system.relay.stream system.relay.consumer.latestId ≠ []) :
    ∃ next, system.step deployment (.relay .polled) = .ok next ∧ CatchingUp start next ∧
      (Reader.unread next.relay.stream next.relay.reader).length <
        (Reader.unread system.relay.stream system.relay.reader).length := by
  obtain ⟨hubEvents, handed, hlinked⟩ := linked_of_run hrun
  obtain ⟨position, hfed, hat⟩ := served_of_run deployment.roundTrips hlinked.relay
  have hstep := step_polled deployment h.live.consumer
  obtain ⟨hfed', hreader⟩ :=
    reader_of_relayed deployment.roundTrips hlinked.relay hfed hstep
  have hrunning := h.live.consumer
  rw [hfed.running] at hrunning
  have hrunning' := hfed'.running
  rw [failures_concat, hrunning] at hrunning'
  refine ⟨{ system with relay := _ }, by rw [System.step, hstep], ?_, ?_⟩
  · refine ⟨⟨hrunning'.2 rfl, h.live.main, h.live.phase, h.live.connected⟩, h.stream, ?_⟩
    exact fun hstart => (h.current hstart).take hat
      (retains_of_run hlinked.relay).trimmed_le_length hmore rfl hreader
  · rw [hreader]
    exact hat.unread_take hmore

/-! ## The messages that `main2` receives -/

/-- While the consumer runs it has sent messages only. -/
theorem exists_message_of_sent {relay : Relay} {relayed : List RelayEvent}
    (hfed : Fed deployment.deserialize relay.delivered (failures relayed) relay.consumer)
    (hrunning : relay.consumer.running = true) {received : ℕ}
    (hmore : received < relay.consumer.tx.length) :
    ∃ message, relay.consumer.tx[received]? = some (.ok message) := by
  obtain ⟨sent, hget⟩ : ∃ sent, relay.consumer.tx[received]? = some sent :=
    ⟨_, List.getElem?_eq_getElem hmore⟩
  have hsent := List.mem_of_getElem? hget
  rw [hfed.tx, hfed.running.1 hrunning, List.map_nil, List.append_nil] at hsent
  obtain ⟨message, -, rfl⟩ := List.mem_map.1 hsent
  exact ⟨message, hget⟩

variable (deployment) in
theorem exists_pushed (message : GeyserMessage) {hub : Hub Params}
    (hphase : hub.server.phase ≠ .ended) :
    ∃ next, hub.step deployment.setup (.server (.push (some message))) = .ok next ∧
      next.server.phase = hub.server.phase ∧
      next.server.connected = hub.server.connected := by
  rw [Hub.step, Actor.step, if_neg hphase]
  exact ⟨_, rfl, rfl, rfl⟩

theorem exists_received (hrun : runSystem deployment events = .ok system)
    (h : CatchingUp start system)
    (hmore : system.received < system.relay.consumer.tx.length) :
    ∃ next, system.step deployment .received = .ok next ∧ CatchingUp start next ∧
      next.relay = system.relay ∧ next.received = system.received + 1 := by
  obtain ⟨hubEvents, handed, hlinked⟩ := linked_of_run hrun
  obtain ⟨position, hfed, -⟩ := served_of_run deployment.roundTrips hlinked.relay
  obtain ⟨message, hmessage⟩ := exists_message_of_sent hfed h.live.consumer hmore
  obtain ⟨hub, hhub, hphase, hconnected⟩ :=
    exists_pushed deployment message h.live.phase
  refine ⟨⟨system.relay, hub, system.received + 1, .running⟩, ?_, ?_, rfl, rfl⟩
  · rw [System.step, if_pos h.live.main, System.onReceived, hmessage]
    dsimp only
    rw [System.send, if_neg h.live.phase, System.onHub]
    simp only [hhub]
  · refine ⟨⟨h.live.consumer, rfl, ?_, ?_⟩, h.stream, h.current⟩
    · exact hphase ▸ h.live.phase
    · exact hconnected.trans h.live.connected

/-! ## The steps of the update loop -/

/-- Blocks that no request can walk past. -/
def WalkableBlocks (messages : List GeyserMessage) : Prop :=
  ∀ block, .slot block ∈ messages → block.slot ≠ 0 ∧ block.height.toNat < 2 ^ 64 - 300

/-- What the update loop has applied was in the stream. -/
theorem exists_walkable_applied (hrun : runSystem deployment events = .ok system)
    (hblocks : WalkableBlocks
      (messagesIn deployment.deserialize system.relay.stream.entries)) :
    ∃ applied, LoopState.runUpdateLoop applied = .ok system.hub.server.state ∧
      WalkableBlocks applied := by
  obtain ⟨applied, hstate, -, happlied⟩ := exists_applied_of_run hrun
  obtain ⟨hubEvents, handed, hlinked⟩ := linked_of_run hrun
  obtain ⟨position, -, hat⟩ := served_of_run deployment.roundTrips hlinked.relay
  have hdelivered : (messagesIn deployment.deserialize system.relay.delivered).Sublist
      (messagesIn deployment.deserialize system.relay.stream.entries) :=
    (hat.sublist.trans (List.take_sublist _ _)).filterMap _
  exact ⟨applied, hstate, fun block hblock => hblocks block
    (hdelivered.subset (mem_of_mem_outputs (happlied.subset hblock)))⟩

theorem exists_turn (hrun : runSystem deployment events = .ok system)
    (hblocks : WalkableBlocks
      (messagesIn deployment.deserialize system.relay.stream.entries)) :
    ∃ server, system.hub.server.onTurn
      (service deployment.setup.rpc deployment.setup.requestQueueMax) = .ok server := by
  obtain ⟨applied, hstate, hwalkable⟩ := exists_walkable_applied hrun hblocks
  apply exists_onTurn
  · intro message messages hphase hmessages
    obtain ⟨next, hnext, -⟩ := Eviction.runUpdateLoop_ok (applied ++ [message])
    exact ⟨next, (run_concat_of_ok hstate message).symm.trans hnext⟩
  · intro ticket requests hphase hrequests
    exact exists_onRequests hwalkable hstate requests

/-- The next message that waits does not ask the update loop to end, while `main2` runs. -/
theorem exists_waiting (hrun : runSystem deployment events = .ok system)
    (hmain : system.main = .running) (hphase : system.hub.server.phase ≠ .ended)
    (hmore : system.hub.server.messages ≠ []) :
    ∃ message messages, system.hub.server.messages = some message :: messages := by
  obtain ⟨hubEvents, handed, hlinked⟩ := linked_of_run hrun
  obtain ⟨applied, -, happlied⟩ :=
    exists_applied (runServer_of_runHub hlinked.hub) hphase
  obtain ⟨first, messages, hmessages⟩ := List.exists_cons_of_ne_nil hmore
  have hfirst : first ∈ handed.map some := by
    rw [← (hlinked.running hmain).2, ← happlied, hmessages]
    simp
  obtain ⟨message, -, rfl⟩ := List.mem_map.1 hfirst
  exact ⟨message, messages, hmessages⟩

/-- Over blocks that no request can walk past, the update loop comes nearer to the last
message that waits. -/
theorem exists_turned (hrun : runSystem deployment events = .ok system)
    (h : CatchingUp start system)
    (hblocks : WalkableBlocks
      (messagesIn deployment.deserialize system.relay.stream.entries))
    (hmore : system.hub.server.messages ≠ []) :
    ∃ next, system.step deployment (.hub (.server .turn)) = .ok next ∧
      CatchingUp start next ∧ next.relay = system.relay ∧
      next.received = system.received ∧
      next.hub.server.stepsToDrain < system.hub.server.stepsToDrain := by
  obtain ⟨server, hserver⟩ := exists_turn hrun hblocks
  obtain ⟨message, messages, hmessages⟩ :=
    exists_waiting hrun h.live.main h.live.phase hmore
  obtain ⟨hphase, hconnected, hless⟩ :=
    (stepped_of_onTurn hserver).stepsToDrain h.live.phase h.live.connected hmessages
  have hhub : system.hub.step deployment.setup (.server .turn) =
      .ok { system.hub with server := server } := by
    rw [Hub.step, Actor.step, hserver]
    rfl
  refine ⟨{ system with hub := { system.hub with server := server } }, ?_,
    ⟨⟨h.live.consumer, h.live.main, hphase, hconnected⟩, h.stream, h.current⟩,
    rfl, rfl, hless⟩
  rw [System.step, System.onHub, hhub]
  rfl

/-! ## All the way -/

/-- The consumer has nothing left to poll. -/
theorem exists_all_polled (hrun : runSystem deployment events = .ok system)
    (h : CatchingUp start system) :
    ∃ more final, (∀ event ∈ more, Own event) ∧
      runSystem deployment (events ++ more) = .ok final ∧ CatchingUp start final ∧
      xread final.relay.stream final.relay.consumer.latestId = [] := by
  refine exists_run_to_goal (CatchingUp start)
    (fun system => xread system.relay.stream system.relay.consumer.latestId = [])
    (fun system => (Reader.unread system.relay.stream system.relay.reader).length) ?_ hrun h
  intro events system hrun h hmore
  obtain ⟨next, hstep, hnext, hless⟩ := exists_polled hrun h hmore
  exact ⟨_, next, .polled, hstep, hnext, hless⟩

/-- `main2` has nothing left to receive. -/
theorem exists_all_received (hrun : runSystem deployment events = .ok system)
    (h : CatchingUp start system) :
    ∃ more final, (∀ event ∈ more, Own event) ∧
      runSystem deployment (events ++ more) = .ok final ∧
      (CatchingUp start final ∧ final.relay = system.relay) ∧
      final.relay.consumer.tx.length ≤ final.received := by
  refine exists_run_to_goal (fun final => CatchingUp start final ∧ final.relay = system.relay)
    (fun final => final.relay.consumer.tx.length ≤ final.received)
    (fun final => final.relay.consumer.tx.length - final.received) ?_ hrun ⟨h, rfl⟩
  rintro events middle hrun ⟨h, hrelay⟩ hmore
  obtain ⟨next, hstep, hnext, hsame, hreceived⟩ := exists_received hrun h (not_le.1 hmore)
  refine ⟨_, next, .received, hstep, ⟨hnext, hsame.trans hrelay⟩, ?_⟩
  rw [hsame, hreceived]
  omega

/-- The update loop has no message left. -/
theorem exists_all_applied (hrun : runSystem deployment events = .ok system)
    (h : CatchingUp start system)
    (hblocks : WalkableBlocks
      (messagesIn deployment.deserialize start.relay.stream.entries)) :
    ∃ more final, (∀ event ∈ more, Own event) ∧
      runSystem deployment (events ++ more) = .ok final ∧
      (CatchingUp start final ∧ final.relay = system.relay ∧
        final.received = system.received) ∧
      final.hub.server.messages = [] := by
  refine exists_run_to_goal (fun final => CatchingUp start final ∧
      final.relay = system.relay ∧ final.received = system.received)
    (fun final => final.hub.server.messages = [])
    (fun final => final.hub.server.stepsToDrain) ?_ hrun ⟨h, rfl, rfl⟩
  rintro events middle hrun ⟨h, hrelay, hreceived⟩ hmore
  obtain ⟨next, hstep, hnext, hsame, hsame', hless⟩ :=
    exists_turned hrun h (h.stream.symm ▸ hblocks) hmore
  exact ⟨_, next, .turn, hstep, ⟨hnext, hsame.trans hrelay, hsame'.trans hreceived⟩, hless⟩

theorem received_le_of_run (hrun : runSystem deployment events = .ok system)
    (hmain : system.main = .running) :
    system.received ≤ system.relay.consumer.tx.length := by
  obtain ⟨hubEvents, handed, hlinked⟩ := linked_of_run hrun
  rw [← (hlinked.running hmain).1]
  simpa using hlinked.sent.length_le

/-- **Everything gets through.**  With walkable blocks and a stream that keeps at least one
entry, from every state in which nobody has stopped, polls, messages that `main2` receives
and steps of the update loop lead to one in which nothing waits between the stream and the
stores.  If the consumer had lost nothing, the stores are then those after every message of
the stream that the deduplication lets through. -/
theorem can_catch_up (hrun : runSystem deployment events = .ok system)
    (hmaxlen : 0 < deployment.redis.streamMaxlen.toNat) (hlive : Live system)
    (hblocks : WalkableBlocks
      (messagesIn deployment.deserialize system.relay.stream.entries)) :
    ∃ more final, (∀ event ∈ more, Own event) ∧
      runSystem deployment (events ++ more) = .ok final ∧ Live final ∧ Drained final ∧
      final.relay.stream = system.relay.stream ∧
      (Current system.relay →
        LoopState.runUpdateLoop (outputs Deduplication.deduplicate .init
          (messagesIn deployment.deserialize system.relay.stream.entries)) =
            .ok final.hub.server.state) := by
  obtain ⟨polls, polled, hpolls, hpolled, hcatching, hread⟩ :=
    exists_all_polled hrun ⟨hlive, rfl, id⟩
  obtain ⟨receives, received, hreceives, hreceived, ⟨hcatching, hrelay⟩, hall⟩ :=
    exists_all_received hpolled hcatching
  obtain ⟨turns, final, hturns, hfinal, ⟨hcatching, hrelay', hsame⟩, happlied⟩ :=
    exists_all_applied hreceived hcatching hblocks
  have hdrained : Drained final := by
    refine ⟨?_, ?_, happlied⟩
    · rw [hrelay', hrelay]
      exact hread
    · rw [hsame, hrelay']
      apply le_antisymm _ hall
      rw [← hsame, ← hrelay']
      exact received_le_of_run hfinal hcatching.live.main
  refine ⟨polls ++ (receives ++ turns), final, ?_, ?_, hcatching.live, hdrained,
    hcatching.stream, fun hcurrent => ?_⟩
  · intro event hmem
    rcases List.mem_append.1 hmem with hpoll | hmem
    · exact hpolls event hpoll
    · exact (List.mem_append.1 hmem).elim (hreceives event) (hturns event)
  · rw [← List.append_assoc, ← List.append_assoc]
    exact hfinal
  · obtain ⟨hubEvents, handed, hlinked⟩ := linked_of_run hfinal
    have hlossless :=
      (lossless_iff_of_run deployment.roundTrips hlinked.relay).1 (hcatching.current hcurrent).1
    rw [← hcatching.stream]
    exact applied_all_of_drained hfinal hmaxlen hlossless hcatching.live.main
      hcatching.live.phase hdrained

/-- Two publishers have published, and nobody has polled. -/
def unpolled : List (SystemEvent (List (List String))) :=
  (publish 0 (.status 5 .processed) 10 0 ++ publish 1 (.status 5 .processed) 10 0 ++
    publish 0 (.status 5 .confirmed) 11 0).map .relay

theorem can_catch_up_unpolled :
    ∃ more final, (∀ event ∈ more, Own event) ∧
      runSystem sampleDeployment (unpolled ++ more) = .ok final ∧ Drained final ∧
      LoopState.runUpdateLoop twoStatuses = .ok final.hub.server.state := by
  have hview : (runSystem sampleDeployment unpolled).toOption.map (fun system =>
      decide (system.relay.consumer.running = true ∧ system.main = .running ∧
        system.hub.server.phase ≠ .ended ∧ system.hub.server.connected = true ∧
        system.relay.stream.trimmed = 0)) = some true := by
    decide +kernel
  have hstream : (runSystem sampleDeployment unpolled).toOption.map (fun system =>
      messagesIn readStatus system.relay.stream.entries) =
      some [.status 5 .processed, .status 5 .processed, .status 5 .confirmed] := by
    decide +kernel
  obtain ⟨system, hrun, hview⟩ := exists_ok_of_view hview
  obtain ⟨_, hsame, hmessages⟩ := exists_ok_of_view hstream
  obtain rfl := Except.ok.inj (hrun.symm.trans hsame)
  obtain ⟨hconsumer, hmain, hphase, hconnected, htrimmed⟩ := of_decide_eq_true hview
  have hmessages' : messagesIn sampleDeployment.deserialize system.relay.stream.entries =
      [.status 5 .processed, .status 5 .processed, .status 5 .confirmed] := hmessages
  have hblocks : WalkableBlocks
      (messagesIn sampleDeployment.deserialize system.relay.stream.entries) := by
    rw [hmessages']
    exact fun block hblock => absurd hblock (by simp)
  have hcurrent : Current system.relay := by
    obtain ⟨hubEvents, handed, hlinked⟩ := linked_of_run hrun
    refine ⟨(lossless_iff_of_run roundTrips_status hlinked.relay).2 ?_, ?_⟩
    · rintro ⟨before, after, middle, hsplit, -⟩
      have hmem : RelayEvent.polled ∈ relayEvents unpolled := by
        rw [hsplit]
        simp
      simp [relayEvents, unpolled, publish, SystemEvent.relay?] at hmem
    · rintro ⟨-, entry, hentry, -⟩
      rw [htrimmed] at hentry
      cases hentry
  obtain ⟨more, final, hown, hfinal, -, hdrained, -, hstate⟩ := can_catch_up hrun (by decide)
    ⟨hconsumer, hmain, hphase, hconnected⟩ hblocks
  refine ⟨more, final, hown, hfinal, hdrained, ?_⟩
  have hkept : outputs Deduplication.deduplicate .init
      [.status 5 .processed, .status 5 .processed, .status 5 .confirmed] = twoStatuses := by
    decide
  rw [← hstate hcurrent, hmessages', hkept]

end Solfees.Backend
