import Solfees.Rpc.Hub

/-!
# Runs of the server with its sockets

Each open connection has been notified of one gapless part of the broadcast, and it
is closed for lagging exactly if the broadcast has outrun it by more than the
channel keeps.
-/

namespace Solfees.Sockets

open Solfees.BatchResponses
open Solfees.Broadcast
open Solfees.Fees
open Solfees.Json
open Solfees.LatestBlockhash
open Solfees.Message
open Solfees.OnRequest
open Solfees.RpcServer
open Solfees.Run
open Solfees.SnapshotReplay
open Solfees.SubscriptionFrames
open Solfees.UpdateLoop
open Solfees.WebSocket

variable {Params : Type} {setup : Setup Params} {hub next : Hub Params}
  {events : List (HubEvent Params)}

/-! ## The broadcast only grows -/

theorem streams_of_onMessage {state after : LoopState} {message : GeyserMessage}
    (h : state.onMessage message = .ok after) :
    after.streams = state.streams ++ [toStreamsUpdate message] := by
  cases message with
  | status slot commitment =>
      rw [LoopState.onMessage] at h
      cases hupdate : state.latestBlockhashStorage.updateCommitment slot commitment with
      | error fault =>
          rw [hupdate] at h
          cases h
      | ok storage =>
          rw [hupdate] at h
          obtain rfl := Except.ok.inj h
          rfl
  | slot block =>
      simp only [LoopState.onMessage] at h
      split at h
      · obtain rfl := Except.ok.inj h
        rfl
      · cases h

theorem streams_of_stepped {server after : Server Params} {event : ServerEvent Params}
    (hstep : Actors.Stepped (service setup.rpc setup.requestQueueMax) server event after) :
    server.state.streams <+: after.state.streams := by
  cases hstep with
  | applied message messages state hphase hmessages happly =>
      change server.state.streams <+: state.streams
      rw [streams_of_onMessage happly]
      exact List.prefix_append _ _
  | _ => exact List.prefix_rfl

theorem log_prefix_of_step {event : HubEvent Params} (hstep : hub.step setup event = .ok next) :
    hub.log <+: next.log := by
  rcases step_server hstep with ⟨hserver, -⟩ | ⟨serverEvent, -, hserver⟩
  · rw [Hub.log, Hub.log, hserver]
  · exact streams_of_stepped (Actors.stepped_of_step hserver)

/-! ## What a step does to a socket -/

/-- A socket is left alone by an event, or the event is a turn of it. -/
def Moves (setup : Setup Params) (log : List StreamsUpdateMessage)
    (event : HubEvent Params) (number : ℕ) (old new : Socket) : Prop :=
  new = old ∨
    ∃ feedOk arm, event = .socket number feedOk arm ∧ new = old.onArm setup log feedOk arm

theorem moves_of_step {event : HubEvent Params} (hstep : hub.step setup event = .ok next)
    {number : ℕ} {old : Socket} (hold : hub.sockets[number]? = some old) :
    ∃ new, next.sockets[number]? = some new ∧ Moves setup hub.log event number old new := by
  cases event with
  | server event =>
      obtain ⟨server, -, rfl⟩ := exists_server_step hstep
      exact ⟨old, hold, Or.inl rfl⟩
  | upgrade mode =>
      rw [Hub.step] at hstep
      split at hstep
      · cases hstep
        refine ⟨old, ?_, Or.inl rfl⟩
        rw [List.getElem?_append_left (List.getElem?_eq_some_iff.1 hold).1]
        exact hold
      · cases hstep
        exact ⟨old, hold, Or.inl rfl⟩
  | socket other feedOk arm =>
      cases hstep
      rw [List.getElem?_modify, hold]
      by_cases hother : other = number
      · exact ⟨_, by simp [hother], Or.inr ⟨feedOk, arm, by rw [hother], rfl⟩⟩
      · exact ⟨old, by simp [hother], Or.inl rfl⟩

/-- A socket was there before, or starts at the end of the broadcast. -/
theorem socket_of_step {event : HubEvent Params} (hstep : hub.step setup event = .ok next)
    {number : ℕ} {new : Socket} (hnew : next.sockets[number]? = some new) :
    (∃ old, hub.sockets[number]? = some old ∧ Moves setup hub.log event number old new) ∨
      ∃ frontend, new = .subscribe frontend hub.log := by
  cases hold : hub.sockets[number]? with
  | some old =>
      obtain ⟨new', hnew', hmoves⟩ := moves_of_step hstep hold
      obtain rfl := Option.some.inj (hnew.symm.trans hnew')
      exact Or.inl ⟨old, rfl, hmoves⟩
  | none =>
      cases event with
      | server event =>
          obtain ⟨server, -, rfl⟩ := exists_server_step hstep
          cases hold.symm.trans hnew
      | upgrade mode =>
          rw [Hub.step] at hstep
          split at hstep
          next frontend _ =>
            cases hstep
            refine Or.inr ⟨frontend, ?_⟩
            rw [List.getElem?_append_right (List.getElem?_eq_none_iff.1 hold),
              List.getElem?_singleton] at hnew
            split at hnew
            · exact (Option.some.inj hnew).symm
            · cases hnew
          · cases hstep
            cases hold.symm.trans hnew
      | socket other feedOk arm =>
          cases hstep
          rw [List.getElem?_modify, hold] at hnew
          cases hnew

/-! ## A socket reads on -/

/-- The updates that the turns have taken. -/
def updatesOf (turns : List Turn) : List StreamsUpdateMessage :=
  (turns.map Turn.event).filterMap updateOf

theorem updatesOf_concat (turns : List Turn) (turn : Turn) :
    updatesOf (turns ++ [turn]) = updatesOf turns ++ (updateOf turn.event).toList := by
  rw [updatesOf, List.map_append, List.filterMap_append]
  cases hupdate : updateOf turn.event <;> simp [updatesOf, hupdate]

/-- From a socket as it was, the same socket has made further turns, and with them it
has read the broadcast from its position on. -/
structure Follows (setup : Setup Params) (log : List StreamsUpdateMessage)
    (base socket : Socket) : Prop where
  frontend : socket.frontend = base.frontend
  run : run (Connection.turn setup.codec socket.frontend) .init socket.turns = socket.status
  read : ∃ more stop, socket.turns = base.turns ++ more ∧ base.position ≤ stop ∧
    stop ≤ log.length ∧ updatesOf more = slice log base.position stop ∧
    ∀ connection, socket.status = .ok connection → stop = socket.position

theorem Follows.refl {log : List StreamsUpdateMessage} {socket : Socket}
    (hposition : socket.position ≤ log.length)
    (hrun : Run.run (Connection.turn setup.codec socket.frontend) .init socket.turns =
      socket.status) : Follows setup log socket socket where
  frontend := rfl
  run := hrun
  read := ⟨[], socket.position, (List.append_nil _).symm, le_rfl, hposition,
    (slice_self _ _).symm, fun _ _ => rfl⟩

theorem Follows.grow {log log' : List StreamsUpdateMessage} {base socket : Socket}
    (h : Follows setup log base socket) (hlog : log <+: log') :
    Follows setup log' base socket where
  frontend := h.frontend
  run := h.run
  read := by
    obtain ⟨more, stop, hturns, hle, hstop, hread, hopen⟩ := h.read
    refine ⟨more, stop, hturns, hle, hstop.trans hlog.length_le, ?_, hopen⟩
    rw [hread, slice_of_prefix hlog hstop]

/-- A turn that takes an error of the receiver leaves the loop. -/
theorem turn_error (codec : Codec Params) (frontend : Bool) (connection : Connection)
    (feedOk : Bool) (error : RecvError) (after : Connection) :
    connection.turn codec frontend ⟨feedOk, .updated (.error error)⟩ ≠ .ok after := by
  intro hturn
  rw [Connection.turn] at hturn
  cases hfed : connection.feedPending feedOk with
  | error exit =>
      rw [hfed] at hturn
      cases hturn
  | ok fed =>
      rw [hfed] at hturn
      cases error <;> cases hturn

/-- An open socket that makes a turn. -/
theorem Follows.take {log : List StreamsUpdateMessage} {base socket : Socket}
    (h : Follows setup log base socket) {connection : Connection}
    (hopen : socket.status = .ok connection) (turn : Turn) (position : ℕ)
    (hread : ∀ start ≤ socket.position,
      slice log start socket.position ++ (updateOf turn.event).toList =
        slice log start position ∧ start ≤ position ∧ position ≤ log.length) :
    Follows setup log base
      { socket.take setup.codec connection turn with position := position } where
  frontend := h.frontend
  run := (run_concat_of_ok (h.run.trans hopen) turn)
  read := by
    obtain ⟨more, stop, hturns, hle, -, hmore, hstop⟩ := h.read
    obtain rfl := hstop connection hopen
    obtain ⟨hslice, hstart, hposition⟩ := hread base.position hle
    refine ⟨more ++ [turn], position, ?_, hstart, hposition, ?_, fun _ _ => rfl⟩
    · rw [Socket.take, hturns, List.append_assoc]
    · rw [updatesOf_concat, hmore, hslice]

theorem Follows.onArm {log : List StreamsUpdateMessage} {base socket : Socket}
    (h : Follows setup log base socket) (feedOk : Bool) (arm : Arm) :
    Follows setup log base (socket.onArm setup log feedOk arm) := by
  rw [Socket.onArm]
  cases hstatus : socket.status with
  | error exit => exact h
  | ok connection =>
      have hposition : socket.position ≤ log.length := by
        obtain ⟨more, stop, -, -, hstop, -, hopen⟩ := h.read
        rw [← hopen connection hstatus]
        exact hstop
      have hquiet (turn : Turn) (hturn : updateOf turn.event = none) :
          Follows setup log base (socket.take setup.codec connection turn) :=
        h.take hstatus turn socket.position fun start hstart =>
          ⟨by simp [hturn], hstart, hposition⟩
      cases arm with
      | flush ok => exact hquiet ⟨feedOk, .flushed ok⟩ rfl
      | receive message => exact hquiet ⟨feedOk, .received message⟩ rfl
      | update =>
          cases hrecv : recv setup.capacity log false socket.position with
          | none => exact h
          | some got =>
              obtain ⟨result, position⟩ := got
              cases result with
              | ok item =>
                  obtain ⟨-, hitem, rfl⟩ := recv_eq_ok_iff.1 hrecv
                  refine h.take hstatus ⟨feedOk, .updated (.ok item)⟩ _ fun start hstart =>
                    ⟨?_, hstart.trans (Nat.le_succ _), ?_⟩
                  · rw [slice_succ hstart hitem]
                    rfl
                  · exact (List.getElem?_eq_some_iff.1 hitem).1
              | error error =>
                  have hleft := hquiet ⟨feedOk, .updated (.error error)⟩ rfl
                  refine ⟨hleft.frontend, hleft.run, ?_⟩
                  obtain ⟨more, stop, hturns, hle, hstop, hread, -⟩ := hleft.read
                  exact ⟨more, stop, hturns, hle, hstop, hread, fun after hafter =>
                    absurd hafter (turn_error _ _ _ _ _ _)⟩

theorem Follows.moves {log : List StreamsUpdateMessage} {base old new : Socket}
    (h : Follows setup log base old) {event : HubEvent Params} {number : ℕ}
    (hmoves : Moves setup log event number old new) : Follows setup log base new := by
  rcases hmoves with rfl | ⟨feedOk, arm, -, rfl⟩
  · exact h
  · exact h.onArm feedOk arm

/-- Every socket has read the broadcast from where it subscribed. -/
theorem exists_follows (hrun : runHub setup events = .ok hub) {number : ℕ} {socket : Socket}
    (hsocket : hub.sockets[number]? = some socket) :
    ∃ base, base.turns = [] ∧ Follows setup hub.log base socket := by
  refine run_invariant_of_ok (fun _ hub => ∀ number socket, hub.sockets[number]? = some socket →
    ∃ base : Socket, base.turns = [] ∧ Follows setup hub.log base socket) ?_ ?_ hrun number
    socket hsocket
  · intro number socket hsocket
    cases hsocket
  · intro before middle event after hbefore hstep number new hnew
    rcases socket_of_step hstep hnew with ⟨old, hold, hmoves⟩ | ⟨frontend, rfl⟩
    · obtain ⟨base, hturns, hread⟩ := hbefore number old hold
      exact ⟨base, hturns, (hread.moves hmoves).grow (log_prefix_of_step hstep)⟩
    · exact ⟨_, rfl, (Follows.refl le_rfl rfl).grow (log_prefix_of_step hstep)⟩

/-! ## What a socket is notified of -/

/-- The notified updates of an open socket end at its position. -/
theorem exists_first {base socket : Socket} (hturns : base.turns = [])
    (hread : Follows setup hub.log base socket) {connection : Connection}
    (hopen : socket.status = .ok connection) :
    ∃ first, first ≤ socket.position ∧ socket.position ≤ hub.log.length ∧
      notified setup.codec socket.frontend (socket.turns.map Turn.event) =
        slice hub.log first socket.position := by
  obtain ⟨more, stop, hmore, hle, hstop, hslice, hposition⟩ := hread.read
  obtain rfl := hposition connection hopen
  rw [hturns, List.nil_append] at hmore
  obtain ⟨skipped, hskipped, -⟩ :=
    exists_skipped setup.codec socket.frontend (socket.turns.map Turn.event)
  rw [← hmore] at hslice
  obtain ⟨hfirst, hnotified⟩ :=
    eq_slice_of_append hstop hle (hslice.symm.trans hskipped)
  exact ⟨base.position + skipped.length, hfirst, hstop, hnotified⟩

/-- **An open socket has missed nothing.**  Whatever else happens on the server and on
the other connections, the updates that an open connection has been notified of are a
gapless part of the broadcast that ends at its position, and the frames that it was fed,
with the one that waits, are those that its events call for. -/
theorem open_socket_gapless (hrun : runHub setup events = .ok hub) {number : ℕ}
    {socket : Socket} (hsocket : hub.sockets[number]? = some socket)
    {connection : Connection} (hopen : socket.status = .ok connection) :
    (∃ first, first ≤ socket.position ∧ socket.position ≤ hub.log.length ∧
      notified setup.codec socket.frontend (socket.turns.map Turn.event) =
        slice hub.log first socket.position) ∧
    connection.fed ++ connection.websocketTxMessage.toList =
      emissions (frameFor setup.codec socket.frontend) (socket.turns.map Turn.event) := by
  obtain ⟨base, hturns, hread⟩ := exists_follows hrun hsocket
  exact ⟨exists_first hturns hread hopen,
    (served_of_run (hread.run.trans hopen)).frames⟩

/-- A channel of two updates, and one frontend client. -/
def sampleSetup : Setup (List (List String)) where
  rpc := sampleRpc
  requestQueueMax := 1
  streamsChannelCapacity := 2
  codec := {
    fromStr := fun text =>
      if text = subscribeText [] [] 1 then some ⟨some .v2, "SlotsSubscribe", [], .num 1⟩
      else none
    parse := fun _ => .ok .default
    pubkey := sampleRpc.parsers.pubkey
    toString := outputText }

/-- The client subscribes before the first block and its status are broadcast. -/
def subscribing : List (HubEvent (List (List String))) :=
  [.upgrade .solfeesFrontend,
    .socket 0 true (.receive (some (some (.text (subscribeText [] [] 1))))),
    .server (.push (some (.slot (.bare 6 5 9 1)))), .server .turn,
    .server (.push (some (.status 6 .finalized))), .server .turn]

/-- The call for a snapshot with a filter. -/
def snapshotCall (jsonrpc : Option JsonrpcVersion) (params : Params) (id : JsonrpcId) :
    HttpCall Params :=
  ⟨.solfeesFrontend, .single (.methodCall jsonrpc "getRecentPrioritizationFees" params id)⟩

/-- The client asks for the slots, and reads both updates while it waits. -/
def catchingUp : List (HubEvent (List (List String))) :=
  [.server (.call (snapshotCall (some .v2) [] (.num 2))), .socket 0 true .update,
    .server .turn, .server .turn, .server .turn, .server .turn, .socket 0 true .update,
    .server (.receive 0)]

/-- Another status is broadcast before the client reads. -/
def fallingBehind : List (HubEvent (List (List String))) :=
  [.server (.push (some (.status 6 .finalized))), .server .turn, .server .turn,
    .socket 0 true .update]

/-- The length of the broadcast, and which sockets are open and at which positions. -/
def positions (hub : Hub Params) : ℕ × List (Bool × ℕ) :=
  (hub.log.length, hub.sockets.map fun socket => (socket.status.isOk, socket.position))

theorem exists_socket_of_positions {number length position : ℕ} {opened : Bool}
    {all : List (Bool × ℕ)} (h : positions hub = (length, all))
    (hall : all[number]? = some (opened, position)) :
    hub.log.length = length ∧ ∃ socket, hub.sockets[number]? = some socket ∧
      socket.status.isOk = opened ∧ socket.position = position := by
  obtain ⟨hlength, rfl⟩ := Prod.mk.inj h
  rw [List.getElem?_map, Option.map_eq_some_iff] at hall
  obtain ⟨socket, hsocket, hview⟩ := hall
  obtain ⟨hopened, hposition⟩ := Prod.mk.inj hview
  exact ⟨hlength, socket, hsocket, hopened, hposition⟩

theorem exists_of_isOk {socket : Socket} (h : socket.status.isOk = true) :
    ∃ connection, socket.status = .ok connection := by
  cases hstatus : socket.status with
  | ok connection => exact ⟨connection, rfl⟩
  | error exit =>
      rw [hstatus] at h
      cases h

/-- The block of slot 6 as the client is told of it. -/
def sampleSlotOutput : SlotOutput where
  leader := none
  slot := 6
  commitment := .processed
  hash := 1
  time := 0
  height := 9
  totalTransactionsFiltered := 0
  totalTransactionsVote := 0
  totalTransactions := 0
  feeAverage := .zero
  feeLevels := []
  totalFee := 0
  totalUnitsConsumed := 0

/-- The response, the block and its status. -/
def toldAnswers : List Answer :=
  [.output (.success (some .v2) .subscribed (.num 1)),
    .output (.success none (.frontend (.slot sampleSlotOutput)) (.num 1)),
    .output (.success none (.frontend (.status 6 .finalized)) (.num 1))]

/-- What the connections get for their events. -/
def answersOf (setup : Setup Params) (hub : Hub Params) : List (List Answer) :=
  hub.sockets.map fun socket =>
    emissions (answerFor setup.codec socket.frontend) (socket.turns.map Turn.event)

theorem emissions_of_answersOf {answers : List (List Answer)}
    (h : answersOf setup hub = answers) {number : ℕ} {socket : Socket}
    (hsocket : hub.sockets[number]? = some socket) {own : List Answer}
    (hown : answers[number]? = some own) :
    emissions (answerFor setup.codec socket.frontend) (socket.turns.map Turn.event) = own := by
  rw [← h, answersOf, List.getElem?_map, hsocket] at hown
  exact Option.some.inj hown

theorem answers_catchingUp :
    (runHub sampleSetup (subscribing ++ catchingUp)).toOption.map (answersOf sampleSetup) =
      some [toldAnswers] := by
  decide +kernel

theorem open_socket_gapless_catchingUp :
    ∃ hub socket connection first, runHub sampleSetup (subscribing ++ catchingUp) = .ok hub ∧
      hub.sockets[0]? = some socket ∧ socket.status = .ok connection ∧
      notified sampleSetup.codec socket.frontend (socket.turns.map Turn.event) =
        slice hub.log first 2 ∧
      connection.fed ++ connection.websocketTxMessage.toList =
        toldAnswers.map (Answer.frame sampleSetup.codec) := by
  have hview : (runHub sampleSetup (subscribing ++ catchingUp)).toOption.map positions =
      some (2, [(true, 2)]) := by
    decide +kernel
  obtain ⟨hub, hrun, hview⟩ := exists_ok_of_view hview
  obtain ⟨hub', hrun', hanswers⟩ := exists_ok_of_view answers_catchingUp
  obtain rfl := Except.ok.inj (hrun.symm.trans hrun')
  obtain ⟨-, socket, hsocket, hopened, hposition⟩ :=
    exists_socket_of_positions hview (show [(true, 2)][0]? = some (true, 2) from rfl)
  obtain ⟨connection, hopen⟩ := exists_of_isOk hopened
  obtain ⟨⟨first, -, -, hnotified⟩, hframes⟩ := open_socket_gapless hrun hsocket hopen
  rw [hposition] at hnotified
  rw [emissions_frameFor, emissions_of_answersOf hanswers hsocket rfl] at hframes
  exact ⟨hub, socket, connection, first, hrun, hsocket, hopen, hnotified, hframes⟩

/-! ## Lagging -/

/-- The reasons for which `on_websocket` closes a connection on account of a frame. -/
def frameReasons : List String :=
  ["received invalid binary message", "received unsupported message",
    "received invalid message", "unknown subscription method"]

/-- A frame is no ground for a close, or one of those. -/
def OfFrame (exit : Exit) : Prop :=
  exit.closeReason = none ∨
    ∃ reason ∈ frameReasons, exit.closeReason = some (some reason)

theorem closeReason_of_leave {connection : Connection}
    {closeReason : Option (Option String)} {exit : Exit}
    (h : connection.leave closeReason = .error exit) : exit.closeReason = closeReason := by
  rw [← Except.error.inj h]

theorem OfFrame.of_leave {connection : Connection} {reason : String} {exit : Exit}
    (h : connection.leave (some (some reason)) = .error exit)
    (hreason : reason ∈ frameReasons) : OfFrame exit :=
  Or.inr ⟨reason, hreason, closeReason_of_leave h⟩

theorem OfFrame.not_lagged {exit : Exit} (h : OfFrame exit) :
    exit.closeReason ≠ some (some "subscription lagged") ∧ exit.closeReason ≠ some none := by
  rcases h with hnone | ⟨reason, hreason, hsome⟩
  · simp [hnone]
  · rw [hsome]
    refine ⟨?_, by simp⟩
    intro hlagged
    obtain rfl := Option.some.inj (Option.some.inj hlagged)
    exact absurd hreason (by decide)

theorem ofFrame_of_onText {codec : Codec Params} {connection : Connection}
    {message : String} {exit : Exit} (h : connection.onText codec message = .error exit) :
    OfFrame exit := by
  rw [Connection.onText] at h
  split at h
  · exact .of_leave h (by decide)
  · split at h
    · cases h
    · exact .of_leave h (by decide)

theorem ofFrame_of_onReceived {codec : Codec Params} {connection : Connection}
    {message : Option (Option WebSocketMessage)} {exit : Exit}
    (h : connection.onReceived codec message = .error exit) : OfFrame exit := by
  rw [Connection.onReceived.eq_def] at h
  split at h
  · exact ofFrame_of_onText h
  · split at h
    · exact ofFrame_of_onText h
    · exact .of_leave h (by decide)
  · cases h
  · cases h
  · exact Or.inl (closeReason_of_leave h)
  · exact .of_leave h (by decide)
  · exact Or.inl (closeReason_of_leave h)
  · exact Or.inl (closeReason_of_leave h)

/-- A turn that leaves the loop does so for what its event brought, unless the sink
failed. -/
theorem turn_exit {codec : Codec Params} {frontend : Bool} {connection : Connection}
    {turn : Turn} {exit : Exit} (h : connection.turn codec frontend turn = .error exit) :
    OfFrame exit ∨
      (connection.websocketTxMessage.isSome → turn.feedOk = true) ∧
        ∃ error, turn.event = .updated (.error error) ∧
          exit.closeReason =
            match error with
            | .closed => some none
            | .lagged _ => some (some "subscription lagged") := by
  rw [Connection.turn] at h
  cases hfed : connection.feedPending turn.feedOk with
  | error left =>
      rw [hfed] at h
      obtain rfl : left = exit := Except.error.inj h
      rw [Connection.feedPending] at hfed
      split at hfed
      · cases hfed
      · split at hfed
        · cases hfed
        · exact Or.inl (Or.inl (closeReason_of_leave hfed))
  | ok fed =>
      have htaken : connection.websocketTxMessage.isSome → turn.feedOk = true := by
        intro hwaiting
        rw [Connection.feedPending] at hfed
        split at hfed
        next hnone =>
          rw [hnone] at hwaiting
          cases hwaiting
        next =>
          split at hfed
          next hok => exact hok
          next => cases hfed
      rw [hfed] at h
      change fed.onEvent codec frontend turn.event = .error exit at h
      cases hevent : turn.event with
      | flushed ok =>
          rw [hevent] at h
          change fed.onFlushed ok = .error exit at h
          rw [Connection.onFlushed] at h
          split at h
          · split at h
            · cases h
            · exact Or.inl (Or.inl (closeReason_of_leave h))
          · cases h
      | received message =>
          rw [hevent] at h
          exact Or.inl (ofFrame_of_onReceived h)
      | updated result =>
          rw [hevent] at h
          cases result with
          | ok update =>
              change fed.onUpdated codec frontend (.ok update) = .error exit at h
              rw [Connection.onUpdated] at h
              split at h <;> cases h
          | error error =>
              refine Or.inr ⟨htaken, error, rfl, ?_⟩
              cases error <;> exact closeReason_of_leave h

/-- A turn that is told that items were missed closes the connection. -/
theorem turn_lagged (codec : Codec Params) (frontend : Bool) {connection : Connection}
    {feedOk : Bool} (hfeed : connection.websocketTxMessage.isSome → feedOk = true)
    (skipped : ℕ) : ∃ exit,
      connection.turn codec frontend ⟨feedOk, .updated (.error (.lagged skipped))⟩ =
          .error exit ∧
        exit.closeReason = some (some "subscription lagged") := by
  rw [Connection.turn, Connection.feedPending]
  cases hwaiting : connection.websocketTxMessage with
  | none => exact ⟨_, rfl, rfl⟩
  | some message =>
      rw [hfeed (by rw [hwaiting]; rfl)]
      exact ⟨_, rfl, rfl⟩

/-- The connection was closed because the broadcast had outrun it. -/
def Socket.Lagged (socket : Socket) : Prop :=
  ∃ exit, socket.status = .error exit ∧
    exit.closeReason = some (some "subscription lagged")

/-- The next update of an open connection is overwritten, and the sink takes the message
that waits, if there is one. -/
def Socket.Outrun (setup : Setup Params) (log : List StreamsUpdateMessage)
    (socket : Socket) (feedOk : Bool) : Prop :=
  ∃ connection, socket.status = .ok connection ∧
    (connection.websocketTxMessage.isSome → feedOk = true) ∧
    socket.position + setup.capacity < log.length

theorem onArm_of_error {log : List StreamsUpdateMessage} {socket : Socket} {exit : Exit}
    (hclosed : socket.status = .error exit) (feedOk : Bool) (arm : Arm) :
    socket.onArm setup log feedOk arm = socket := by
  rw [Socket.onArm, hclosed]

/-- How the turn of an open connection closes it. -/
theorem exit_of_onArm {log : List StreamsUpdateMessage} {socket : Socket}
    {connection : Connection} (hopen : socket.status = .ok connection) {feedOk : Bool}
    {arm : Arm} {exit : Exit}
    (h : (socket.onArm setup log feedOk arm).status = .error exit) :
    OfFrame exit ∨ exit.closeReason = some (some "subscription lagged") ∧
      arm = .update ∧ socket.Outrun setup log feedOk := by
  rw [Socket.onArm, hopen] at h
  cases arm with
  | flush ok =>
      rcases turn_exit h with hframe | ⟨-, error, hevent, -⟩
      · exact Or.inl hframe
      · cases hevent
  | receive message =>
      rcases turn_exit h with hframe | ⟨-, error, hevent, -⟩
      · exact Or.inl hframe
      · cases hevent
  | update =>
      cases hrecv : recv setup.capacity log false socket.position with
      | none =>
          simp only [hrecv, hopen] at h
          cases h
      | some got =>
          obtain ⟨result, position⟩ := got
          simp only [hrecv] at h
          rcases turn_exit h with hframe | ⟨hfeed, error, hevent, hreason⟩
          · exact Or.inl hframe
          · obtain rfl : result = .error error := Event.updated.inj hevent
            cases error with
            | closed => exact absurd hrecv recv_ne_closed
            | lagged skipped =>
                exact Or.inr ⟨hreason, rfl, connection, hopen, hfeed,
                  (recv_eq_lagged_iff.1 hrecv).1⟩

/-- An open connection that the broadcast has outrun is closed when it looks for the next
update. -/
theorem lagged_of_outrun {log : List StreamsUpdateMessage} {socket : Socket} {feedOk : Bool}
    (h : socket.Outrun setup log feedOk) :
    (socket.onArm setup log feedOk .update).Lagged := by
  obtain ⟨connection, hopen, hfeed, houtrun⟩ := h
  have hrecv : recv setup.capacity log false socket.position = some _ :=
    recv_eq_lagged_iff.2 ⟨houtrun, rfl, rfl⟩
  simp only [Socket.onArm, hopen, hrecv]
  exact turn_lagged setup.codec socket.frontend hfeed _

/-- A closed connection stays as it is. -/
theorem closed_of_run {number : ℕ} {socket : Socket}
    (hsocket : hub.sockets[number]? = some socket) {exit : Exit}
    (hclosed : socket.status = .error exit)
    (hrun : run (Hub.step setup) hub events = .ok next) :
    next.sockets[number]? = some socket := by
  refine run_invariant_of_ok (fun _ (next : Hub Params) => next.sockets[number]? = some socket)
    hsocket ?_ hrun
  intro before middle event after hold hstep
  obtain ⟨new, hnew, hmoves⟩ := moves_of_step hstep hold
  rcases hmoves with rfl | ⟨feedOk, arm, -, rfl⟩
  · exact hnew
  · rwa [onArm_of_error hclosed] at hnew

/-- The look for an update at which the connection had been outrun. -/
def OutrunAt (setup : Setup Params) (events : List (HubEvent Params)) (number : ℕ) : Prop :=
  ∃ before feedOk after middle old,
    events = before ++ .socket number feedOk .update :: after ∧
      runHub setup before = .ok middle ∧ middle.sockets[number]? = some old ∧
      old.Outrun setup middle.log feedOk

theorem OutrunAt.concat {number : ℕ} (h : OutrunAt setup events number)
    (event : HubEvent Params) : OutrunAt setup (events ++ [event]) number := by
  obtain ⟨before, feedOk, after, middle, old, rfl, hold⟩ := h
  exact ⟨before, feedOk, after ++ [event], middle, old, by simp, hold⟩

/-- A closed connection was closed on account of a frame or of its sink, or because it
had been outrun. -/
theorem exit_of_run (hrun : runHub setup events = .ok hub) {number : ℕ} {socket : Socket}
    (hsocket : hub.sockets[number]? = some socket) {exit : Exit}
    (hclosed : socket.status = .error exit) :
    OfFrame exit ∨ exit.closeReason = some (some "subscription lagged") ∧
      OutrunAt setup events number := by
  refine run_invariant_of_reached (fun events (hub : Hub Params) =>
    ∀ socket, hub.sockets[number]? = some socket → ∀ exit, socket.status = .error exit →
      OfFrame exit ∨ exit.closeReason = some (some "subscription lagged") ∧
        OutrunAt setup events number) ?_ ?_ hrun socket hsocket exit hclosed
  · intro socket hsocket
    cases hsocket
  intro before middle event after hmiddle hbefore hstep new hnew exit hexit
  rcases socket_of_step hstep hnew with ⟨old, hold, hmoves⟩ | ⟨frontend, rfl⟩
  · cases hstatus : old.status with
    | error left =>
        have hsame : new = old := by
          rcases hmoves with rfl | ⟨feedOk, arm, -, rfl⟩
          · rfl
          · exact onArm_of_error hstatus feedOk arm
        rw [hsame] at hexit
        exact (hbefore old hold exit hexit).imp_right fun ⟨hreason, hat⟩ =>
          ⟨hreason, hat.concat event⟩
    | ok connection =>
        rcases hmoves with rfl | ⟨feedOk, arm, rfl, rfl⟩
        · rw [hexit] at hstatus
          cases hstatus
        · refine (exit_of_onArm hstatus hexit).imp_right ?_
          rintro ⟨hreason, rfl, houtrun⟩
          exact ⟨hreason, before, feedOk, [], middle, old, rfl, hmiddle, hold, houtrun⟩
  · cases hexit

/-- **Exactly the slow connections are closed for lagging.**  A connection has been closed
as lagged if and only if, at one of its looks for an update, more updates had been
broadcast since its position than the channel keeps; and no connection is ever told
that the channel is closed. -/
theorem closed_for_lagging_iff (hrun : runHub setup events = .ok hub) {number : ℕ}
    {socket : Socket} (hsocket : hub.sockets[number]? = some socket) :
    (socket.Lagged ↔ OutrunAt setup events number) ∧
      ∀ exit, socket.status = .error exit → exit.closeReason ≠ some none := by
  refine ⟨⟨?_, ?_⟩, ?_⟩
  · rintro ⟨exit, hclosed, hlagged⟩
    rcases exit_of_run hrun hsocket hclosed with hframe | ⟨-, hat⟩
    · exact absurd hlagged hframe.not_lagged.1
    · exact hat
  · rintro ⟨before, feedOk, after, middle, old, rfl, hmiddle, hold, houtrun⟩
    have hnew : (middle.sockets.modify number
        fun socket => socket.onArm setup middle.log feedOk .update)[number]? =
          some (old.onArm setup middle.log feedOk .update) := by
      rw [List.getElem?_modify, hold]
      simp
    have hlate : run (Hub.step setup) { middle with sockets := (middle.sockets.modify number
        fun socket => socket.onArm setup middle.log feedOk .update) } after = .ok hub := by
      rwa [runHub, run_append, show run _ _ before = _ from hmiddle] at hrun
    obtain ⟨exit, hexit, hreason⟩ := lagged_of_outrun houtrun
    have hstays := closed_of_run hnew hexit hlate
    obtain rfl := Option.some.inj (hsocket.symm.trans hstays)
    exact ⟨exit, hexit, hreason⟩
  · intro exit hclosed
    rcases exit_of_run hrun hsocket hclosed with hframe | ⟨hreason, -⟩
    · exact hframe.not_lagged.2
    · simp [hreason]

theorem closed_for_lagging_iff_fallingBehind :
    ∃ hub socket, runHub sampleSetup (subscribing ++ fallingBehind) = .ok hub ∧
      hub.sockets[0]? = some socket ∧ socket.Lagged := by
  have hbefore : (runHub sampleSetup
      (subscribing ++ [.server (.push (some (.status 6 .finalized))), .server .turn,
        .server .turn])).toOption.map positions = some (3, [(true, 0)]) := by
    decide +kernel
  have hview : (runHub sampleSetup (subscribing ++ fallingBehind)).toOption.map positions =
      some (3, [(false, 1)]) := by
    decide +kernel
  obtain ⟨middle, hmiddle, hbefore⟩ := exists_ok_of_view hbefore
  obtain ⟨hub, hrun, hview⟩ := exists_ok_of_view hview
  obtain ⟨hlength, old, hold, hopened, hposition⟩ :=
    exists_socket_of_positions hbefore (show [(true, 0)][0]? = some (true, 0) from rfl)
  obtain ⟨-, socket, hsocket, -⟩ :=
    exists_socket_of_positions hview (show [(false, 1)][0]? = some (false, 1) from rfl)
  obtain ⟨connection, hopen⟩ := exists_of_isOk hopened
  refine ⟨hub, socket, hrun, hsocket, (closed_for_lagging_iff hrun hsocket).1.2 ?_⟩
  refine ⟨_, true, [], middle, old, rfl, hmiddle, hold, connection, hopen, fun _ => rfl, ?_⟩
  rw [hlength, hposition]
  decide +kernel

end Solfees.Sockets
