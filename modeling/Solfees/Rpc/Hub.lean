import Solfees.Core.Ring
import Solfees.Rpc.ServerRuns
import Solfees.Rpc.SnapshotReplay
import Solfees.Rpc.SubscriptionFrames

/-!
# The server with its sockets

The update loop broadcasts every message that it applies, and `on_websocket` reads the
broadcast for any number of connections while `on_request` goes on for the others.
The channel keeps as many updates as its capacity, rounded up to a power of two.
-/

namespace Solfees.Sockets

open Solfees.Broadcast
open Solfees.Json
open Solfees.LatestBlockhash
open Solfees.Message
open Solfees.OnRequest
open Solfees.RpcServer
open Solfees.Run
open Solfees.SubscriptionFrames
open Solfees.UpdateLoop
open Solfees.WebSocket

variable {Params : Type}

/-- A connection: whether the frontend is served, the position of its receiver, the
turns of its loop so far, and the connection or how it was left. -/
structure Socket where
  frontend : Bool
  position : ℕ
  turns : List Turn
  status : Except Exit Connection

/-- What the select of a connection is to take; it takes an update only if the
receiver has something for it. -/
inductive Arm
  | flush (ok : Bool)
  | receive (message : Option (Option WebSocketMessage))
  | update

structure Hub (Params : Type) where
  server : Server Params
  sockets : List Socket

/-- Something happens to the server, a connection is upgraded, or the loop of a
connection makes a turn. -/
inductive HubEvent (Params : Type)
  | server (event : ServerEvent Params)
  | upgrade (mode : SolanaRpcMode)
  | socket (number : ℕ) (feedOk : Bool) (arm : Arm)

/-- The limits of the configuration, and the parsers of the two kinds of clients. -/
structure Setup (Params : Type) where
  rpc : SolanaRpc Params
  requestQueueMax : ℕ
  streamsChannelCapacity : ℕ
  codec : Codec Params

/-- The number of updates that `broadcast::channel` keeps. -/
def Setup.capacity (setup : Setup Params) : ℕ :=
  setup.streamsChannelCapacity.nextPowerOfTwo

namespace Socket

/-- `streams_tx.subscribe()` starts at the end of the broadcast. -/
def subscribe (frontend : Bool) (log : List StreamsUpdateMessage) : Socket where
  frontend := frontend
  position := log.length
  turns := []
  status := .ok .init

/-- A turn of an open connection. -/
def take (codec : Codec Params) (socket : Socket) (connection : Connection) (turn : Turn) :
    Socket :=
  { socket with
    turns := socket.turns ++ [turn]
    status := connection.turn codec socket.frontend turn }

/-- The select of a connection.  The channel is never closed: `on_websocket` owns a
`SolanaRpc` and with it a sender. -/
def onArm (setup : Setup Params) (log : List StreamsUpdateMessage) (socket : Socket)
    (feedOk : Bool) (arm : Arm) : Socket :=
  match socket.status with
  | .error _ => socket
  | .ok connection =>
      match arm with
      | .flush ok => socket.take setup.codec connection ⟨feedOk, .flushed ok⟩
      | .receive message => socket.take setup.codec connection ⟨feedOk, .received message⟩
      | .update =>
          match recv setup.capacity log false socket.position with
          | none => socket
          | some (result, position) =>
              { socket.take setup.codec connection ⟨feedOk, .updated result⟩ with
                position := position }

end Socket

namespace Hub

def init (setup : Setup Params) : Hub Params where
  server := .init (service setup.rpc setup.requestQueueMax)
  sockets := []

/-- The updates broadcast so far. -/
def log (hub : Hub Params) : List StreamsUpdateMessage :=
  hub.server.state.streams

def step (setup : Setup Params) (hub : Hub Params) :
    HubEvent Params → Except Fault (Hub Params)
  | .server event =>
      (hub.server.step (service setup.rpc setup.requestQueueMax) event).map fun server =>
        { hub with server := server }
  | .upgrade mode =>
      match wsFrontend mode with
      | some frontend => .ok { hub with sockets := hub.sockets ++ [.subscribe frontend hub.log] }
      | none => .ok hub
  | .socket number feedOk arm =>
      .ok { hub with sockets :=
        hub.sockets.modify number fun socket => socket.onArm setup hub.log feedOk arm }

end Hub

/-- The server and its sockets after the events. -/
def runHub (setup : Setup Params) (events : List (HubEvent Params)) :
    Except Fault (Hub Params) :=
  run (Hub.step setup) (.init setup) events

/-- What happens to the server. -/
def HubEvent.server? : HubEvent Params → Option (ServerEvent Params)
  | .server event => some event
  | _ => none

def serverEvents (events : List (HubEvent Params)) : List (ServerEvent Params) :=
  events.filterMap HubEvent.server?

/-! ## The server in the hub -/

variable {setup : Setup Params} {hub next : Hub Params} {events : List (HubEvent Params)}

/-- An event of the server leaves the sockets alone. -/
theorem exists_server_step {event : ServerEvent Params}
    (hstep : hub.step setup (.server event) = .ok next) :
    ∃ server, hub.server.step (service setup.rpc setup.requestQueueMax) event = .ok server ∧
      next = { hub with server := server } := by
  rw [Hub.step] at hstep
  cases hserver : hub.server.step (service setup.rpc setup.requestQueueMax) event with
  | error fault =>
      rw [hserver] at hstep
      cases hstep
  | ok server =>
      rw [hserver] at hstep
      exact ⟨server, rfl, (Except.ok.inj hstep).symm⟩

theorem step_server {event : HubEvent Params} (hstep : hub.step setup event = .ok next) :
    next.server = hub.server ∧ event.server? = none ∨
      ∃ serverEvent, event.server? = some serverEvent ∧
        hub.server.step (service setup.rpc setup.requestQueueMax) serverEvent =
          .ok next.server := by
  cases event with
  | server event =>
      obtain ⟨server, hserver, rfl⟩ := exists_server_step hstep
      exact Or.inr ⟨event, rfl, hserver⟩
  | upgrade mode =>
      rw [Hub.step] at hstep
      split at hstep <;> cases hstep <;> exact Or.inl ⟨rfl, rfl⟩
  | socket number feedOk arm =>
      cases hstep
      exact Or.inl ⟨rfl, rfl⟩

/-- The sockets do not disturb the server. -/
theorem runServer_of_runHub (hrun : runHub setup events = .ok hub) :
    runServer setup.rpc setup.requestQueueMax (serverEvents events) = .ok hub.server := by
  refine run_invariant_of_ok (fun events hub => runServer setup.rpc setup.requestQueueMax
    (serverEvents events) = .ok hub.server) rfl ?_ hrun
  intro before hub event next hbefore hstep
  rw [serverEvents, List.filterMap_append, ← serverEvents]
  rcases step_server hstep with ⟨hserver, hevent⟩ | ⟨serverEvent, hevent, hserver⟩
  · rw [hserver, List.filterMap_cons_none hevent, List.filterMap_nil, List.append_nil]
    exact hbefore
  · rw [List.filterMap_cons_some hevent, List.filterMap_nil]
    exact (run_concat_of_ok hbefore serverEvent).trans hserver

/-- The loop has broadcast the messages that it has applied, the first of the ones
pushed. -/
theorem log_of_run (hrun : runHub setup events = .ok hub) :
    ∃ applied, LoopState.runUpdateLoop applied = .ok hub.server.state ∧
      hub.log = applied.map SnapshotReplay.toStreamsUpdate ∧
      applied.map some <+: Actors.pushes (serverEvents events) := by
  obtain ⟨applied, h⟩ := Actors.logged_of_run (runServer_of_runHub hrun)
  obtain ⟨state, hstate, -, hstreams⟩ := SnapshotReplay.runUpdateLoop_recentSlots applied
  obtain rfl := Except.ok.inj (h.state.symm.trans hstate)
  exact ⟨applied, hstate, hstreams, h.applied_prefix⟩

end Solfees.Sockets
