import Solfees.Redis.Delivery
import Solfees.Rpc.Hub

/-!
# The whole backend

`main2` of `solfees-be` hands what the consumer sends to the update loop, message by
message, until it is told to stop or something fails.  Beside it run the publishers and
Redis, the clients, and the connections.
-/

namespace Solfees.Backend

open Solfees.Actors
open Solfees.Message
open Solfees.PublishLoop (ConfigRedisPublisher)
open Solfees.Run
open Solfees.Sockets
open Solfees.Transport

variable {Params : Type}

/-- What the processes are set up with.  Whatever `bincode` writes it can read. -/
structure Deployment (Params : Type) where
  setup : Setup Params
  redis : ConfigRedisPublisher
  publishers : ℕ
  serialize : GeyserMessage → Option (List UInt8)
  deserialize : List UInt8 → Option GeyserMessage
  roundTrips : RoundTrips serialize deserialize

/-- Where `main2` stands: in its loop, after the shutdown that follows it, or at an
error that it returns. -/
inductive MainPhase
  | running
  | stopping
  | failed (error : String)
  deriving DecidableEq, Repr

/-- The publishers, Redis and the consumer; the server with its sockets; how much of what
the consumer sent `main2` has received, and where it stands. -/
structure System (Params : Type) where
  relay : Relay
  hub : Hub Params
  received : ℕ
  main : MainPhase

/-- Something happens before the consumer's channel, or behind the update loop's; or
`main2` takes an arm of its select. -/
inductive SystemEvent (Params : Type)
  | relay (event : RelayEvent)
  | hub (event : HubEvent Params)
  | received
  | signal
  | tasksFinished

/-- Why an event is not taken: it cannot happen, or the update loop fails at it. -/
inductive Halt
  | refused
  | fault (fault : LatestBlockhash.Fault)
  deriving DecidableEq, Repr

namespace System

variable (deployment : Deployment Params)

def init : System Params where
  relay := .init deployment.publishers
  hub := .init deployment.setup
  received := 0
  main := .running

/-- The server or a socket makes a step. -/
def onHub (system : System Params) (event : HubEvent Params) (main : MainPhase) :
    Except Halt (System Params) :=
  match system.hub.step deployment.setup event with
  | .ok hub => .ok { system with hub := hub, main := main }
  | .error fault => .error (.fault fault)

/-- `push_geyser_message` or `shutdown`, and where `main2` stands then. -/
def send (system : System Params) (message : Option GeyserMessage) (main : MainPhase) :
    Except Halt (System Params) :=
  if system.hub.server.phase = .ended then
    .ok { system with main := .failed "SolanaRpc update loop is dead" }
  else
    system.onHub deployment (.server (.push message)) main

/-- The arm of the consumer's channel; it waits while the channel is empty and the
consumer goes on. -/
def onReceived (system : System Params) : Except Halt (System Params) :=
  match system.relay.consumer.tx[system.received]? with
  | some (.ok message) =>
      { system with received := system.received + 1 }.send deployment (some message) .running
  | some (.error error) =>
      .ok { system with received := system.received + 1, main := .failed error }
  | none =>
      if system.relay.consumer.running then .error .refused
      else system.send deployment none .stopping

/-- One step.  Only `main2` pushes messages, and only in its loop. -/
def step (system : System Params) : SystemEvent Params → Except Halt (System Params)
  | .relay event =>
      match system.relay.step deployment.redis deployment.serialize deployment.deserialize
          event with
      | .ok relay => .ok { system with relay := relay }
      | .error _ => .error .refused
  | .hub event =>
      if (event.server?.bind Event.pushed?).isSome then .error .refused
      else system.onHub deployment event system.main
  | .received =>
      if system.main = .running then system.onReceived deployment else .error .refused
  | .signal =>
      if system.main = .running then system.send deployment none .stopping
      else .error .refused
  | .tasksFinished =>
      if system.main = .running then
        .ok { system with main := .failed "spawned tasks finished" }
      else .error .refused

end System

/-- The system after the events. -/
def runSystem (deployment : Deployment Params) (events : List (SystemEvent Params)) :
    Except Halt (System Params) :=
  run (System.step deployment) (.init deployment) events

/-- What happens before the consumer's channel. -/
def SystemEvent.relay? : SystemEvent Params → Option RelayEvent
  | .relay event => some event
  | _ => none

def relayEvents (events : List (SystemEvent Params)) : List RelayEvent :=
  events.filterMap SystemEvent.relay?

end Solfees.Backend
