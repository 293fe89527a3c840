import Solfees.Core.Run
import Solfees.Geyser.Message

/-!
# The publish loop

`main2` of `solfees-grpc2redis` waits for a message of the gRPC stream, takes
from the channel whatever else is there, and appends the batch to the Redis stream
in one transaction.  The channel is filled by the task of
`grpc_geyser::subscribe`, which stops after the first error it sends.
-/

namespace Solfees.PublishLoop

open Solfees.Message

structure ConfigRedisPublisher where
  streamKey : String
  streamMaxlen : UInt64
  streamFieldKey : String
  deriving DecidableEq, Repr

/-- `XADD stream_key MAXLEN ~ stream_maxlen * stream_field_key payload`. -/
structure Xadd where
  streamKey : String
  streamMaxlen : UInt64
  streamFieldKey : String
  payload : List UInt8
  deriving DecidableEq, Repr

section Model

variable (config : ConfigRedisPublisher) (serialize : GeyserMessage → Option (List UInt8))

/-- The command of a message, unless `bincode::serialize` fails. -/
def xadd (message : GeyserMessage) : Option Xadd :=
  (serialize message).map fun payload => {
    streamKey := config.streamKey
    streamMaxlen := config.streamMaxlen
    streamFieldKey := config.streamFieldKey
    payload := payload }

/-- Why the loop is left: by `break` for the first two, else with an error. -/
inductive Stop
  | signal (signal : Option ℕ)
  | streamFinished
  | tasksFinished
  | streamError (error : String)
  | failedToSerialize
  | failedToSend
  deriving DecidableEq, Repr

def Stop.isError : Stop → Bool
  | .signal _ => false
  | .streamFinished => false
  | _ => true

/-- Where the loop stands: it waits in `recv`, it collects a batch with `try_recv`,
or it waits for the reply to a pipeline. -/
inductive Phase
  | receiving
  | collecting (messages : List GeyserMessage)
  | sending (pipe : List Xadd)
  | stopped (stop : Stop)

/-- The sender and its channel, the loop, and the stream in Redis. -/
structure Publisher where
  alive : Bool
  channel : List (Except String GeyserMessage)
  phase : Phase
  stream : List Xadd

/-- What can happen: the task of `subscribe` sends a result or ends without one, the
loop takes the next result of the channel, Redis answers, or another arm of the
select is taken.  Redis runs a pipeline as a whole, also when its answer is lost. -/
inductive Event
  | sent (result : Except String GeyserMessage)
  | dropped
  | taken
  | accepted
  | rejected (applied : Bool)
  | signal (signal : Option ℕ)
  | tasksFinished

namespace Publisher

def init : Publisher where
  alive := true
  channel := []
  phase := .receiving
  stream := []

/-- Whether a `send` on the channel can have this result.  `geyser_rx` is there until
`main2` returns, which it does at once with an error, and after a `break` at some time. -/
def allowsSend (publisher : Publisher) (sendOk : Bool) : Bool :=
  match publisher.phase with
  | .stopped stop => !(sendOk && stop.isError)
  | _ => sendOk

/-- `geyser_rx.recv()`; it is pending while the channel is empty and open. -/
def onRecv (publisher : Publisher) : Option Publisher :=
  match publisher.channel with
  | .ok message :: channel =>
      some { publisher with channel := channel, phase := .collecting [message] }
  | .error error :: channel =>
      some { publisher with channel := channel, phase := .stopped (.streamError error) }
  | [] =>
      if publisher.alive then none
      else some { publisher with phase := .stopped .streamFinished }

/-- `geyser_rx.try_recv()`; when there is nothing more the pipeline is built. -/
def onTryRecv (publisher : Publisher) (messages : List GeyserMessage) : Publisher :=
  match publisher.channel with
  | .ok message :: channel =>
      { publisher with channel := channel, phase := .collecting (messages ++ [message]) }
  | .error error :: channel =>
      { publisher with channel := channel, phase := .stopped (.streamError error) }
  | [] =>
      match messages.mapM (xadd config serialize) with
      | some pipe => { publisher with phase := .sending pipe }
      | none => { publisher with phase := .stopped .failedToSerialize }

/-- One step; what cannot happen in a phase is refused. -/
def step (publisher : Publisher) (event : Event) : Except Event Publisher :=
  match event, publisher.phase with
  | .sent result, _ =>
      if publisher.alive then
        .ok { publisher with
          alive := result.toOption.isSome
          channel := publisher.channel ++ [result] }
      else .error event
  | .dropped, _ =>
      if publisher.alive then .ok { publisher with alive := false } else .error event
  | .taken, .receiving => publisher.onRecv.elim (.error event) .ok
  | .taken, .collecting messages => .ok (publisher.onTryRecv config serialize messages)
  | .accepted, .sending pipe =>
      .ok { publisher with phase := .receiving, stream := publisher.stream ++ pipe }
  | .rejected applied, .sending pipe =>
      .ok { publisher with
        phase := .stopped .failedToSend
        stream := publisher.stream ++ if applied then pipe else [] }
  | .signal signal, .receiving =>
      .ok { publisher with phase := .stopped (.signal signal) }
  | .tasksFinished, .receiving =>
      .ok { publisher with phase := .stopped .tasksFinished }
  | _, _ => .error event

end Publisher

end Model

end Solfees.PublishLoop
