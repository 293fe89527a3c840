import Solfees.Core.ActorWaiting
import Solfees.Rpc.BatchResponses

/-!
# The server

`SolanaRpc` shares the update loop with all its clients.  The loop is one task with
the geyser messages and the request batches as its two queues; `on_request` runs for
many clients at once, and each of them queues at most one batch and then waits for
the loop, for its timeout, or for its connection to close.
-/

namespace Solfees.RpcServer

open Solfees.Actors
open Solfees.BatchResponses
open Solfees.Json
open Solfees.LatestBlockhash
open Solfees.Message
open Solfees.OnRequest
open Solfees.UpdateLoop

variable {Params : Type}

deriving instance DecidableEq for JsonrpcCall, JsonrpcCalls

/-- A request of a client: the mode of its path, and the parsed body. -/
structure HttpCall (Params : Type) where
  mode : SolanaRpcMode
  calls : JsonrpcCalls Params
  deriving DecidableEq

/-- The two branches of the `select!` of `on_request` that raise the flag of the
batch. -/
inductive Leaving
  | shutdown
  | timeout
  deriving DecidableEq, Repr

/-- The batch that `on_request` queues, unless it has too many calls or none that
is left to the update loop. -/
def requestsOf? (rpc : SolanaRpc Params) (call : HttpCall Params) :
    Option (List RpcRequest) :=
  if rpc.requestCallsMax < call.calls.calls.length then none
  else
    match requestsOf rpc call.mode call.calls with
    | [] => none
    | requests => some requests

/-- `run_update_loop`, with the queue of `requestQueueMax` batches that
`SolanaRpc::new` gives it. -/
def service (rpc : SolanaRpc Params) (requestQueueMax : ℕ) :
    Service LoopState GeyserMessage (HttpCall Params) (List RpcRequest)
      (List JsonrpcOutput) Fault where
  init := .init
  apply := LoopState.onMessage
  requestOf := requestsOf? rpc
  answer := LoopState.onRequests
  capacity := requestQueueMax

/-- The update loop, its queues, and what has become of the calls. -/
abbrev Server (Params : Type) :=
  Actor LoopState GeyserMessage (HttpCall Params) (List JsonrpcOutput) Leaving

/-- A geyser message or `shutdown` is pushed, a client calls, runs out of time, is
disconnected, is dropped or wakes up, or the loop goes on. -/
abbrev ServerEvent (Params : Type) :=
  Event GeyserMessage (HttpCall Params) Leaving

/-- The server after the events. -/
def runServer (rpc : SolanaRpc Params) (requestQueueMax : ℕ)
    (events : List (ServerEvent Params)) : Except Fault (Server Params) :=
  runActor (service rpc requestQueueMax) events

/-- The reply with which `on_request` ends; a call that is dropped has no end, and
one that queues nothing does not read the reply. -/
def replyOf : Outcome (List JsonrpcOutput) Leaving → Option Reply
  | .alone => some .dropped
  | .full => some .full
  | .closed => some .closed
  | .cancelled .shutdown => some .shutdown
  | .cancelled .timeout => some .timeout
  | .abandoned => none
  | .dropped => some .dropped
  | .answered outputs => some (.answered outputs)

/-- What `on_request` has returned to a client, if it has returned. -/
def response (rpc : SolanaRpc Params) (server : Server Params) (client : ℕ) :
    Option (Except RequestError JsonrpcResponse) := do
  let ticket ← server.tickets[client]?
  let outcome ← ticket.outcome
  let reply ← replyOf outcome
  return rpc.onRequest ticket.call.mode ticket.call.calls reply

/-! ## The batch of a call -/

section Batch

variable {rpc : SolanaRpc Params} {call : HttpCall Params} {requests : List RpcRequest}

theorem requestsOf?_eq_some (h : requestsOf? rpc call = some requests) :
    call.calls.calls.length ≤ rpc.requestCallsMax ∧
      requestsOf rpc call.mode call.calls = requests ∧ requests ≠ [] := by
  rw [requestsOf?] at h
  split at h
  · cases h
  next hmax =>
    split at h
    · cases h
    next hne =>
      obtain rfl := Option.some.inj h
      exact ⟨not_lt.1 hmax, rfl, hne⟩

/-- The answers to the batch of a call become a response that lines up with it. -/
theorem onRequest_of_answered (h : requestsOf? rpc call = some requests) {state : LoopState}
    {outputs : List JsonrpcOutput} (hanswer : state.onRequests requests = .ok outputs) :
    ∃ response, rpc.onRequest call.mode call.calls (.answered outputs) = .ok response ∧
      LinesUp (Answers rpc call.mode state) call.calls response := by
  obtain ⟨hmax, rfl, -⟩ := requestsOf?_eq_some h
  exact onRequest_linesUp hmax hanswer fun _ => rfl

/-- Without an answer, a call that queued a batch fails with what the queue or the
wait came to. -/
theorem onRequest_of_receive_error (h : requestsOf? rpc call = some requests) {reply : Reply}
    {error : RequestError} (hreply : reply.receive = .error error) :
    rpc.onRequest call.mode call.calls reply = .error error := by
  obtain ⟨hmax, rfl, hne⟩ := requestsOf?_eq_some h
  have hasked : (rpc.pendingOf call.mode call.calls.calls).requests.isEmpty = false :=
    List.isEmpty_eq_false_iff.2 hne
  rw [SolanaRpc.onRequest, if_neg (not_lt.2 hmax), Pending.merge, hasked, hreply]
  rfl

end Batch

end Solfees.RpcServer
