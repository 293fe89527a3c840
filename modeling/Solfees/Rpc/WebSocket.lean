import Solfees.Core.Broadcast
import Solfees.Rpc.OnRequest

/-!
# WebSocket connections

`SolanaRpc::on_websocket` serves one connection from a three-way select: the
flush of the sink, the frames of the client, and the updates of the broadcast.
At most one message waits to be fed to the sink, at the top of the loop.  Text is
parsed by `serde_json` and written by `serde_json::to_string`.
-/

namespace Solfees.WebSocket

open Solfees.Broadcast
open Solfees.Fees
open Solfees.Json
open Solfees.Message
open Solfees.OnRequest
open Solfees.Run
open Solfees.UpdateLoop

/-! ## Frames and outputs -/

structure WebSocketCloseFrame where
  code : UInt16
  reason : String
  deriving DecidableEq, Repr

/-- The number of `WebSocketCloseCode::Error`. -/
def closeCodeError : UInt16 := 1011

inductive WebSocketMessage
  | text (message : String)
  | binary (data : List UInt8)
  | ping (data : List UInt8)
  | pong (data : List UInt8)
  | close (closeFrame : Option WebSocketCloseFrame)
  | frame (data : List UInt8)
  deriving DecidableEq, Repr

structure JsonrpcMethodCall (Params : Type) where
  jsonrpc : Option JsonrpcVersion
  method : String
  params : Params
  id : JsonrpcId

/-- The fields of `SlotsSubscribeOutputSolana::Slot`. -/
structure SlotOutputSolana where
  slot : Slot
  commitment : CommitmentLevel
  height : Height
  totalTransactionsFiltered : ℕ
  totalTransactionsVote : ℕ
  totalTransactions : ℕ
  feeAverage : FeeAverage
  feeLevels : List (Option UInt64)
  deriving DecidableEq, Repr

inductive SlotsSubscribeOutputSolana
  | status (slot : Slot) (commitment : CommitmentLevel)
  | slot (output : SlotOutputSolana)
  deriving DecidableEq, Repr

/-- `SlotsSubscribeOutputSolana::from`. -/
def SlotsSubscribeOutputSolana.from :
    SlotsSubscribeOutput → SlotsSubscribeOutputSolana
  | .status target commitment => .status target commitment
  | .slot output => .slot {
      slot := output.slot
      commitment := output.commitment
      height := output.height
      totalTransactionsFiltered := output.totalTransactionsFiltered
      totalTransactionsVote := output.totalTransactionsVote
      totalTransactions := output.totalTransactions
      feeAverage := output.feeAverage
      feeLevels := output.feeLevels }

/-- What `create_success` is given on a connection; `subscribed` is the text of
that name. -/
inductive SubscriptionResult
  | subscribed
  | frontend (output : SlotsSubscribeOutput)
  | solana (output : SlotsSubscribeOutputSolana)
  deriving DecidableEq, Repr

inductive SubscriptionOutput
  | success (jsonrpc : Option JsonrpcVersion) (result : SubscriptionResult)
      (id : JsonrpcId)
  | failure (jsonrpc : Option JsonrpcVersion) (error : JsonrpcError) (id : JsonrpcId)
  deriving DecidableEq, Repr

/-- The parsers of a call, of its parameters and of keys, and the writer of
outputs. -/
structure Codec (Params : Type) where
  fromStr : String → Option (JsonrpcMethodCall Params)
  parse : Params → Except JsonrpcError ReqParamsSlotsSubscribeConfig
  pubkey : String → Except String Pubkey
  toString : SubscriptionOutput → String

/-! ## The loop -/

/-- What the select of the loop can take. -/
inductive Event
  | flushed (ok : Bool)
  | received (message : Option (Option WebSocketMessage))
  | updated (result : Except RecvError StreamsUpdateMessage)

/-- One turn of the loop: whether the sink takes the waiting message, if there
is one, and the event that the select takes. -/
structure Turn where
  feedOk : Bool
  event : Event

/-- The local variables of the loop, and the frames fed to the sink so far. -/
structure Connection where
  filter : Option (JsonrpcId × SlotSubscribeFilter)
  websocketTxMessage : Option WebSocketMessage
  flushRequired : Bool
  fed : List WebSocketMessage

/-- The connection when the loop is left, with `loop_close_reason`. -/
structure Exit where
  connection : Connection
  closeReason : Option (Option String)

namespace Connection

def init : Connection where
  filter := none
  websocketTxMessage := none
  flushRequired := false
  fed := []

/-- `break` with a close reason. -/
def leave (connection : Connection) (closeReason : Option (Option String)) :
    Except Exit Connection :=
  .error ⟨connection, closeReason⟩

/-- The top of the loop: the waiting message is fed. -/
def feedPending (connection : Connection) (feedOk : Bool) :
    Except Exit Connection :=
  match connection.websocketTxMessage with
  | none => .ok connection
  | some message =>
      let taken := { connection with websocketTxMessage := none }
      if feedOk then
        .ok { taken with flushRequired := true, fed := taken.fed ++ [message] }
      else taken.leave none

/-- The flush arm; it is pending unless a flush is required. -/
def onFlushed (connection : Connection) (ok : Bool) : Except Exit Connection :=
  if connection.flushRequired then
    if ok then .ok { connection with flushRequired := false }
    else connection.leave none
  else .ok connection

end Connection

section Arms

variable {Params : Type} (codec : Codec Params) (wsFrontend : Bool)

/-- The filter that a call asks for. -/
def requestedFilter (call : JsonrpcMethodCall Params) :
    Except JsonrpcError SlotSubscribeFilter := do
  let config ← codec.parse call.params
  filterTryFrom codec.pubkey config

/-- The text frame of an output. -/
def textOf (output : SubscriptionOutput) : WebSocketMessage :=
  .text (codec.toString output)

namespace Connection

/-- The `"SlotsSubscribe"` method. -/
def onSlotsSubscribe (connection : Connection) (call : JsonrpcMethodCall Params) :
    Connection :=
  match requestedFilter codec call with
  | .ok filterNew =>
      { connection with
        filter := some (call.id, filterNew)
        websocketTxMessage :=
          some (textOf codec (.success call.jsonrpc .subscribed call.id)) }
  | .error error =>
      { connection with
        websocketTxMessage :=
          some (textOf codec (.failure call.jsonrpc error call.id)) }

/-- A text, or the text of a binary frame. -/
def onText (connection : Connection) (message : String) : Except Exit Connection :=
  match codec.fromStr message with
  | none => connection.leave (some (some "received invalid message"))
  | some call =>
      if call.method = "SlotsSubscribe" then
        .ok (connection.onSlotsSubscribe codec call)
      else connection.leave (some (some "unknown subscription method"))

/-- The arm of the client's frames. -/
def onReceived (connection : Connection) :
    Option (Option WebSocketMessage) → Except Exit Connection
  | some (some (.text message)) => connection.onText codec message
  | some (some (.binary data)) =>
      match String.fromUTF8? ⟨data.toArray⟩ with
      | some message => connection.onText codec message
      | none => connection.leave (some (some "received invalid binary message"))
  | some (some (.ping data)) =>
      .ok { connection with websocketTxMessage := some (.pong data) }
  | some (some (.pong _)) => .ok connection
  | some (some (.close _)) => connection.leave none
  | some (some (.frame _)) =>
      connection.leave (some (some "received unsupported message"))
  | some none => connection.leave none
  | none => connection.leave none

/-- The notification of an update under a filter. -/
def notification (id : JsonrpcId) (filter : SlotSubscribeFilter)
    (update : StreamsUpdateMessage) : WebSocketMessage :=
  let output := renderUpdate filter update
  textOf codec
    (if wsFrontend then .success none (.frontend output) id
    else .success none (.solana (.from output)) id)

/-- The arm of the updates. -/
def onUpdated (connection : Connection) :
    Except RecvError StreamsUpdateMessage → Except Exit Connection
  | .ok update =>
      match connection.filter with
      | some (id, filter) =>
          .ok { connection with
            websocketTxMessage := some (notification codec wsFrontend id filter update) }
      | none => .ok connection
  | .error .closed => connection.leave (some none)
  | .error (.lagged _) => connection.leave (some (some "subscription lagged"))

/-- The select of the loop. -/
def onEvent (connection : Connection) : Event → Except Exit Connection
  | .flushed ok => connection.onFlushed ok
  | .received message => connection.onReceived codec message
  | .updated result => connection.onUpdated codec wsFrontend result

/-- One turn of the loop. -/
def turn (connection : Connection) (turn : Turn) : Except Exit Connection := do
  let connection ← connection.feedPending turn.feedOk
  connection.onEvent codec wsFrontend turn.event

end Connection

end Arms

/-- `ws_frontend`; the other modes have no connections. -/
def wsFrontend : SolanaRpcMode → Option Bool
  | .solfees => some false
  | .solfeesFrontend => some true
  | _ => none

/-- The frames fed to the sink when `on_websocket` returns: those of the loop,
and a close frame if there is a reason. -/
def Exit.frames (exit : Exit) : List WebSocketMessage :=
  exit.connection.fed ++ (exit.closeReason.map fun maybeCloseReason =>
    .close (maybeCloseReason.map (WebSocketCloseFrame.mk closeCodeError))).toList

/-- The loop of `on_websocket`. -/
def onWebsocket {Params : Type} (codec : Codec Params) (mode : SolanaRpcMode)
    (turns : List Turn) : Option (Except Exit Connection) :=
  (wsFrontend mode).map fun wsFrontend =>
    run (Connection.turn codec wsFrontend) .init turns

end Solfees.WebSocket
