import Solfees.Core.Run
import Solfees.Core.Window
import Solfees.Rpc.Fees
import Solfees.Rpc.LatestBlockhashStorage

/-!
# The update loop

`run_update_loop` owns the two stores and serves two queues, the geyser messages
first.  A geyser message changes the stores and is broadcast to the WebSocket
subscribers; a batch of requests is answered from the stores as they stand.
-/

namespace Solfees.UpdateLoop

open Solfees.Draining
open Solfees.Fees
open Solfees.Json
open Solfees.LatestBlockhash
open Solfees.Message
open Solfees.Run
open Solfees.Window

def maxNumRecentSlotInfo : ℕ := 150

inductive StreamsUpdateMessage
  | status (slot : Slot) (commitment : CommitmentLevel)
  | slot (info : StreamsSlotInfo)

/-- The local variables of `run_update_loop`, with the messages sent on
`streams_tx` so far. -/
structure LoopState where
  latestBlockhashStorage : LatestBlockhashStorage
  slotsInfo : OrderedMap Slot StreamsSlotInfo
  streams : List StreamsUpdateMessage

namespace LoopState

def init : LoopState where
  latestBlockhashStorage := .empty
  slotsInfo := ∅
  streams := []

/-- The geyser branch of `run_update_loop`. -/
def onMessage (state : LoopState) : GeyserMessage → Except Fault LoopState
  | .status slot commitment => do
      let storage ← state.latestBlockhashStorage.updateCommitment slot commitment
      return {
        latestBlockhashStorage := storage
        slotsInfo := state.slotsInfo.modify slot (.setCommitment commitment)
        streams := state.streams ++ [.status slot commitment] }
  | .slot block =>
      let info := StreamsSlotInfo.new block.leader block.slot block.hash
        block.time block.height block.transactions
      match shrinkLoop maxNumRecentSlotInfo
          (state.slotsInfo.insert block.slot info) with
      | some (_, slotsInfo) => .ok {
          latestBlockhashStorage := state.latestBlockhashStorage.pushBlock
            block.slot block.height block.hash
          slotsInfo := slotsInfo
          streams := state.streams ++ [.slot info] }
      | none => .error .spin

/-- The state of `run_update_loop` after it has received the messages. -/
def runUpdateLoop (messages : List GeyserMessage) : Except Fault LoopState :=
  run onMessage init messages

end LoopState

/-! ## Requests -/

inductive RpcRequest
  | latestBlockhash (jsonrpc : Option JsonrpcVersion) (id : JsonrpcId)
      (commitment : CommitmentLevel) (rollback : ℕ)
      (minContextSlot : Option Slot)
  | recentPrioritizationFees (jsonrpc : Option JsonrpcVersion) (id : JsonrpcId)
      (pubkeys : List Pubkey) (percentile : Option UInt16)
  | slot (jsonrpc : Option JsonrpcVersion) (id : JsonrpcId)
      (commitment : CommitmentLevel) (minContextSlot : Option Slot)
  | solfeesSlots (jsonrpc : Option JsonrpcVersion) (id : JsonrpcId)
      (filter : SlotSubscribeFilter) (frontend : Bool)
  deriving DecidableEq, Repr

namespace LoopState

/-- The `RpcRequest::RecentPrioritizationFees` arm of `run_update_loop`. -/
def recentPrioritizationFees (state : LoopState) (pubkeys : List Pubkey)
    (percentile : Option UInt16) : List RpcPrioritizationFee :=
  state.slotsInfo.toList.map fun entry =>
    ⟨entry.1, entry.2.fees.getFee pubkeys percentile⟩

/-- The outputs of the `RpcRequest::SolfeesSlots` arm of `run_update_loop`. -/
def solfeesSlots (state : LoopState) (filter : SlotSubscribeFilter) :
    List SlotsSubscribeOutput :=
  state.slotsInfo.toList.map fun entry => entry.2.getFiltered filter

/-- The answer of `run_update_loop` to one request. -/
def onRequest (state : LoopState) : RpcRequest → Except Fault JsonrpcOutput
  | .latestBlockhash jsonrpc id commitment rollback minContextSlot =>
      latestBlockhash state.latestBlockhashStorage jsonrpc id commitment rollback
        minContextSlot
  | .recentPrioritizationFees jsonrpc id pubkeys percentile =>
      .ok (createSuccess jsonrpc id (.recentPrioritizationFees
        (state.recentPrioritizationFees pubkeys percentile)))
  | .slot jsonrpc id commitment minContextSlot =>
      .ok (getSlot state.latestBlockhashStorage jsonrpc id commitment
        minContextSlot)
  | .solfeesSlots jsonrpc id filter frontend =>
      let outputs := state.solfeesSlots filter
      if frontend then
        .ok (createSuccess jsonrpc id (.solfeesSlotsFrontend outputs))
      else
        match outputs.mapM SolfeesPrioritizationFee.tryFrom with
        | .ok outputs => .ok (createSuccess jsonrpc id (.solfeesSlots outputs))
        | .error error => .ok (createFailure jsonrpc id error)

/-- The requests branch of `run_update_loop`: every request of a batch is
answered from one state. -/
def onRequests (state : LoopState) (requests : List RpcRequest) :
    Except Fault (List JsonrpcOutput) :=
  requests.mapM state.onRequest

end LoopState

/-- What a frontend subscriber with a filter is sent for an update, the update
branch of `on_websocket`. -/
def renderUpdate (filter : SlotSubscribeFilter) :
    StreamsUpdateMessage → SlotsSubscribeOutput
  | .status slot commitment => .status slot commitment
  | .slot info => info.getFiltered filter

end Solfees.UpdateLoop
