import Solfees.Core.Filling
import Solfees.Rpc.UpdateLoop

/-!
# JSON-RPC requests

`SolanaRpc::on_request` answers a call at once when it can be decided from its
parameters, and otherwise leaves a blank and queues a request for the update
loop; the answers of the loop are then merged into the blanks.  The body is
taken as parsed by `serde_json`, and the parsers of parameters are what
`jsonrpc_core` and `serde` derive from the types.
-/

namespace Solfees.OnRequest

open Solfees.Fees
open Solfees.Filling
open Solfees.Json
open Solfees.LatestBlockhash
open Solfees.Message
open Solfees.UpdateLoop

inductive SolanaRpcMode
  | solana
  | triton
  | solfees
  | solfeesFrontend
  deriving DecidableEq, Repr

/-- A parsed call; only the read members are kept of a notification. -/
inductive JsonrpcCall (Params : Type)
  | methodCall (jsonrpc : Option JsonrpcVersion) (method : String)
      (params : Params) (id : JsonrpcId)
  | notification (jsonrpc : Option JsonrpcVersion)
  | invalid (id : JsonrpcId)

inductive JsonrpcCalls (Params : Type)
  | single (call : JsonrpcCall Params)
  | batch (calls : List (JsonrpcCall Params))

def JsonrpcCalls.calls {Params : Type} :
    JsonrpcCalls Params → List (JsonrpcCall Params)
  | .single call => [call]
  | .batch calls => calls

inductive JsonrpcResponse
  | single (output : JsonrpcOutput)
  | batch (outputs : List JsonrpcOutput)
  deriving DecidableEq, Repr

/-! ## Parameters -/

def maxTxAccountLocks : ℕ := 128

structure RpcContextConfig where
  commitment : Option CommitmentLevel
  minContextSlot : Option Slot
  deriving DecidableEq, Repr

def RpcContextConfig.default : RpcContextConfig := ⟨none, none⟩

structure RpcLatestBlockhashConfigTriton where
  context : RpcContextConfig
  rollback : ℕ
  deriving DecidableEq, Repr

def RpcLatestBlockhashConfigTriton.default : RpcLatestBlockhashConfigTriton :=
  ⟨.default, 0⟩

structure RpcRecentPrioritizationFeesConfigTriton where
  percentile : Option UInt16
  deriving DecidableEq, Repr

def RpcRecentPrioritizationFeesConfigTriton.default :
    RpcRecentPrioritizationFeesConfigTriton := ⟨none⟩

structure ReqParamsSlotsSubscribeConfig where
  readWrite : List String
  readOnly : List String
  levels : List UInt16
  deriving DecidableEq, Repr

def ReqParamsSlotsSubscribeConfig.default : ReqParamsSlotsSubscribeConfig :=
  ⟨[], [], []⟩

/-- `Params::parse` at each type of parameters, `Params::expect_no_params`, and
the parser of keys, whose error is its debug text. -/
structure Parsers (Params : Type) where
  context : Params → Except JsonrpcError (Option RpcContextConfig)
  latestBlockhashTriton :
    Params → Except JsonrpcError (Option RpcLatestBlockhashConfigTriton)
  pubkeyStrs : Params → Except JsonrpcError (Option (List String))
  pubkeyStrsTriton : Params → Except JsonrpcError
    (Option (List String) × Option RpcRecentPrioritizationFeesConfigTriton)
  slotsSubscribe :
    Params → Except JsonrpcError (Option ReqParamsSlotsSubscribeConfig)
  expectNoParams : Params → Except JsonrpcError Unit
  pubkey : String → Except String Pubkey

/-- `verify_pubkey`. -/
def verifyPubkey (parsePubkey : String → Except String Pubkey) (input : String) :
    Except JsonrpcError Pubkey :=
  (parsePubkey input).mapError fun e => .invalidParams ("Invalid param: " ++ e)

/-- `verify_pubkeys`. -/
def verifyPubkeys (parsePubkey : String → Except String Pubkey)
    (pubkeyStrs : Option (List String)) : Except JsonrpcError (List Pubkey) :=
  let pubkeyStrs := pubkeyStrs.getD []
  if maxTxAccountLocks < pubkeyStrs.length then
    .error (.invalidParams
      ("Too many inputs provided; max " ++ toString maxTxAccountLocks))
  else pubkeyStrs.mapM (verifyPubkey parsePubkey)

/-- The keys of a filter, inside `SlotSubscribeFilter::try_from`. -/
def filterKeys (parsePubkey : String → Except String Pubkey)
    (pubkeys : List String) : Except JsonrpcError (List Pubkey) :=
  pubkeys.mapM fun pubkey =>
    (parsePubkey pubkey).mapError fun _error =>
      .invalidParams ("failed to parse pubkey: " ++ pubkey)

/-- `SlotSubscribeFilter::try_from`. -/
def filterTryFrom (parsePubkey : String → Except String Pubkey)
    (config : ReqParamsSlotsSubscribeConfig) :
    Except JsonrpcError SlotSubscribeFilter :=
  if maxTxAccountLocks < config.readWrite.length + config.readOnly.length then
    .error (.invalidParams
      ("read_write and read_only should contain less than " ++
        toString maxTxAccountLocks ++ " accounts"))
  else if 5 < config.levels.length then
    .error (.invalidParams "only max 5 percentile levels are allowed")
  else if config.levels.any fun level => decide (10000 < level) then
    .error (.invalidParams "percentile level is too big; max value is 10000")
  else do
    let readWrite ← filterKeys parsePubkey config.readWrite
    let readOnly ← filterKeys parsePubkey config.readOnly
    return { readWrite := readWrite, readOnly := readOnly, levels := config.levels }

/-- The server as `on_request` reads it: its limit, the parsers, and
`solana_version::Version::default`. -/
structure SolanaRpc (Params : Type) where
  requestCallsMax : ℕ
  parsers : Parsers Params
  solanaCore : String
  featureSet : UInt32

variable {Params : Type}

namespace SolanaRpc

/-- The commitment, rollback and minimal slot of `getLatestBlockhash`; the
frontend does not reach it. -/
def latestBlockhashParams (rpc : SolanaRpc Params) (mode : SolanaRpcMode)
    (params : Params) :
    Except JsonrpcError (Option CommitmentLevel × ℕ × Option Slot) :=
  match mode with
  | .solana =>
      (rpc.parsers.context params).map fun config =>
        let context := config.getD .default
        (context.commitment, 0, context.minContextSlot)
  | _ =>
      (rpc.parsers.latestBlockhashTriton params).map fun config =>
        let config := config.getD .default
        (config.context.commitment, config.rollback, config.context.minContextSlot)

/-- The keys of `getRecentPrioritizationFees` for Solana. -/
def feesParamsSolana (rpc : SolanaRpc Params) (params : Params) :
    Except JsonrpcError (List Pubkey × Option UInt16) := do
  let pubkeyStrs ← rpc.parsers.pubkeyStrs params
  return (← verifyPubkeys rpc.parsers.pubkey pubkeyStrs, none)

/-- The keys and the percentile of `getRecentPrioritizationFees` for Triton. -/
def feesParamsTriton (rpc : SolanaRpc Params) (params : Params) :
    Except JsonrpcError (List Pubkey × Option UInt16) := do
  let (pubkeyStrs, config) ← rpc.parsers.pubkeyStrsTriton params
  let pubkeys ← verifyPubkeys rpc.parsers.pubkey pubkeyStrs
  let percentile :=
    (config.getD RpcRecentPrioritizationFeesConfigTriton.default).percentile
  if percentile.any fun percentile => decide (10000 < percentile) then
    .error (.invalidParams "Percentile is too big; max value is 10000")
  else return (pubkeys, percentile)

/-- The filter of `getRecentPrioritizationFees` for Solfees. -/
def slotsParams (rpc : SolanaRpc Params) (params : Params) :
    Except JsonrpcError SlotSubscribeFilter := do
  let config ← rpc.parsers.slotsSubscribe params
  filterTryFrom rpc.parsers.pubkey (config.getD .default)

/-- The commitment and minimal slot of `getSlot`. -/
def slotParams (rpc : SolanaRpc Params) (params : Params) :
    Except JsonrpcError (Option CommitmentLevel × Option Slot) :=
  (rpc.parsers.context params).map fun config =>
    let context := config.getD .default
    (context.commitment, context.minContextSlot)

/-- The output of `getVersion`. -/
def versionOutput (rpc : SolanaRpc Params) (jsonrpc : Option JsonrpcVersion)
    (id : JsonrpcId) (params : Params) : JsonrpcOutput :=
  match rpc.parsers.expectNoParams params with
  | .error error => createFailure jsonrpc id error
  | .ok () => createSuccess jsonrpc id (.version rpc.solanaCore (some rpc.featureSet))

end SolanaRpc

/-! ## The loop over the calls -/

/-- The vectors that the loop over the calls fills. -/
structure Pending where
  outputs : List (Option JsonrpcOutput)
  requests : List RpcRequest

namespace Pending

/-- `outputs.push(Some(output))`. -/
def push (pending : Pending) (output : JsonrpcOutput) : Pending :=
  { pending with outputs := pending.outputs ++ [some output] }

/-- `outputs.push` of a match that queues the request of parsed parameters and
gives `None`, or gives the failure of an error. -/
def pushParsed (pending : Pending) (jsonrpc : Option JsonrpcVersion)
    (id : JsonrpcId) : Except JsonrpcError RpcRequest → Pending
  | .ok request =>
      { outputs := pending.outputs ++ [none]
        requests := pending.requests ++ [request] }
  | .error error => pending.push (createFailure jsonrpc id error)

end Pending

namespace SolanaRpc

/-- The arm of `getRecentPrioritizationFees`: the Solfees modes push by
themselves and leave nothing to the push at the end. -/
def onRecentPrioritizationFees (rpc : SolanaRpc Params) (mode : SolanaRpcMode)
    (pending : Pending) (jsonrpc : Option JsonrpcVersion) (params : Params)
    (id : JsonrpcId) : Pending :=
  let (pending, maybeParsedParams) :=
    match mode with
    | .solana => (pending, some (rpc.feesParamsSolana params))
    | .triton => (pending, some (rpc.feesParamsTriton params))
    | .solfees | .solfeesFrontend =>
        (pending.pushParsed jsonrpc id ((rpc.slotsParams params).map fun filter =>
          .solfeesSlots jsonrpc id filter (mode == SolanaRpcMode.solfeesFrontend)), none)
  match maybeParsedParams with
  | some parsedParams =>
      pending.pushParsed jsonrpc id (parsedParams.map fun (pubkeys, percentile) =>
        .recentPrioritizationFees jsonrpc id pubkeys percentile)
  | none => pending

/-- The match on the method; the default commitment of the protocol is
finalized. -/
def onMethodCall (rpc : SolanaRpc Params) (mode : SolanaRpcMode)
    (pending : Pending) (jsonrpc : Option JsonrpcVersion) (method : String)
    (params : Params) (id : JsonrpcId) : Pending :=
  if method = "getLatestBlockhash" ∧ mode ≠ .solfeesFrontend then
    pending.pushParsed jsonrpc id ((rpc.latestBlockhashParams mode params).map
      fun (commitment, rollback, minContextSlot) =>
        .latestBlockhash jsonrpc id (commitment.getD .finalized) rollback
          minContextSlot)
  else if method = "getRecentPrioritizationFees" then
    rpc.onRecentPrioritizationFees mode pending jsonrpc params id
  else if method = "getSlot" ∧ mode ≠ .solfeesFrontend then
    pending.pushParsed jsonrpc id ((rpc.slotParams params).map
      fun (commitment, minContextSlot) =>
        .slot jsonrpc id (commitment.getD .finalized) minContextSlot)
  else if method = "getVersion" ∧ mode ≠ .solfeesFrontend then
    pending.push (rpc.versionOutput jsonrpc id params)
  else pending.push (createFailure jsonrpc id .methodNotFound)

/-- The body of `for call in calls`. -/
def onCall (rpc : SolanaRpc Params) (mode : SolanaRpcMode) (pending : Pending) :
    JsonrpcCall Params → Pending
  | .methodCall jsonrpc method params id =>
      rpc.onMethodCall mode pending jsonrpc method params id
  | .notification jsonrpc =>
      pending.push (createFailure jsonrpc .null .invalidRequest)
  | .invalid id => pending.push (createFailure none id .invalidRequest)

/-- The outputs and requests after the loop over the calls. -/
def pendingOf (rpc : SolanaRpc Params) (mode : SolanaRpcMode)
    (calls : List (JsonrpcCall Params)) : Pending :=
  calls.foldl (rpc.onCall mode) ⟨[], []⟩

end SolanaRpc

/-! ## The answers of the update loop -/

/-- The errors of `on_request` after the body is parsed. -/
inductive RequestError
  | tooManyCalls (requestCallsMax : ℕ)
  | queueFull
  | loopClosed
  | connectionClosed
  | timeout
  | dropped
  | indexOutOfBounds
  | outputsNumber
  | outputNotDefined
  | outputsNotCreated
  deriving DecidableEq, Repr

def RequestError.message : RequestError → String
  | .tooManyCalls requestCallsMax =>
      "exceed number of allowed calls in one request (" ++
        toString requestCallsMax ++ ")"
  | .queueFull => "requests queue is full"
  | .loopClosed => "processed loop is closed"
  | .connectionClosed => "connection closed"
  | .timeout => "request timeout"
  | .dropped => "request dropped"
  | .indexOutOfBounds => "output index out of bounds"
  | .outputsNumber => "invalid number of outputs"
  | .outputNotDefined => "output is not defined"
  | .outputsNotCreated => "not all outputs created"

/-- What becomes of the queued requests: `try_send` fails, one of the other
branches of `select!` is taken, the loop drops the sender, or it answers. -/
inductive Reply
  | full
  | closed
  | shutdown
  | timeout
  | dropped
  | answered (outputs : List JsonrpcOutput)
  deriving DecidableEq, Repr

/-- The queue and the `select!`. -/
def Reply.receive : Reply → Except RequestError (List JsonrpcOutput)
  | .full => .error .queueFull
  | .closed => .error .loopClosed
  | .shutdown => .error .connectionClosed
  | .timeout => .error .timeout
  | .dropped => .error .dropped
  | .answered outputs => .ok outputs

/-- The answers of the update loop, merged into the outputs; without requests
the loop is not asked. -/
def Pending.merge (pending : Pending) (reply : Reply) :
    Except RequestError (List (Option JsonrpcOutput)) :=
  if pending.requests.isEmpty then .ok pending.outputs
  else
    match reply.receive with
    | .error error => .error error
    | .ok responses =>
        match fillFrom 0 pending.outputs responses with
        | some outputs => .ok outputs
        | none => .error .indexOutOfBounds

/-- The end of `on_request`: check the outputs and take them out of their
options. -/
def finish (calls : JsonrpcCalls Params) (outputs : List (Option JsonrpcOutput)) :
    Except RequestError JsonrpcResponse :=
  if calls.calls.length ≠ outputs.length then .error .outputsNumber
  else
    match outputs.mapM id with
    | none => .error .outputsNotCreated
    | some outputs =>
        match calls with
        | .batch _ => .ok (.batch outputs)
        | .single _ =>
            match outputs.getLast? with
            | some output => .ok (.single output)
            | none => .error .outputNotDefined

/-- `SolanaRpc::on_request`, from the parsed body to the response it
serializes. -/
def SolanaRpc.onRequest (rpc : SolanaRpc Params) (mode : SolanaRpcMode)
    (calls : JsonrpcCalls Params) (reply : Reply) :
    Except RequestError JsonrpcResponse :=
  if rpc.requestCallsMax < calls.calls.length then
    .error (.tooManyCalls rpc.requestCallsMax)
  else
    match (rpc.pendingOf mode calls.calls).merge reply with
    | .error error => .error error
    | .ok outputs => finish calls outputs

end Solfees.OnRequest
