import Solfees.Geyser.Message

/-!
# JSON-RPC calls, errors and outputs

The parts of `jsonrpc_core` and `solana_rpc_client_api` that the server builds
and returns.  A result is kept as the value that is handed to
`serde_json::to_value`; keys and hashes in it stand for their base-58 text.
-/

namespace Solfees.Json

open Solfees.Message

inductive JsonrpcVersion
  | v2
  deriving DecidableEq, Repr

inductive JsonrpcId
  | null
  | num (value : ℕ)
  | str (value : String)
  deriving DecidableEq, Repr

inductive ErrorCode
  | invalidRequest
  | methodNotFound
  | invalidParams
  | internalError
  | serverError (code : ℤ)
  deriving DecidableEq, Repr

/-- What the `data` member of an error carries. -/
inductive ErrorData
  | text (value : String)
  | contextSlot (slot : Slot)
  deriving DecidableEq, Repr

structure JsonrpcError where
  code : ErrorCode
  message : String
  data : Option ErrorData
  deriving DecidableEq, Repr

namespace JsonrpcError

def invalidRequest : JsonrpcError :=
  ⟨.invalidRequest, "Invalid request", none⟩

def methodNotFound : JsonrpcError :=
  ⟨.methodNotFound, "Method not found", none⟩

def invalidParams (message : String) : JsonrpcError :=
  ⟨.invalidParams, message, none⟩

def internalError : JsonrpcError :=
  ⟨.internalError, "Internal error", none⟩

/-- `RpcCustomError::MinContextSlotNotReached` as an error. -/
def minContextSlotNotReached (contextSlot : Slot) : JsonrpcError :=
  ⟨.serverError (-32016), "Minimum context slot has not been reached",
    some (.contextSlot contextSlot)⟩

end JsonrpcError

/-- `SolanaRpc::internal_error_with_data`. -/
def internalErrorWithData (data : String) : JsonrpcError :=
  { JsonrpcError.internalError with data := some (.text data) }

/-- The mean `sum as f64 / total as f64`, kept as its two operands; `zero` is
the literal `0f64`. -/
inductive FeeAverage
  | zero
  | quotient (sum : UInt64) (total : ℕ)
  deriving DecidableEq, Repr

/-- The fields of `SlotsSubscribeOutput::Slot`. -/
structure SlotOutput where
  leader : Option Pubkey
  slot : Slot
  commitment : CommitmentLevel
  hash : Hash
  time : UnixTimestamp
  height : Height
  totalTransactionsFiltered : ℕ
  totalTransactionsVote : ℕ
  totalTransactions : ℕ
  feeAverage : FeeAverage
  feeLevels : List (Option UInt64)
  totalFee : UInt64
  totalUnitsConsumed : UInt64
  deriving DecidableEq, Repr

inductive SlotsSubscribeOutput
  | status (slot : Slot) (commitment : CommitmentLevel)
  | slot (output : SlotOutput)
  deriving DecidableEq, Repr

structure SolfeesPrioritizationFee where
  slot : Slot
  commitment : CommitmentLevel
  height : Height
  totalTransactionsFiltered : ℕ
  totalTransactionsVote : ℕ
  totalTransactions : ℕ
  feeAverage : FeeAverage
  feeLevels : List (Option UInt64)
  deriving DecidableEq, Repr

/-- `SolfeesPrioritizationFee::try_from`. -/
def SolfeesPrioritizationFee.tryFrom :
    SlotsSubscribeOutput → Except JsonrpcError SolfeesPrioritizationFee
  | .status _ _ => .error (internalErrorWithData "unexpected type")
  | .slot output =>
      .ok {
        slot := output.slot
        commitment := output.commitment
        height := output.height
        totalTransactionsFiltered := output.totalTransactionsFiltered
        totalTransactionsVote := output.totalTransactionsVote
        totalTransactions := output.totalTransactions
        feeAverage := output.feeAverage
        feeLevels := output.feeLevels }

structure RpcPrioritizationFee where
  slot : Slot
  prioritizationFee : UInt64
  deriving DecidableEq, Repr

/-- The results the server serializes, one constructor for each type handed to
`create_success`. -/
inductive RpcResult
  | latestBlockhash (contextSlot : Slot) (blockhash : Hash)
      (lastValidBlockHeight : Height)
  | recentPrioritizationFees (fees : List RpcPrioritizationFee)
  | slot (slot : Slot)
  | version (solanaCore : String) (featureSet : Option UInt32)
  | solfeesSlotsFrontend (outputs : List SlotsSubscribeOutput)
  | solfeesSlots (outputs : List SolfeesPrioritizationFee)
  deriving DecidableEq, Repr

inductive JsonrpcOutput
  | success (jsonrpc : Option JsonrpcVersion) (result : RpcResult) (id : JsonrpcId)
  | failure (jsonrpc : Option JsonrpcVersion) (error : JsonrpcError) (id : JsonrpcId)
  deriving DecidableEq, Repr

/-- The id an output carries. -/
def JsonrpcOutput.id : JsonrpcOutput → JsonrpcId
  | .success _ _ id => id
  | .failure _ _ id => id

/-- `SolanaRpc::create_success`. -/
def createSuccess (jsonrpc : Option JsonrpcVersion) (id : JsonrpcId)
    (result : RpcResult) : JsonrpcOutput :=
  .success jsonrpc result id

/-- `SolanaRpc::create_failure`. -/
def createFailure (jsonrpc : Option JsonrpcVersion) (id : JsonrpcId)
    (error : JsonrpcError) : JsonrpcOutput :=
  .failure jsonrpc error id

@[simp]
theorem id_createSuccess (jsonrpc : Option JsonrpcVersion) (id : JsonrpcId)
    (result : RpcResult) : (createSuccess jsonrpc id result).id = id := rfl

@[simp]
theorem id_createFailure (jsonrpc : Option JsonrpcVersion) (id : JsonrpcId)
    (error : JsonrpcError) : (createFailure jsonrpc id error).id = id := rfl

end Solfees.Json
