import Solfees.Rpc.OnRequest

/-!
# Batch responses line up with their calls

Every call of a batch is either decided from its parameters or becomes one
request.  The outputs and the requests that the loop over the calls collects are
the two sides of these verdicts, so the answers of the update loop fill exactly
the blanks, each in the place of its call.
-/

namespace Solfees.BatchResponses

open Solfees.Fees
open Solfees.Filling
open Solfees.Json
open Solfees.LatestBlockhash
open Solfees.Message
open Solfees.OnRequest
open Solfees.UpdateLoop

variable {Params : Type}

/-! ## Ids -/

/-- The id that the output of a call has to carry. -/
def callId : JsonrpcCall Params → JsonrpcId
  | .methodCall _ _ _ id => id
  | .notification _ => .null
  | .invalid id => id

def requestId : RpcRequest → JsonrpcId
  | .latestBlockhash _ id _ _ _ => id
  | .recentPrioritizationFees _ id _ _ => id
  | .slot _ id _ _ => id
  | .solfeesSlots _ id _ _ => id

theorem id_latestBlockhash {storage : LatestBlockhashStorage}
    {jsonrpc : Option JsonrpcVersion} {id : JsonrpcId}
    {commitment : CommitmentLevel} {rollback : ℕ} {minContextSlot : Option Slot}
    {output : JsonrpcOutput}
    (h : latestBlockhash storage jsonrpc id commitment rollback minContextSlot =
      .ok output) : output.id = id := by
  simp only [latestBlockhash] at h
  split at h
  · cases h
    exact id_createFailure ..
  split at h
  · cases h
    exact id_createFailure ..
  split at h
  · cases h
    exact id_createFailure ..
  split at h
  · split at h
    · cases h
      exact id_createFailure ..
    · split at h
      · cases h
        exact id_createSuccess ..
      · cases h
        exact id_createFailure ..
      · cases h
  · cases h
    exact id_createSuccess ..

/-- The update loop answers a request under the id of the request. -/
theorem id_onRequest {state : LoopState} {request : RpcRequest}
    {output : JsonrpcOutput} (h : state.onRequest request = .ok output) :
    output.id = requestId request := by
  cases request with
  | latestBlockhash jsonrpc id commitment rollback minContextSlot =>
      exact id_latestBlockhash h
  | recentPrioritizationFees jsonrpc id pubkeys percentile =>
      cases h
      exact id_createSuccess ..
  | slot jsonrpc id commitment minContextSlot =>
      cases h
      simp only [getSlot]
      split
      · exact id_createFailure ..
      · exact id_createSuccess ..
  | solfeesSlots jsonrpc id filter frontend =>
      simp only [LoopState.onRequest] at h
      split at h
      · cases h
        exact id_createSuccess ..
      · split at h
        · cases h
          exact id_createSuccess ..
        · cases h
          exact id_createFailure ..

/-! ## Verdicts -/

/-- Parsed parameters become a request, an error the failure of the call. -/
def parsedVerdict (jsonrpc : Option JsonrpcVersion) (id : JsonrpcId) :
    Except JsonrpcError RpcRequest → JsonrpcOutput ⊕ RpcRequest
  | .ok request => .inr request
  | .error error => .inl (createFailure jsonrpc id error)

/-- The request of a `getRecentPrioritizationFees` call. -/
def feesRequest (rpc : SolanaRpc Params) (mode : SolanaRpcMode)
    (jsonrpc : Option JsonrpcVersion) (params : Params) (id : JsonrpcId) :
    Except JsonrpcError RpcRequest :=
  match mode with
  | .solana => (rpc.feesParamsSolana params).map fun (pubkeys, percentile) =>
      .recentPrioritizationFees jsonrpc id pubkeys percentile
  | .triton => (rpc.feesParamsTriton params).map fun (pubkeys, percentile) =>
      .recentPrioritizationFees jsonrpc id pubkeys percentile
  | .solfees => (rpc.slotsParams params).map fun filter =>
      .solfeesSlots jsonrpc id filter false
  | .solfeesFrontend => (rpc.slotsParams params).map fun filter =>
      .solfeesSlots jsonrpc id filter true

/-- What a single call comes to: its output, or the request that will give it. -/
def verdict (rpc : SolanaRpc Params) (mode : SolanaRpcMode) :
    JsonrpcCall Params → JsonrpcOutput ⊕ RpcRequest
  | .methodCall jsonrpc method params id =>
      if method = "getLatestBlockhash" ∧ mode ≠ .solfeesFrontend then
        parsedVerdict jsonrpc id ((rpc.latestBlockhashParams mode params).map
          fun (commitment, rollback, minContextSlot) =>
            .latestBlockhash jsonrpc id (commitment.getD .finalized) rollback
              minContextSlot)
      else if method = "getRecentPrioritizationFees" then
        parsedVerdict jsonrpc id (feesRequest rpc mode jsonrpc params id)
      else if method = "getSlot" ∧ mode ≠ .solfeesFrontend then
        parsedVerdict jsonrpc id ((rpc.slotParams params).map
          fun (commitment, minContextSlot) =>
            .slot jsonrpc id (commitment.getD .finalized) minContextSlot)
      else if method = "getVersion" ∧ mode ≠ .solfeesFrontend then
        .inl (rpc.versionOutput jsonrpc id params)
      else .inl (createFailure jsonrpc id .methodNotFound)
  | .notification jsonrpc => .inl (createFailure jsonrpc .null .invalidRequest)
  | .invalid id => .inl (createFailure none id .invalidRequest)

/-! ## What is read of the parameters -/

section Reads

variable (rpc : SolanaRpc Params) {mode : SolanaRpcMode} (jsonrpc : Option JsonrpcVersion)
  (params : Params) (id : JsonrpcId)

/-- `getSlot` reads the level, finalized if none is named, and the minimal slot. -/
theorem verdict_getSlot (hmode : mode ≠ .solfeesFrontend) :
    verdict rpc mode (.methodCall jsonrpc "getSlot" params id) =
      match rpc.parsers.context params with
      | .error error => .inl (createFailure jsonrpc id error)
      | .ok none => .inr (.slot jsonrpc id .finalized none)
      | .ok (some config) => .inr (.slot jsonrpc id (config.commitment.getD .finalized)
          config.minContextSlot) := by
  rw [verdict, if_neg (fun h => absurd h.1 (by decide)), if_neg (by decide),
    if_pos ⟨rfl, hmode⟩, SolanaRpc.slotParams]
  cases rpc.parsers.context params with
  | error error => rfl
  | ok config => cases config <;> rfl

/-- Solana's `getLatestBlockhash` reads the same, and there is no rollback. -/
theorem verdict_getLatestBlockhash_solana :
    verdict rpc .solana (.methodCall jsonrpc "getLatestBlockhash" params id) =
      match rpc.parsers.context params with
      | .error error => .inl (createFailure jsonrpc id error)
      | .ok none => .inr (.latestBlockhash jsonrpc id .finalized 0 none)
      | .ok (some config) => .inr (.latestBlockhash jsonrpc id
          (config.commitment.getD .finalized) 0 config.minContextSlot) := by
  rw [verdict, if_pos ⟨rfl, by decide⟩, SolanaRpc.latestBlockhashParams]
  cases rpc.parsers.context params with
  | error error => rfl
  | ok config => cases config <;> rfl

/-- The other modes read a rollback too, which is 0 without a config. -/
theorem verdict_getLatestBlockhash (hsolana : mode ≠ .solana)
    (hfrontend : mode ≠ .solfeesFrontend) :
    verdict rpc mode (.methodCall jsonrpc "getLatestBlockhash" params id) =
      match rpc.parsers.latestBlockhashTriton params with
      | .error error => .inl (createFailure jsonrpc id error)
      | .ok none => .inr (.latestBlockhash jsonrpc id .finalized 0 none)
      | .ok (some config) => .inr (.latestBlockhash jsonrpc id
          (config.context.commitment.getD .finalized) config.rollback
          config.context.minContextSlot) := by
  rw [verdict, if_pos ⟨rfl, hfrontend⟩, SolanaRpc.latestBlockhashParams.eq_def]
  cases mode with
  | solana => exact absurd rfl hsolana
  | _ =>
      dsimp only
      cases rpc.parsers.latestBlockhashTriton params with
      | error error => rfl
      | ok config => cases config <;> rfl

/-- `getVersion` takes no parameters and answers the version and the feature set. -/
theorem verdict_getVersion (hmode : mode ≠ .solfeesFrontend) :
    verdict rpc mode (.methodCall jsonrpc "getVersion" params id) =
      match rpc.parsers.expectNoParams params with
      | .error error => .inl (createFailure jsonrpc id error)
      | .ok () => .inl (createSuccess jsonrpc id
          (.version rpc.solanaCore (some rpc.featureSet))) := by
  rw [verdict, if_neg (fun h => absurd h.1 (by decide)), if_neg (by decide),
    if_neg (fun h => absurd h.1 (by decide)), if_pos ⟨rfl, hmode⟩, SolanaRpc.versionOutput]
  cases rpc.parsers.expectNoParams params <;> rfl

end Reads

/-! ## The two sides of the verdicts -/

/-- One more verdict: a value or a blank, and the request of a blank. -/
def settle (pending : Pending) (verdict : JsonrpcOutput ⊕ RpcRequest) : Pending where
  outputs := pending.outputs ++ [verdict.getLeft?]
  requests := pending.requests ++ verdict.getRight?.toList

theorem push_eq (pending : Pending) (output : JsonrpcOutput) :
    pending.push output = settle pending (.inl output) := by
  simp [Pending.push, settle]

theorem pushParsed_eq (pending : Pending) (jsonrpc : Option JsonrpcVersion)
    (id : JsonrpcId) (parsed : Except JsonrpcError RpcRequest) :
    pending.pushParsed jsonrpc id parsed =
      settle pending (parsedVerdict jsonrpc id parsed) := by
  cases parsed with
  | ok request => simp [Pending.pushParsed, parsedVerdict, settle]
  | error error => exact push_eq pending _

/-- The arm with two places to push pushes in one of them. -/
theorem onRecentPrioritizationFees_eq (rpc : SolanaRpc Params) (mode : SolanaRpcMode)
    (pending : Pending) (jsonrpc : Option JsonrpcVersion) (params : Params)
    (id : JsonrpcId) :
    rpc.onRecentPrioritizationFees mode pending jsonrpc params id =
      settle pending
        (parsedVerdict jsonrpc id (feesRequest rpc mode jsonrpc params id)) := by
  cases mode <;> exact pushParsed_eq pending jsonrpc id _

/-- Whatever the call is, the loop body pushes one output, blank or not, and a
request only with a blank. -/
theorem onCall_eq (rpc : SolanaRpc Params) (mode : SolanaRpcMode)
    (pending : Pending) (call : JsonrpcCall Params) :
    rpc.onCall mode pending call = settle pending (verdict rpc mode call) := by
  cases call with
  | methodCall jsonrpc method params id =>
      simp only [SolanaRpc.onCall, SolanaRpc.onMethodCall, verdict, pushParsed_eq,
        push_eq, onRecentPrioritizationFees_eq]
      split_ifs <;> rfl
  | notification jsonrpc => exact push_eq pending _
  | invalid id => exact push_eq pending _

theorem foldl_onCall (rpc : SolanaRpc Params) (mode : SolanaRpcMode)
    (calls : List (JsonrpcCall Params)) (pending : Pending) :
    calls.foldl (rpc.onCall mode) pending =
      { outputs := pending.outputs ++
          calls.map fun call => (verdict rpc mode call).getLeft?
        requests := pending.requests ++
          calls.filterMap fun call => (verdict rpc mode call).getRight? } := by
  induction calls generalizing pending with
  | nil => simp
  | cons call calls ih =>
      rw [List.foldl_cons, onCall_eq, ih]
      cases hverdict : verdict rpc mode call <;> simp [settle, hverdict]

/-- The loop over the calls collects the two sides of the verdicts. -/
theorem pendingOf_eq (rpc : SolanaRpc Params) (mode : SolanaRpcMode)
    (calls : List (JsonrpcCall Params)) :
    rpc.pendingOf mode calls =
      { outputs := calls.map fun call => (verdict rpc mode call).getLeft?
        requests := calls.filterMap fun call => (verdict rpc mode call).getRight? } := by
  simp [SolanaRpc.pendingOf, foldl_onCall]

/-! ## The ids of the verdicts -/

theorem id_of_parsedVerdict {jsonrpc : Option JsonrpcVersion} {id : JsonrpcId}
    {parsed : Except JsonrpcError RpcRequest} {output : JsonrpcOutput}
    (h : parsedVerdict jsonrpc id parsed = .inl output) : output.id = id := by
  cases parsed with
  | ok request => cases h
  | error error =>
      cases h
      exact id_createFailure ..

theorem exists_of_parsedVerdict_map {A : Type} {jsonrpc : Option JsonrpcVersion}
    {id : JsonrpcId} {parsed : Except JsonrpcError A} {toRequest : A → RpcRequest}
    {request : RpcRequest}
    (h : parsedVerdict jsonrpc id (parsed.map toRequest) = .inr request) :
    ∃ a, toRequest a = request := by
  cases parsed with
  | ok a => exact ⟨a, Sum.inr.inj h⟩
  | error error => cases h

/-- An output decided at once carries the id of its call. -/
theorem id_of_verdict {rpc : SolanaRpc Params} {mode : SolanaRpcMode}
    {call : JsonrpcCall Params} {output : JsonrpcOutput}
    (h : verdict rpc mode call = .inl output) : output.id = callId call := by
  cases call with
  | methodCall jsonrpc method params id =>
      simp only [verdict] at h
      split_ifs at h
      · exact id_of_parsedVerdict h
      · exact id_of_parsedVerdict h
      · exact id_of_parsedVerdict h
      · cases h
        simp only [SolanaRpc.versionOutput]
        split
        · exact id_createFailure ..
        · exact id_createSuccess ..
      · cases h
        exact id_createFailure ..
  | notification jsonrpc =>
      cases h
      exact id_createFailure ..
  | invalid id =>
      cases h
      exact id_createFailure ..

/-- The request of a call carries the id of the call. -/
theorem requestId_of_verdict {rpc : SolanaRpc Params} {mode : SolanaRpcMode}
    {call : JsonrpcCall Params} {request : RpcRequest}
    (h : verdict rpc mode call = .inr request) : requestId request = callId call := by
  cases call with
  | methodCall jsonrpc method params id =>
      simp only [verdict] at h
      split_ifs at h
      · obtain ⟨_, rfl⟩ := exists_of_parsedVerdict_map h
        rfl
      · cases mode <;>
          · obtain ⟨_, rfl⟩ := exists_of_parsedVerdict_map h
            rfl
      · obtain ⟨_, rfl⟩ := exists_of_parsedVerdict_map h
        rfl
  | notification jsonrpc => cases h
  | invalid id => cases h

/-! ## The response -/

/-- An output answers a call of a mode in a state of the update loop: it carries
the id of the call, and it is the immediate output or the answer of the loop to
the request of the call. -/
structure Answers (rpc : SolanaRpc Params) (mode : SolanaRpcMode)
    (state : LoopState) (call : JsonrpcCall Params) (output : JsonrpcOutput) :
    Prop where
  id_eq : output.id = callId call
  settles : Settles (fun request output => state.onRequest request = .ok output)
    (verdict rpc mode call) output

theorem answers_of_settles {rpc : SolanaRpc Params} {mode : SolanaRpcMode}
    {state : LoopState} {call : JsonrpcCall Params} {output : JsonrpcOutput}
    (h : Settles (fun request output => state.onRequest request = .ok output)
      (verdict rpc mode call) output) : Answers rpc mode state call output := by
  refine ⟨?_, h⟩
  cases hverdict : verdict rpc mode call with
  | inl immediate =>
      rw [hverdict] at h
      rw [show output = immediate from h]
      exact id_of_verdict hverdict
  | inr request =>
      rw [hverdict] at h
      exact (id_onRequest h).trans (requestId_of_verdict hverdict)

/-- A response lines up with the calls: one output for a single call, and one
output for each call of a batch, in its order. -/
inductive LinesUp (answers : JsonrpcCall Params → JsonrpcOutput → Prop) :
    JsonrpcCalls Params → JsonrpcResponse → Prop
  | single {call : JsonrpcCall Params} {output : JsonrpcOutput}
      (h : answers call output) : LinesUp answers (.single call) (.single output)
  | batch {calls : List (JsonrpcCall Params)} {outputs : List JsonrpcOutput}
      (h : List.Forall₂ answers calls outputs) :
      LinesUp answers (.batch calls) (.batch outputs)

/-- Outputs for all the calls pass the checks at the end. -/
theorem finish_linesUp {answers : JsonrpcCall Params → JsonrpcOutput → Prop}
    {calls : JsonrpcCalls Params} {outputs : List JsonrpcOutput}
    (h : List.Forall₂ answers calls.calls outputs) :
    ∃ response, finish calls (outputs.map some) = .ok response ∧
      LinesUp answers calls response := by
  have hcollect : (outputs.map some).mapM id = some outputs := by
    rw [List.mapM_map]
    exact List.mapM_pure.trans (congrArg some (List.map_id outputs))
  have hlength : calls.calls.length = (outputs.map some).length := by
    rw [List.length_map, h.length_eq]
  simp only [finish, hlength, ne_eq, not_true_eq_false, if_false, hcollect]
  cases calls with
  | batch calls => exact ⟨_, rfl, .batch h⟩
  | single call =>
      change List.Forall₂ answers [call] outputs at h
      cases h with
      | cons hanswer hrest =>
          cases hrest
          exact ⟨_, rfl, .single hanswer⟩

/-- The answers that fill the blanks are merged into the outputs. -/
theorem merge_of_filled {pending : Pending} {reply : Reply}
    {responses result : List JsonrpcOutput}
    (hfilled : Filled pending.outputs responses result)
    (hnone : pending.requests = [] → responses = [])
    (hsome : pending.requests ≠ [] → reply = .answered responses) :
    pending.merge reply = .ok (result.map some) := by
  by_cases hempty : pending.requests = []
  · rw [hnone hempty] at hfilled
    rw [Pending.merge, if_pos (by rw [hempty]; rfl), hfilled.eq_of_nil]
  · rw [Pending.merge, if_neg (by rwa [List.isEmpty_iff]), hsome hempty]
    simp only [Reply.receive, fillFrom_zero hfilled]

/-- The requests that the loop over the calls queues. -/
def requestsOf (rpc : SolanaRpc Params) (mode : SolanaRpcMode)
    (calls : JsonrpcCalls Params) : List RpcRequest :=
  (rpc.pendingOf mode calls.calls).requests

/-- Answers to the queued requests give a response that lines up. -/
theorem onRequest_linesUp {rpc : SolanaRpc Params} {mode : SolanaRpcMode}
    {calls : JsonrpcCalls Params} {state : LoopState} {reply : Reply}
    (hmax : calls.calls.length ≤ rpc.requestCallsMax) {responses : List JsonrpcOutput}
    (hloop : state.onRequests (requestsOf rpc mode calls) = .ok responses)
    (hreply : requestsOf rpc mode calls ≠ [] → reply = .answered responses) :
    ∃ response, rpc.onRequest mode calls reply = .ok response ∧
      LinesUp (Answers rpc mode state) calls response := by
  have hanswers := forall₂_of_mapM hloop
  have hnone : requestsOf rpc mode calls = [] → responses = [] := by
    intro hempty
    rw [hempty] at hanswers
    exact List.forall₂_nil_left_iff.1 hanswers
  have hpending := pendingOf_eq rpc mode calls.calls
  rw [requestsOf, hpending] at hanswers
  obtain ⟨result, hfilled, hsettled⟩ :=
    exists_filled (verdict rpc mode) calls.calls hanswers
  have hmerge : (rpc.pendingOf mode calls.calls).merge reply =
      .ok (result.map some) := by
    refine merge_of_filled ?_ hnone hreply
    rwa [hpending]
  rw [SolanaRpc.onRequest, if_neg (not_lt.2 hmax), hmerge]
  exact finish_linesUp (hsettled.imp fun _ _ h => answers_of_settles h)

/-- The texts of the errors of outputs that do not match the calls. -/
def misalignments : List String :=
  ["output index out of bounds", "invalid number of outputs",
    "not all outputs created"]

/-- Without an answer of the loop the error is the one of the queue or of the
wait. -/
theorem onRequest_of_unanswered {rpc : SolanaRpc Params} {mode : SolanaRpcMode}
    {calls : JsonrpcCalls Params} {reply : Reply}
    (hmax : calls.calls.length ≤ rpc.requestCallsMax)
    (hnonempty : requestsOf rpc mode calls ≠ [])
    (hunanswered : ∀ responses, reply ≠ .answered responses) :
    ∃ error, rpc.onRequest mode calls reply = .error error ∧
      error.message ∉ misalignments := by
  have hasked : (rpc.pendingOf mode calls.calls).requests.isEmpty = false := by
    rwa [List.isEmpty_eq_false_iff]
  simp only [SolanaRpc.onRequest, if_neg (not_lt.2 hmax), Pending.merge, hasked,
    Bool.false_eq_true, if_false]
  cases reply with
  | answered responses => exact absurd rfl (hunanswered responses)
  | full => exact ⟨_, rfl, by decide⟩
  | closed => exact ⟨_, rfl, by decide⟩
  | shutdown => exact ⟨_, rfl, by decide⟩
  | timeout => exact ⟨_, rfl, by decide⟩
  | dropped => exact ⟨_, rfl, by decide⟩

/-- **Responses line up with their calls.**  Let the reply to a batch within the
limit, if the update loop answers it, be the answer of the loop in some state.
When the loop answers, or is not asked, `on_request` succeeds with the output of
every call in the place of the call; and whatever becomes of the queued requests,
the merge neither runs out of blanks nor leaves one. -/
theorem responses_line_up (rpc : SolanaRpc Params) (mode : SolanaRpcMode)
    (calls : JsonrpcCalls Params) (state : LoopState) (reply : Reply)
    (hmax : calls.calls.length ≤ rpc.requestCallsMax)
    (hreply : ∀ responses, reply = .answered responses →
      state.onRequests (requestsOf rpc mode calls) = .ok responses) :
    ((requestsOf rpc mode calls = [] ∨ ∃ responses, reply = .answered responses) →
      ∃ response, rpc.onRequest mode calls reply = .ok response ∧
        LinesUp (Answers rpc mode state) calls response) ∧
    ∀ error, rpc.onRequest mode calls reply = .error error →
      error.message ∉ misalignments := by
  have hanswered :
      (requestsOf rpc mode calls = [] ∨ ∃ responses, reply = .answered responses) →
        ∃ response, rpc.onRequest mode calls reply = .ok response ∧
          LinesUp (Answers rpc mode state) calls response := by
    rintro (hempty | ⟨responses, hresponses⟩)
    · have hloop : state.onRequests (requestsOf rpc mode calls) = .ok [] := by
        rw [hempty]
        rfl
      exact onRequest_linesUp hmax hloop (absurd hempty)
    · exact onRequest_linesUp hmax (hreply responses hresponses) fun _ => hresponses
  refine ⟨hanswered, ?_⟩
  intro error heq
  by_cases hserved : requestsOf rpc mode calls = [] ∨
      ∃ responses, reply = .answered responses
  · obtain ⟨response, hok, -⟩ := hanswered hserved
    rw [hok] at heq
    cases heq
  · obtain ⟨hnonempty, hnoAnswer⟩ := not_or.1 hserved
    obtain ⟨failure, hfailed, hother⟩ :=
      onRequest_of_unanswered hmax hnonempty (not_exists.1 hnoAnswer)
    rw [hfailed] at heq
    cases heq
    exact hother

/-! ## A batch of every kind of call -/

/-- The level confirmed and the minimal slot 3. -/
def sampleContext : RpcContextConfig := ⟨some .confirmed, some 3⟩

/-- Parsers on positional parameters that are lists of strings, one of them a config and
none of them a key. -/
def sampleParsers : Parsers (List (List String)) where
  context params :=
    if params.isEmpty then .ok none
    else if params = [["confirmed", "3"]] then .ok (some sampleContext)
    else .error (.invalidParams "Invalid params")
  latestBlockhashTriton params :=
    if params.isEmpty then .ok none else .error (.invalidParams "Invalid params")
  pubkeyStrs params := .ok params.head?
  pubkeyStrsTriton params := .ok (params.head?, none)
  slotsSubscribe params :=
    if params.isEmpty then .ok none else .error (.invalidParams "Invalid params")
  expectNoParams params :=
    if params.isEmpty then .ok ()
    else .error (.invalidParams "No parameters were expected")
  pubkey _ := .error "WrongSize"

def sampleRpc : SolanaRpc (List (List String)) where
  requestCallsMax := 9
  parsers := sampleParsers
  solanaCore := "1.18.22"
  featureSet := 1

def sampleCalls : JsonrpcCalls (List (List String)) :=
  .batch [
    .methodCall (some .v2) "getVersion" [] (.num 1),
    .methodCall (some .v2) "getSlot" [] (.num 2),
    .notification (some .v2),
    .methodCall (some .v2) "getRecentPrioritizationFees" [["key"]] (.num 3),
    .methodCall (some .v2) "getLatestBlockhash" [] (.num 4),
    .methodCall (some .v2) "getBlock" [] (.num 5),
    .invalid (.num 6),
    .methodCall (some .v2) "getSlot" [["confirmed", "3"]] (.num 7),
    .methodCall (some .v2) "getSlot" [["rooted"]] (.num 8)]

/-- The stores after one block at slot 0. -/
def sampleState : LoopState :=
  { LoopState.init with
    latestBlockhashStorage := LatestBlockhashStorage.empty.pushBlock 0 7 9
    slotsInfo := LoopState.init.slotsInfo.insert 0 (.new none 0 9 0 7 []) }

/-- What the loop answers to the three requests. -/
def sampleResponses : List JsonrpcOutput :=
  [createSuccess (some .v2) (.num 2) (.slot 0),
    createSuccess (some .v2) (.num 4) (.latestBlockhash 0 9 307),
    createFailure (some .v2) (.num 7) (.minContextSlotNotReached 0)]

/-- One output for each of the nine calls. -/
def sampleOutputs : List JsonrpcOutput :=
  [createSuccess (some .v2) (.num 1) (.version "1.18.22" (some 1)),
    createSuccess (some .v2) (.num 2) (.slot 0),
    createFailure (some .v2) .null .invalidRequest,
    createFailure (some .v2) (.num 3) (.invalidParams "Invalid param: WrongSize"),
    createSuccess (some .v2) (.num 4) (.latestBlockhash 0 9 307),
    createFailure (some .v2) (.num 5) .methodNotFound,
    createFailure none (.num 6) .invalidRequest,
    createFailure (some .v2) (.num 7) (.minContextSlotNotReached 0),
    createFailure (some .v2) (.num 8) (.invalidParams "Invalid params")]

theorem responses_line_up_sample :
    sampleRpc.onRequest .solana sampleCalls (.answered sampleResponses) =
        .ok (.batch sampleOutputs) ∧
      LinesUp (Answers sampleRpc .solana sampleState) sampleCalls (.batch sampleOutputs) ∧
      ∀ error,
        sampleRpc.onRequest .solana sampleCalls (.answered sampleResponses) =
          .error error → error.message ∉ misalignments := by
  have hreply : ∀ responses, Reply.answered sampleResponses = .answered responses →
      sampleState.onRequests (requestsOf sampleRpc .solana sampleCalls) =
        .ok responses := by
    intro responses hresponses
    cases hresponses
    rfl
  obtain ⟨hanswered, hnever⟩ :=
    responses_line_up sampleRpc .solana sampleCalls sampleState
      (.answered sampleResponses) (by decide) hreply
  obtain ⟨response, hresponse, hlines⟩ := hanswered (.inr ⟨_, rfl⟩)
  have houtputs : sampleRpc.onRequest .solana sampleCalls (.answered sampleResponses) =
      .ok (.batch sampleOutputs) := by
    decide +kernel
  obtain rfl := Except.ok.inj (houtputs.symm.trans hresponse)
  exact ⟨houtputs, hlines, hnever⟩

end Solfees.BatchResponses
