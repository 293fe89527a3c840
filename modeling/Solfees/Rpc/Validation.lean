import Solfees.Rpc.HubRuns

/-!
# What is served is within limits

Every call is checked on its way in: what the update loop is asked by a client of some
path, and what a connection filters the updates by, keeps the limits of the code, in
every state the server can reach.
-/

namespace Solfees.Sockets

open Solfees.Actors
open Solfees.BatchResponses
open Solfees.Fees
open Solfees.Filling
open Solfees.Json
open Solfees.Message
open Solfees.OnRequest
open Solfees.RpcServer
open Solfees.Run
open Solfees.SubscriptionFrames
open Solfees.UpdateLoop
open Solfees.WebSocket

variable {Params : Type}

/-- The limits of a filter. -/
structure WithinLimits (filter : SlotSubscribeFilter) : Prop where
  accounts : filter.readWrite.length + filter.readOnly.length ≤ maxTxAccountLocks
  levels : filter.levels.length ≤ 5
  level : ∀ level ∈ filter.levels, level ≤ 10000

/-- What the path of a mode serves, within its limits: no rollback for Solana, no
percentile either, and for the frontend nothing but the fees of slots. -/
def Allowed (mode : SolanaRpcMode) : RpcRequest → Prop
  | .latestBlockhash _ _ _ rollback _ =>
      mode ≠ .solfeesFrontend ∧ (mode = .solana → rollback = 0)
  | .recentPrioritizationFees _ _ pubkeys percentile =>
      pubkeys.length ≤ maxTxAccountLocks ∧
        (mode = .solana ∧ percentile = none ∨
          mode = .triton ∧ ∀ level ∈ percentile, level ≤ 10000)
  | .slot _ _ _ _ => mode ≠ .solfeesFrontend
  | .solfeesSlots _ _ filter frontend =>
      WithinLimits filter ∧
        (mode = .solfees ∧ frontend = false ∨ mode = .solfeesFrontend ∧ frontend = true)

/-! ## Keys, percentiles and filters -/

section Keys

variable {parsePubkey : String → Except String Pubkey}

/-- The keys are those that the texts say. -/
def KeysOf (parsePubkey : String → Except String Pubkey) (texts : List String)
    (keys : List Pubkey) : Prop :=
  List.Forall₂ (fun text key => parsePubkey text = .ok key) texts keys

theorem KeysOf.length_eq {texts : List String} {keys : List Pubkey}
    (h : KeysOf parsePubkey texts keys) : texts.length = keys.length :=
  List.Forall₂.length_eq h

/-- Texts are read as keys one by one, whatever is said of a text that is none. -/
theorem mapM_mapError_eq_ok_iff {render : String → String → JsonrpcError}
    {texts : List String} {keys : List Pubkey} :
    (texts.mapM fun text => (parsePubkey text).mapError (render text)) = .ok keys ↔
      KeysOf parsePubkey texts keys := by
  have hkey (text : String) (key : Pubkey) :
      (parsePubkey text).mapError (render text) = .ok key ↔ parsePubkey text = .ok key := by
    cases parsePubkey text with
    | error error => exact iff_of_false (fun h => by cases h) (fun h => by cases h)
    | ok parsed => simp [Except.mapError]
  rw [mapM_eq_ok_iff, KeysOf]
  simp only [hkey]

theorem verifyPubkeys_eq_ok_iff {pubkeyStrs : Option (List String)} {pubkeys : List Pubkey} :
    verifyPubkeys parsePubkey pubkeyStrs = .ok pubkeys ↔
      (pubkeyStrs.getD []).length ≤ maxTxAccountLocks ∧
        KeysOf parsePubkey (pubkeyStrs.getD []) pubkeys := by
  rw [verifyPubkeys]
  split
  next htoo => exact iff_of_false (fun h => by cases h) fun h => absurd htoo (not_lt.2 h.1)
  next hfew =>
    rw [← mapM_mapError_eq_ok_iff, and_iff_right (not_lt.1 hfew)]
    rfl

/-- A filter is accepted if its keys can be read and it is within the limits, and it has
these keys and the levels as they were asked for. -/
theorem filterTryFrom_eq_ok_iff {config : ReqParamsSlotsSubscribeConfig}
    {filter : SlotSubscribeFilter} :
    filterTryFrom parsePubkey config = .ok filter ↔
      KeysOf parsePubkey config.readWrite filter.readWrite ∧
      KeysOf parsePubkey config.readOnly filter.readOnly ∧
      filter.levels = config.levels ∧ WithinLimits filter := by
  constructor
  · intro h
    rw [filterTryFrom] at h
    split_ifs at h with haccounts hlevels hlevel
    obtain ⟨readWrite, hreadWrite, h⟩ := exists_of_bind_eq_ok h
    obtain ⟨readOnly, hreadOnly, h⟩ := exists_of_bind_eq_ok h
    obtain rfl := Except.ok.inj h
    have hwrite := mapM_mapError_eq_ok_iff.1 hreadWrite
    have hread := mapM_mapError_eq_ok_iff.1 hreadOnly
    refine ⟨hwrite, hread, rfl, ?_, not_lt.1 hlevels, fun level hmem => ?_⟩
    · rw [← hwrite.length_eq, ← hread.length_eq]
      exact not_lt.1 haccounts
    · by_contra htoo
      exact hlevel (List.any_eq_true.2 ⟨level, hmem, decide_eq_true (UInt16.not_le.1 htoo)⟩)
  · obtain ⟨readWrite, readOnly, levels⟩ := filter
    rintro ⟨hwrite, hread, rfl, haccounts, hlevels, hlevel⟩
    have hfits : ¬ (config.levels.any fun level => decide (10000 < level)) = true := by
      intro hany
      obtain ⟨level, hmem, htoo⟩ := List.any_eq_true.1 hany
      exact absurd (of_decide_eq_true htoo) (UInt16.not_lt.2 (hlevel level hmem))
    dsimp only at haccounts hwrite hread
    rw [← hwrite.length_eq, ← hread.length_eq] at haccounts
    rw [filterTryFrom, if_neg (not_lt.2 haccounts), if_neg (not_lt.2 hlevels), if_neg hfits,
      filterKeys, filterKeys, mapM_mapError_eq_ok_iff.2 hwrite, mapM_mapError_eq_ok_iff.2 hread]
    rfl

end Keys

/-! ## The requests of a call -/

section Requests

variable {rpc : SolanaRpc Params} {mode : SolanaRpcMode} {jsonrpc : Option JsonrpcVersion}
  {id : JsonrpcId} {params : Params} {request : RpcRequest}

theorem exists_of_parsedVerdict {parsed : Except JsonrpcError RpcRequest}
    (h : parsedVerdict jsonrpc id parsed = .inr request) : parsed = .ok request := by
  cases parsed with
  | ok queued => rw [Sum.inr.inj h]
  | error error => cases h

theorem exists_of_map_eq_ok {A B : Type} {parsed : Except JsonrpcError A} {f : A → B} {b : B}
    (h : parsed.map f = .ok b) : ∃ a, parsed = .ok a ∧ f a = b := by
  cases parsed with
  | error error => cases h
  | ok a => exact ⟨a, rfl, Except.ok.inj h⟩

theorem rollback_of_latestBlockhashParams {commitment : Option CommitmentLevel} {rollback : ℕ}
    {minContextSlot : Option Slot}
    (h : rpc.latestBlockhashParams .solana params = .ok (commitment, rollback, minContextSlot)) :
    rollback = 0 := by
  obtain ⟨config, -, hparams⟩ := exists_of_map_eq_ok h
  exact (congrArg (fun parsed => parsed.2.1) hparams).symm

/-- Solana's `getRecentPrioritizationFees` reads keys. -/
theorem feesRequest_solana_iff :
    feesRequest rpc .solana jsonrpc params id = .ok request ↔
      ∃ pubkeyStrs pubkeys, rpc.parsers.pubkeyStrs params = .ok pubkeyStrs ∧
        verifyPubkeys rpc.parsers.pubkey pubkeyStrs = .ok pubkeys ∧
        request = .recentPrioritizationFees jsonrpc id pubkeys none := by
  rw [feesRequest, SolanaRpc.feesParamsSolana]
  constructor
  · intro h
    obtain ⟨⟨pubkeys, percentile⟩, hparams, rfl⟩ := exists_of_map_eq_ok h
    obtain ⟨pubkeyStrs, hstrs, hparams⟩ := exists_of_bind_eq_ok hparams
    obtain ⟨keys, hkeys, hparams⟩ := exists_of_bind_eq_ok hparams
    obtain ⟨rfl, rfl⟩ := Prod.mk.inj (Except.ok.inj hparams)
    exact ⟨pubkeyStrs, keys, hstrs, hkeys, rfl⟩
  · rintro ⟨pubkeyStrs, pubkeys, hstrs, hkeys, rfl⟩
    simp [hstrs, hkeys, bind, Except.bind, pure, Except.pure, Except.map]

/-- Triton's reads keys and a percentile. -/
theorem feesRequest_triton_iff :
    feesRequest rpc .triton jsonrpc params id = .ok request ↔
      ∃ pubkeyStrs config pubkeys,
        rpc.parsers.pubkeyStrsTriton params = .ok (pubkeyStrs, config) ∧
        verifyPubkeys rpc.parsers.pubkey pubkeyStrs = .ok pubkeys ∧
        (∀ percentile ∈ config.bind fun config => config.percentile, percentile ≤ 10000) ∧
        request = .recentPrioritizationFees jsonrpc id pubkeys
          (config.bind fun config => config.percentile) := by
  have hconfig (config : Option RpcRecentPrioritizationFeesConfigTriton) :
      (config.getD RpcRecentPrioritizationFeesConfigTriton.default).percentile =
        config.bind fun config => config.percentile := by
    cases config <;> rfl
  have hsmall (percentile : Option UInt16) :
      ¬ (percentile.any fun percentile => decide (10000 < percentile)) = true ↔
        ∀ level ∈ percentile, level ≤ 10000 := by
    cases percentile <;> simp
  rw [feesRequest, SolanaRpc.feesParamsTriton]
  constructor
  · intro h
    obtain ⟨⟨pubkeys, percentile⟩, hparams, rfl⟩ := exists_of_map_eq_ok h
    obtain ⟨⟨pubkeyStrs, config⟩, hstrs, hparams⟩ := exists_of_bind_eq_ok hparams
    obtain ⟨keys, hkeys, hparams⟩ := exists_of_bind_eq_ok hparams
    dsimp only at hparams
    rw [hconfig] at hparams
    split_ifs at hparams with hlevel
    obtain ⟨rfl, rfl⟩ := Prod.mk.inj (Except.ok.inj hparams)
    exact ⟨pubkeyStrs, config, keys, hstrs, hkeys, (hsmall _).1 hlevel, rfl⟩
  · rintro ⟨pubkeyStrs, config, pubkeys, hstrs, hkeys, hlevel, rfl⟩
    simp [hstrs, hkeys, hconfig, if_neg ((hsmall _).2 hlevel), bind, Except.bind, pure,
      Except.pure, Except.map]

/-- The reply for the slots is asked for under the filter of the config. -/
theorem slotsParams_eq_ok_iff {filter : SlotSubscribeFilter} :
    rpc.slotsParams params = .ok filter ↔
      ∃ config, rpc.parsers.slotsSubscribe params = .ok config ∧
        filterTryFrom rpc.parsers.pubkey (config.getD .default) = .ok filter := by
  constructor
  · exact exists_of_bind_eq_ok
  · rintro ⟨config, hconfig, hfilter⟩
    rw [SolanaRpc.slotsParams, hconfig]
    exact hfilter

theorem withinLimits_of_slotsParams {filter : SlotSubscribeFilter}
    (h : rpc.slotsParams params = .ok filter) : WithinLimits filter := by
  obtain ⟨config, -, hfilter⟩ := slotsParams_eq_ok_iff.1 h
  exact (filterTryFrom_eq_ok_iff.1 hfilter).2.2.2

theorem length_of_verifyPubkeys {pubkeyStrs : Option (List String)} {pubkeys : List Pubkey}
    (h : verifyPubkeys rpc.parsers.pubkey pubkeyStrs = .ok pubkeys) :
    pubkeys.length ≤ maxTxAccountLocks := by
  obtain ⟨hlength, hkeys⟩ := verifyPubkeys_eq_ok_iff.1 h
  rwa [← hkeys.length_eq]

/-- The two Solana paths check the keys, and one of them a percentile. -/
theorem allowed_of_feesRequest (h : feesRequest rpc mode jsonrpc params id = .ok request) :
    Allowed mode request := by
  cases mode with
  | solana =>
      obtain ⟨pubkeyStrs, pubkeys, -, hkeys, rfl⟩ := feesRequest_solana_iff.1 h
      exact ⟨length_of_verifyPubkeys hkeys, Or.inl ⟨rfl, rfl⟩⟩
  | triton =>
      obtain ⟨pubkeyStrs, config, pubkeys, -, hkeys, hlevel, rfl⟩ :=
        feesRequest_triton_iff.1 h
      exact ⟨length_of_verifyPubkeys hkeys, Or.inr ⟨rfl, hlevel⟩⟩
  | solfees =>
      obtain ⟨filter, hparams, rfl⟩ := exists_of_map_eq_ok h
      exact ⟨withinLimits_of_slotsParams hparams, Or.inl ⟨rfl, rfl⟩⟩
  | solfeesFrontend =>
      obtain ⟨filter, hparams, rfl⟩ := exists_of_map_eq_ok h
      exact ⟨withinLimits_of_slotsParams hparams, Or.inr ⟨rfl, rfl⟩⟩

theorem allowed_of_verdict {call : JsonrpcCall Params}
    (h : verdict rpc mode call = .inr request) : Allowed mode request := by
  cases call with
  | methodCall jsonrpc method params id =>
      simp only [verdict] at h
      split_ifs at h with hlatest hfees hslot
      · obtain ⟨⟨commitment, rollback, minContextSlot⟩, hparams, rfl⟩ :=
          exists_of_map_eq_ok (exists_of_parsedVerdict h)
        refine ⟨hlatest.2, ?_⟩
        rintro rfl
        exact rollback_of_latestBlockhashParams hparams
      · exact allowed_of_feesRequest (exists_of_parsedVerdict h)
      · obtain ⟨_, -, rfl⟩ := exists_of_map_eq_ok (exists_of_parsedVerdict h)
        exact hslot.2
  | notification jsonrpc => cases h
  | invalid id => cases h

theorem allowed_of_mem_requestsOf {calls : JsonrpcCalls Params}
    (h : request ∈ requestsOf rpc mode calls) : Allowed mode request := by
  rw [requestsOf, pendingOf_eq] at h
  obtain ⟨call, -, hcall⟩ := List.mem_filterMap.1 h
  exact allowed_of_verdict (Sum.getRight?_eq_some_iff.1 hcall)

theorem length_requestsOf_le (calls : JsonrpcCalls Params) :
    (requestsOf rpc mode calls).length ≤ calls.calls.length := by
  rw [requestsOf, pendingOf_eq]
  exact List.length_filterMap_le _ _

end Requests

/-! ## The filters of the connections -/

section Filters

variable {codec : Codec Params}

theorem withinLimits_of_inForce {events : List WebSocket.Event} {id : JsonrpcId}
    {filter : SlotSubscribeFilter} (h : inForce codec events = some (id, filter)) :
    WithinLimits filter := by
  obtain ⟨event, -, hevent⟩ := List.mem_filterMap.1 (List.mem_of_getLast? h)
  obtain ⟨call, -, hcall⟩ := Option.bind_eq_some_iff.1 hevent
  cases hasked : askedFilter codec call with
  | error error =>
      rw [hasked] at hcall
      cases hcall
  | ok asked =>
      rw [hasked] at hcall
      obtain ⟨-, rfl⟩ := Prod.mk.inj (Option.some.inj hcall)
      obtain ⟨config, -, hconfig⟩ := exists_of_bind_eq_ok hasked
      exact (filterTryFrom_eq_ok_iff.1 hconfig).2.2.2

end Filters

/-! ## In every run -/

/-- No more batches wait than the queue takes, no batch has more requests than a client may
send, and each is allowed on the path it came by.  The updates of an open connection are
filtered by its latest call that was in order, which keeps the limits of a filter. -/
structure ServedWithinLimits (setup : Setup Params) (hub : Hub Params) : Prop where
  queue : hub.server.queue.length ≤ setup.requestQueueMax
  batches : ∀ number requests,
    hub.server.requestAt (service setup.rpc setup.requestQueueMax) number = some requests →
      requests.length ≤ setup.rpc.requestCallsMax ∧
      ∃ ticket, hub.server.tickets[number]? = some ticket ∧
        ∀ request ∈ requests, Allowed ticket.call.mode request
  filters : ∀ (number : ℕ) (socket : Socket) (connection : Connection),
    hub.sockets[number]? = some socket → socket.status = .ok connection →
      connection.filter = inForce setup.codec (socket.turns.map Turn.event) ∧
      ∀ id filter, connection.filter = some (id, filter) → WithinLimits filter

variable {setup : Setup Params} {hub : Hub Params} {events : List (HubEvent Params)}

/-- **Nothing gets past the checks**, in whatever order clients call and connections are
served. -/
theorem served_within_limits (hrun : runHub setup events = .ok hub) :
    ServedWithinLimits setup hub where
  queue := (sound_of_run (runServer_of_runHub hrun)).bounded
  batches := by
    intro number requests hrequests
    obtain ⟨ticket, hticket, hasked⟩ := Option.bind_eq_some_iff.1 hrequests
    obtain ⟨hmax, rfl, -⟩ := requestsOf?_eq_some hasked
    exact ⟨(length_requestsOf_le _).trans hmax, ticket, hticket,
      fun request hmem => allowed_of_mem_requestsOf hmem⟩
  filters := by
    intro number socket connection hsocket hopen
    obtain ⟨base, -, hfollows⟩ := exists_follows hrun hsocket
    have hfilter := (SubscriptionFrames.served_of_run (hfollows.run.trans hopen)).filter
    refine ⟨hfilter, fun id filter hforce => ?_⟩
    exact withinLimits_of_inForce (hfilter.symm.trans hforce)

/-- The client of `catchingUp` waits for one batch, with one request. -/
theorem served_within_limits_catchingUp :
    ∃ hub, runHub sampleSetup (subscribing ++ catchingUp.take 1) = .ok hub ∧
      hub.server.queue = [0] ∧ ServedWithinLimits sampleSetup hub := by
  have hview : (runHub sampleSetup (subscribing ++ catchingUp.take 1)).toOption.map (fun hub =>
      hub.server.queue) = some [0] := by
    decide +kernel
  obtain ⟨hub, hrun, hqueue⟩ := exists_ok_of_view hview
  exact ⟨hub, hrun, hqueue, served_within_limits hrun⟩

end Solfees.Sockets
