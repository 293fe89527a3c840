import Solfees.Rpc.WebSocket

/-!
# The frames of a connection

Whatever the order in which frames, updates and flushes are taken, the sink is
fed one answer for each event that calls for one, in the order of the events.
The waiting message is fed at the top of every turn, so no arm of the select
ever finds the place taken.
-/

namespace Solfees.SubscriptionFrames

open Solfees.BinarySearch
open Solfees.Broadcast
open Solfees.Fees
open Solfees.Json
open Solfees.Message
open Solfees.OnRequest
open Solfees.Run
open Solfees.UpdateLoop
open Solfees.WebSocket

variable {Params : Type} (codec : Codec Params)

/-! ## What each event calls for -/

/-- The text of a frame. -/
def messageText : WebSocketMessage → Option String
  | .text message => some message
  | .binary data => String.fromUTF8? ⟨data.toArray⟩
  | _ => none

/-- The `SlotsSubscribe` call that an event carries. -/
def callOf : Event → Option (JsonrpcMethodCall Params)
  | .received (some (some message)) => (messageText message).bind fun text =>
      (codec.fromStr text).filter fun call => decide (call.method = "SlotsSubscribe")
  | _ => none

/-- The filter that a call asks for, or why it gets none. -/
def askedFilter (call : JsonrpcMethodCall Params) :
    Except JsonrpcError SlotSubscribeFilter :=
  (codec.parse call.params).bind (filterTryFrom codec.pubkey)

/-- The id and the filter of a successful `SlotsSubscribe`. -/
def subscription (event : Event) : Option (JsonrpcId × SlotSubscribeFilter) :=
  (callOf codec event).bind fun call =>
    (askedFilter codec call).toOption.map fun filter => (call.id, filter)

/-- The id and the filter of the latest successful `SlotsSubscribe`. -/
def inForce (events : List Event) : Option (JsonrpcId × SlotSubscribeFilter) :=
  (events.filterMap (subscription codec)).getLast?

/-! The slot outputs are written out here, apart from `get_filtered`. -/

/-- The prices of a slot under a filter: those of the transactions that are no votes,
write all its writable keys and read all its others. -/
def pricesUnder (filter : SlotSubscribeFilter) (info : StreamsSlotInfo) : List UInt64 :=
  (info.transactions.filter fun tx => !tx.vote &&
    filter.readWrite.all (fun key => binarySearch tx.accounts.writable key) &&
    filter.readOnly.all fun key => binarySearch tx.accounts.readable key).map (·.unitPrice)

def meanOf (prices : List UInt64) : FeeAverage :=
  if prices = [] then .zero else .quotient prices.sum prices.length

/-- The price at a level, in ten-thousandths. -/
def levelOf (prices : List UInt64) (level : UInt16) : Option UInt64 :=
  (prices.insertionSort (· ≤ ·))[min level.toNat 9999 * prices.length / 10000]?

/-- What a frontend client is told of an update under its filter. -/
def toldFrontend (filter : SlotSubscribeFilter) :
    StreamsUpdateMessage → SlotsSubscribeOutput
  | .status slot commitment => .status slot commitment
  | .slot info => .slot {
      leader := info.leader
      slot := info.slot
      commitment := info.commitment
      hash := info.hash
      time := info.time
      height := info.height
      totalTransactionsFiltered := (pricesUnder filter info).length
      totalTransactionsVote := info.totalTransactionsVote
      totalTransactions := info.transactions.length
      feeAverage := meanOf (pricesUnder filter info)
      feeLevels := filter.levels.map (levelOf (pricesUnder filter info))
      totalFee := info.totalFee
      totalUnitsConsumed := info.totalUnitsConsumed }

/-- What the other clients are told of it. -/
def toldSolfees (filter : SlotSubscribeFilter) :
    StreamsUpdateMessage → SlotsSubscribeOutputSolana
  | .status slot commitment => .status slot commitment
  | .slot info => .slot {
      slot := info.slot
      commitment := info.commitment
      height := info.height
      totalTransactionsFiltered := (pricesUnder filter info).length
      totalTransactionsVote := info.totalTransactionsVote
      totalTransactions := info.transactions.length
      feeAverage := meanOf (pricesUnder filter info)
      feeLevels := filter.levels.map (levelOf (pricesUnder filter info)) }

/-- The output for an update, with the id of the subscription. -/
def toldOutput (frontend : Bool) (id : JsonrpcId) (filter : SlotSubscribeFilter)
    (update : StreamsUpdateMessage) : SubscriptionOutput :=
  .success none
    (if frontend then .frontend (toldFrontend filter update)
    else .solana (toldSolfees filter update)) id

/-- The response to a `SlotsSubscribe` call, with the version and the id of the call. -/
def responseTo (call : JsonrpcMethodCall Params) : SubscriptionOutput :=
  match askedFilter codec call with
  | .ok _ => .success call.jsonrpc .subscribed call.id
  | .error error => .failure call.jsonrpc error call.id

/-- What the client gets for an event: a pong, or the text of an output. -/
inductive Answer
  | pong (data : List UInt8)
  | output (output : SubscriptionOutput)
  deriving DecidableEq, Repr

/-- What an event calls for: a pong for a ping, a notification for an update while a
filter is in force, a response for a `SlotsSubscribe` call. -/
def answerFor (frontend : Bool) (before : List Event) (event : Event) : Option Answer :=
  match event with
  | .received (some (some (.ping data))) => some (.pong data)
  | .updated (.ok update) => (inForce codec before).map fun subscribed =>
      .output (toldOutput frontend subscribed.1 subscribed.2 update)
  | event => (callOf codec event).map fun call => .output (responseTo codec call)

def Answer.frame : Answer → WebSocketMessage
  | .pong data => .pong data
  | .output written => .text (codec.toString written)

/-- The frame that an event calls for. -/
def frameFor (frontend : Bool) (before : List Event) (event : Event) :
    Option WebSocketMessage :=
  (answerFor codec frontend before event).map (Answer.frame codec)

/-- The update that an event brings. -/
def updateOf : Event → Option StreamsUpdateMessage
  | .updated result => result.toOption
  | _ => none

/-- The updates that are notified. -/
def notified (frontend : Bool) (events : List Event) : List StreamsUpdateMessage :=
  emissions (fun before event =>
    if (frameFor codec frontend before event).isSome then updateOf event else none) events

/-! ## The outputs of the code -/

theorem filterPubkeys_eq (required pubkeys : List Pubkey) :
    SlotSubscribeFilter.filterPubkeys required pubkeys =
      required.all fun key => binarySearch pubkeys key := by
  cases required <;> rfl

theorem filteredFees_eq (info : StreamsSlotInfo) (filter : SlotSubscribeFilter) :
    info.filteredFees filter = pricesUnder filter info := by
  rw [StreamsSlotInfo.filteredFees, pricesUnder]
  congr 1
  apply List.filter_congr
  intro tx _
  rw [SlotSubscribeFilter.matchesTransaction, filterPubkeys_eq, filterPubkeys_eq]

theorem feeAverage_eq (prices : List UInt64) :
    (if prices.length = 0 then FeeAverage.zero else .quotient prices.sum prices.length) =
      meanOf prices := by
  rw [meanOf]
  cases prices <;> rfl

theorem feeLevels_eq (prices : List UInt64) (levels : List UInt16) :
    (if levels.isEmpty then []
      else levels.map (RecentPrioritizationFeesSlot.getPercentile (sortPrices prices))) =
      levels.map (levelOf prices) := by
  have hlevel : RecentPrioritizationFeesSlot.getPercentile (sortPrices prices) =
      levelOf prices := by
    funext level
    rw [RecentPrioritizationFeesSlot.getPercentile, sortPrices, levelOf,
      List.length_insertionSort]
  rw [hlevel]
  cases levels <;> rfl

theorem renderUpdate_eq (filter : SlotSubscribeFilter) (update : StreamsUpdateMessage) :
    renderUpdate filter update = toldFrontend filter update := by
  cases update with
  | status slot commitment => rfl
  | slot info =>
      simp only [renderUpdate, StreamsSlotInfo.getFiltered, StreamsSlotInfo.filteredOutput,
        filteredFees_eq, feeAverage_eq, feeLevels_eq, toldFrontend]

theorem from_toldFrontend (filter : SlotSubscribeFilter) (update : StreamsUpdateMessage) :
    SlotsSubscribeOutputSolana.from (toldFrontend filter update) =
      toldSolfees filter update := by
  cases update <;> rfl

/-- The notification is the text of what the client is to be told. -/
theorem notification_eq (frontend : Bool) (id : JsonrpcId) (filter : SlotSubscribeFilter)
    (update : StreamsUpdateMessage) :
    Connection.notification codec frontend id filter update =
      .text (codec.toString (toldOutput frontend id filter update)) := by
  rw [Connection.notification, renderUpdate_eq, toldOutput, ← from_toldFrontend]
  cases frontend <;> rfl

theorem emissions_frameFor (frontend : Bool) (events : List Event) :
    emissions (frameFor codec frontend) events =
      (emissions (answerFor codec frontend) events).map (Answer.frame codec) :=
  emissions_map (answerFor codec frontend) (Answer.frame codec) events

theorem inForce_concat (before : List Event) (event : Event) :
    inForce codec (before ++ [event]) = (subscription codec event).or
      (inForce codec before) := by
  rw [inForce, inForce, List.filterMap_append, List.getLast?_append]
  congr 1
  cases hevent : subscription codec event <;> simp [hevent]

/-! ## One turn -/

section Turn

variable {codec} {frontend : Bool} {connection next : Connection}

theorem onSlotsSubscribe_eq (call : JsonrpcMethodCall Params) :
    connection.onSlotsSubscribe codec call = {
      filter := ((askedFilter codec call).toOption.map fun filter =>
        (call.id, filter)).or connection.filter
      websocketTxMessage := some (.text (codec.toString (responseTo codec call)))
      flushRequired := connection.flushRequired
      fed := connection.fed } := by
  have hasked : requestedFilter codec call = askedFilter codec call := rfl
  rw [Connection.onSlotsSubscribe, responseTo, hasked]
  cases askedFilter codec call <;> rfl

/-- What a turn of the select leaves when the loop goes on: the frame that the
event calls for waits, and the filter in force is recorded. -/
structure Taken (codec : Codec Params) (frontend : Bool) (before : List Event)
    (event : Event) (connection next : Connection) : Prop where
  fed : next.fed = connection.fed
  waiting : next.websocketTxMessage = frameFor codec frontend before event
  filter : next.filter = inForce codec (before ++ [event])
  read : ∀ error, event ≠ .updated (.error error)

variable {before : List Event}

/-- A text that keeps the loop going is a `SlotsSubscribe` call. -/
theorem taken_of_onText {message : WebSocketMessage} {text : String}
    (htext : messageText message = some text)
    (hframe : frameFor codec frontend before (.received (some (some message))) =
      ((callOf codec (.received (some (some message)))).map fun call =>
        .output (responseTo codec call)).map (Answer.frame codec))
    (hfilter : connection.filter = inForce codec before)
    (h : connection.onText codec text = .ok next) :
    Taken codec frontend before (.received (some (some message))) connection next := by
  rw [Connection.onText] at h
  cases hcall : codec.fromStr text with
  | none => simp [hcall, Connection.leave] at h
  | some call =>
      simp only [hcall] at h
      by_cases hmethod : call.method = "SlotsSubscribe"
      · rw [if_pos hmethod, Except.ok.injEq, onSlotsSubscribe_eq] at h
        have hcallOf : callOf codec (.received (some (some message))) = some call := by
          rw [callOf, htext, Option.bind_some, hcall, Option.filter_some,
            if_pos (decide_eq_true hmethod)]
        rw [← h]
        refine ⟨rfl, ?_, ?_, fun error herror => by cases herror⟩
        · rw [hframe, hcallOf]
          rfl
        · rw [inForce_concat, ← hfilter, subscription, hcallOf, Option.bind_some]
      · rw [if_neg hmethod] at h
        cases h

/-- An event that calls for no frame and carries no call leaves the filter. -/
theorem taken_of_silent {event : Event} (hcall : callOf codec event = none)
    (hframe : frameFor codec frontend before event = none)
    (hread : ∀ error, event ≠ .updated (.error error))
    (hempty : connection.websocketTxMessage = none)
    (hfilter : connection.filter = inForce codec before)
    (hfed : next.fed = connection.fed)
    (hwaiting : next.websocketTxMessage = connection.websocketTxMessage)
    (hkept : next.filter = connection.filter) :
    Taken codec frontend before event connection next := by
  refine ⟨hfed, by rw [hwaiting, hempty, hframe], ?_, hread⟩
  rw [hkept, hfilter, inForce_concat, subscription, hcall]
  rfl

theorem taken_of_onReceived {message : Option (Option WebSocketMessage)}
    (hempty : connection.websocketTxMessage = none)
    (hfilter : connection.filter = inForce codec before)
    (h : connection.onReceived codec message = .ok next) :
    Taken codec frontend before (.received message) connection next := by
  match message with
  | none => cases h
  | some none => cases h
  | some (some (.text message)) => exact taken_of_onText rfl rfl hfilter h
  | some (some (.binary data)) =>
      rw [Connection.onReceived] at h
      split at h
      · exact taken_of_onText ‹_› rfl hfilter h
      · cases h
  | some (some (.ping data)) =>
      obtain rfl := Except.ok.inj h
      refine ⟨rfl, rfl, ?_, fun error herror => by cases herror⟩
      rw [inForce_concat, ← hfilter]
      rfl
  | some (some (.pong data)) =>
      obtain rfl := Except.ok.inj h
      exact taken_of_silent rfl rfl (fun error herror => by cases herror) hempty
        hfilter rfl rfl rfl
  | some (some (.close closeFrame)) => cases h
  | some (some (.frame data)) => cases h

theorem taken_of_onUpdated {result : Except RecvError StreamsUpdateMessage}
    (hempty : connection.websocketTxMessage = none)
    (hfilter : connection.filter = inForce codec before)
    (h : connection.onUpdated codec frontend result = .ok next) :
    Taken codec frontend before (.updated result) connection next := by
  match result with
  | .error .closed => cases h
  | .error (.lagged skipped) => cases h
  | .ok update =>
      have hread : ∀ error, Event.updated (.ok update) ≠ .updated (.error error) :=
        fun error herror => by cases herror
      rw [Connection.onUpdated] at h
      cases hsubscribed : connection.filter with
      | none =>
          simp only [hsubscribed] at h
          obtain rfl := Except.ok.inj h
          apply taken_of_silent rfl _ hread hempty hfilter rfl rfl rfl
          rw [frameFor, answerFor, ← hfilter, hsubscribed]
          rfl
      | some subscribed =>
          simp only [hsubscribed] at h
          obtain rfl := Except.ok.inj h
          refine ⟨rfl, ?_, ?_, hread⟩
          · rw [frameFor, answerFor, ← hfilter, hsubscribed]
            exact congrArg some (notification_eq codec frontend _ _ update)
          · rw [inForce_concat, ← hfilter, hsubscribed]
            rfl

/-- A turn of the select that keeps the loop going. -/
theorem taken_of_onEvent {event : Event}
    (hempty : connection.websocketTxMessage = none)
    (hfilter : connection.filter = inForce codec before)
    (h : connection.onEvent codec frontend event = .ok next) :
    Taken codec frontend before event connection next := by
  cases event with
  | received message => exact taken_of_onReceived hempty hfilter h
  | updated result => exact taken_of_onUpdated hempty hfilter h
  | flushed ok =>
      have hread : ∀ error, Event.flushed ok ≠ .updated (.error error) :=
        fun error herror => by cases herror
      rw [Connection.onEvent, Connection.onFlushed] at h
      split at h
      · split at h
        · obtain rfl := Except.ok.inj h
          exact taken_of_silent rfl rfl hread hempty hfilter rfl rfl rfl
        · cases h
      · obtain rfl := Except.ok.inj h
        exact taken_of_silent rfl rfl hread hempty hfilter rfl rfl rfl

theorem leave_error {closeReason : Option (Option String)} {exit : Exit}
    (h : connection.leave closeReason = .error exit) : exit.connection = connection := by
  rw [← Except.error.inj h]

/-- A text that ends the loop is no `SlotsSubscribe` call. -/
theorem left_of_onText (message : WebSocketMessage) {text : String} {exit : Exit}
    (htext : messageText message = some text)
    (h : connection.onText codec text = .error exit) :
    exit.connection = connection ∧
      callOf codec (.received (some (some message))) = none := by
  rw [Connection.onText] at h
  rw [callOf, htext, Option.bind_some]
  cases hcall : codec.fromStr text with
  | none =>
      simp only [hcall] at h
      exact ⟨leave_error h, rfl⟩
  | some call =>
      simp only [hcall] at h
      by_cases hmethod : call.method = "SlotsSubscribe"
      · rw [if_pos hmethod] at h
        cases h
      · rw [if_neg hmethod] at h
        exact ⟨leave_error h, by simp [hmethod]⟩

/-- A message without a call calls for no frame, unless it is a ping. -/
theorem frameFor_eq_none {message : WebSocketMessage} (hping : ∀ data, message ≠ .ping data)
    (hcall : callOf codec (.received (some (some message))) = none) :
    frameFor codec frontend before (.received (some (some message))) = none := by
  rw [frameFor, answerFor, hcall]
  · rfl
  · rintro data ⟨⟩
    exact hping data rfl
  · rintro update ⟨⟩

/-- A turn of the select that ends the loop calls for no frame. -/
theorem left_of_onEvent (before : List Event) {event : Event} {exit : Exit}
    (h : connection.onEvent codec frontend event = .error exit) :
    exit.connection = connection ∧ frameFor codec frontend before event = none := by
  match event with
  | .flushed ok =>
      rw [Connection.onEvent, Connection.onFlushed] at h
      split at h
      · split at h
        · cases h
        · exact ⟨leave_error h, rfl⟩
      · cases h
  | .updated (.ok update) =>
      rw [Connection.onEvent, Connection.onUpdated] at h
      split at h <;> cases h
  | .updated (.error .closed) => exact ⟨leave_error h, rfl⟩
  | .updated (.error (.lagged skipped)) => exact ⟨leave_error h, rfl⟩
  | .received none => exact ⟨leave_error h, rfl⟩
  | .received (some none) => exact ⟨leave_error h, rfl⟩
  | .received (some (some (.text message))) =>
      obtain ⟨hconnection, hcall⟩ := left_of_onText (.text message) rfl h
      exact ⟨hconnection, frameFor_eq_none (by rintro data ⟨⟩) hcall⟩
  | .received (some (some (.binary data))) =>
      rw [Connection.onEvent, Connection.onReceived] at h
      split at h
      · obtain ⟨hconnection, hcall⟩ := left_of_onText (.binary data) ‹_› h
        exact ⟨hconnection, frameFor_eq_none (by rintro data ⟨⟩) hcall⟩
      · rename_i htext
        have hcall : callOf codec (.received (some (some (.binary data)))) = none := by
          rw [callOf, messageText, htext]
          rfl
        exact ⟨leave_error h, frameFor_eq_none (by rintro data ⟨⟩) hcall⟩
  | .received (some (some (.ping data))) => cases h
  | .received (some (some (.pong data))) => cases h
  | .received (some (some (.close closeFrame))) => exact ⟨leave_error h, rfl⟩
  | .received (some (some (.frame data))) => exact ⟨leave_error h, rfl⟩

end Turn

/-! ## Whole connections -/

section Runs

variable {codec} {frontend : Bool} {before : List Turn} {connection : Connection}

/-- The connection at the top of the loop after the turns: the frames fed and the
one that waits are those called for, and nothing has failed. -/
structure Served (codec : Codec Params) (frontend : Bool) (turns : List Turn)
    (connection : Connection) : Prop where
  frames : connection.fed ++ connection.websocketTxMessage.toList =
    emissions (frameFor codec frontend) (turns.map Turn.event)
  filter : connection.filter = inForce codec (turns.map Turn.event)
  read : ∀ error, .updated (.error error) ∉ turns.map Turn.event

/-- A sink that takes every frame takes the one that waits. -/
theorem exists_feedPending (connection : Connection) :
    ∃ ready, connection.feedPending true = .ok ready := by
  rw [Connection.feedPending]
  cases connection.websocketTxMessage <;> exact ⟨_, rfl⟩

/-- After the top of the loop the place is free, and what waited is fed. -/
theorem fed_of_feedPending {feedOk : Bool} {ready : Connection}
    (h : connection.feedPending feedOk = .ok ready) :
    ready.websocketTxMessage = none ∧ ready.filter = connection.filter ∧
      ready.fed = connection.fed ++ connection.websocketTxMessage.toList := by
  rw [Connection.feedPending] at h
  cases hwaiting : connection.websocketTxMessage with
  | none =>
      rw [hwaiting] at h
      obtain rfl := Except.ok.inj h
      exact ⟨hwaiting, rfl, (List.append_nil _).symm⟩
  | some message =>
      simp only [hwaiting] at h
      split at h
      · obtain rfl := Except.ok.inj h
        exact ⟨rfl, rfl, rfl⟩
      · cases h

theorem served_turn {turn : Turn} {next : Connection}
    (h : Served codec frontend before connection)
    (hnext : connection.turn codec frontend turn = .ok next) :
    Served codec frontend (before ++ [turn]) next := by
  obtain ⟨ready, hready, hevent⟩ := exists_of_bind_eq_ok hnext
  obtain ⟨hempty, hfilter, hfed⟩ := fed_of_feedPending hready
  have htaken := taken_of_onEvent hempty (hfilter.trans h.filter) hevent
  refine ⟨?_, ?_, ?_⟩
  · rw [List.map_append, List.map_singleton, emissions_concat, htaken.fed,
      htaken.waiting, hfed, h.frames]
  · rw [List.map_append]
    exact htaken.filter
  · intro error hmem
    rw [List.map_append, List.mem_append] at hmem
    rcases hmem with hmem | hmem
    · exact h.read error hmem
    · exact htaken.read error (List.mem_singleton.1 hmem).symm

theorem served_of_run {turns : List Turn}
    (hrun : run (Connection.turn codec frontend) .init turns = .ok connection) :
    Served codec frontend turns connection :=
  run_invariant_of_ok (fun turns connection => Served codec frontend turns connection)
    ⟨rfl, rfl, fun _ => List.not_mem_nil⟩ (fun _ _ _ _ hserved => served_turn hserved) hrun

end Runs

/-! ## The updates that are notified -/

/-- The results that the receiver of the broadcast gave. -/
def resultsOf (events : List Event) : List (Except RecvError StreamsUpdateMessage) :=
  events.filterMap fun
    | .updated result => some result
    | _ => none

theorem items_resultsOf (events : List Event) :
    items (resultsOf events) = events.filterMap updateOf := by
  rw [items, resultsOf, List.filterMap_filterMap]
  congr 1
  funext event
  cases event <;> rfl

/-- The loop does not outlive an error of the receiver. -/
theorem stopsAtError_of_read {events : List Event}
    (hread : ∀ error, .updated (.error error) ∉ events) (last : Event) :
    StopsAtError (resultsOf (events ++ [last])) := by
  have hnot (error : RecvError) : .error error ∉ resultsOf events := by
    rw [resultsOf, List.mem_filterMap]
    rintro ⟨event, hmem, hresult⟩
    split at hresult
    · rw [Option.some.inj hresult] at hmem
      exact hread error hmem
    · cases hresult
  intro before error after hsplit
  rw [resultsOf, List.filterMap_append, ← resultsOf, ← resultsOf] at hsplit
  cases last with
  | updated result =>
      rcases concat_eq_append_cons_iff.1 hsplit with ⟨-, -, hafter⟩ | ⟨front, hfront, -⟩
      · exact hafter
      · exact absurd (hfront ▸ by simp) (hnot error)
  | flushed ok =>
      rw [show resultsOf [.flushed ok] = [] from rfl, List.append_nil] at hsplit
      exact absurd (hsplit ▸ by simp) (hnot error)
  | received message =>
      rw [show resultsOf [.received message] = [] from rfl, List.append_nil] at hsplit
      exact absurd (hsplit ▸ by simp) (hnot error)

theorem notified_concat (frontend : Bool) (events : List Event) (event : Event) :
    notified codec frontend (events ++ [event]) = notified codec frontend events ++
      (if (frameFor codec frontend events event).isSome
        then updateOf event else none).toList :=
  emissions_concat _ _ _

/-- The notified updates are all that were taken after the first successful
`SlotsSubscribe`. -/
theorem exists_skipped (frontend : Bool) (events : List Event) :
    ∃ skipped, events.filterMap updateOf = skipped ++ notified codec frontend events ∧
      (inForce codec events = none → notified codec frontend events = []) := by
  induction events using List.reverseRecOn with
  | nil => exact ⟨[], rfl, fun _ => rfl⟩
  | append_singleton events event ih =>
      obtain ⟨skipped, hsplit, hnone⟩ := ih
      have hnone' (h : inForce codec (events ++ [event]) = none) :
          inForce codec events = none := by
        rw [inForce_concat, Option.or_eq_none_iff] at h
        exact h.2
      rw [List.filterMap_append, hsplit, notified_concat]
      cases hupdate : updateOf event with
      | none =>
          refine ⟨skipped, ?_, fun h => ?_⟩
          · simp [hupdate]
          · simp [hnone (hnone' h)]
      | some update =>
          have hframe : (frameFor codec frontend events event).isSome =
              (inForce codec events).isSome := by
            match event, hupdate with
            | .updated (.ok update), _ =>
                rw [frameFor, answerFor, Option.isSome_map, Option.isSome_map]
          rw [hframe]
          cases hforce : inForce codec events with
          | none =>
              rw [hnone hforce]
              exact ⟨skipped ++ [update], by simp [hupdate], fun _ => by simp⟩
          | some subscribed =>
              refine ⟨skipped, by simp [hupdate], fun h => ?_⟩
              rw [hnone' h] at hforce
              cases hforce

/-! ## A connection from its start to its end -/

def isClose : WebSocketMessage → Bool
  | .close _ => true
  | _ => false

theorem isClose_of_frameFor {frontend : Bool} {before : List Event} {event : Event}
    {frame : WebSocketMessage} (h : frameFor codec frontend before event = some frame) :
    isClose frame = false := by
  obtain ⟨answer, -, rfl⟩ := Option.map_eq_some_iff.1 h
  cases answer <;> rfl

/-- The frames of a connection but for the close frame. -/
theorem filter_frames {frontend : Bool} {events : List Event} {exit : Exit}
    (hfed : exit.connection.fed = emissions (frameFor codec frontend) events) :
    exit.frames.filter (fun frame => !isClose frame) =
      emissions (frameFor codec frontend) events := by
  rw [Exit.frames, List.filter_append, hfed]
  have hframes : (emissions (frameFor codec frontend) events).filter
      (fun frame => !isClose frame) = emissions (frameFor codec frontend) events := by
    rw [List.filter_eq_self]
    intro frame hmem
    obtain ⟨before, event, after, -, hframe⟩ := (mem_emissions _).1 hmem
    rw [isClose_of_frameFor codec hframe]
    rfl
  rw [hframes]
  cases exit.closeReason <;> simp [isClose]

/-- The mode says whether the frontend is served. -/
theorem run_of_onWebsocket {mode : SolanaRpcMode} {turns : List Turn}
    {result : Except Exit Connection}
    (h : onWebsocket codec mode turns = some result) :
    run (Connection.turn codec (decide (mode = .solfeesFrontend))) .init turns =
      result := by
  cases mode with
  | solana => cases h
  | triton => cases h
  | solfees => exact Option.some.inj h
  | solfeesFrontend => exact Option.some.inj h

/-- A connection that goes on has gone on before. -/
theorem exists_onWebsocket_of_append {mode : SolanaRpcMode} {front back : List Turn}
    {connection : Connection}
    (h : onWebsocket codec mode (front ++ back) = some (.ok connection)) :
    ∃ waiting, onWebsocket codec mode front = some (.ok waiting) := by
  obtain ⟨frontend, hmode, hrun⟩ := Option.map_eq_some_iff.1 h
  obtain ⟨waiting, hwaiting, -⟩ := exists_run_of_append hrun
  exact ⟨waiting, by rw [onWebsocket, hmode, Option.map_some, hwaiting]⟩

/-- When the select is reached the place is free, and the latest successful
`SlotsSubscribe` is in force. -/
theorem exists_ready {mode : SolanaRpcMode} {before : List Turn} {waiting : Connection}
    (hwaiting : onWebsocket codec mode before = some (.ok waiting)) :
    ∃ ready, waiting.feedPending true = .ok ready ∧ ready.websocketTxMessage = none ∧
      ready.filter = inForce codec (before.map Turn.event) := by
  have hserved := served_of_run (run_of_onWebsocket codec hwaiting)
  obtain ⟨ready, hready⟩ := exists_feedPending waiting
  obtain ⟨hempty, hfilter, -⟩ := fed_of_feedPending hready
  exact ⟨ready, hready, hempty, hfilter.trans hserved.filter⟩

/-- A connection that is left with its last turn, with a sink that takes every
frame and a receiver at the start of the log.  But for the close frame it has
been fed one pong for each ping, one response for each `SlotsSubscribe` and one
notification for each update under a filter, in the order of the events, with the
filter and the id of the latest successful `SlotsSubscribe`.  No arm has found
the place of the waiting message taken, none is left there, and the notified
updates are a segment of the log. -/
theorem frames_in_order {mode : SolanaRpcMode} {taken : List Turn} {last : Turn}
    {connection : Connection} {exit : Exit}
    (hfeed : ∀ turn ∈ taken ++ [last], turn.feedOk = true)
    (hstay : onWebsocket codec mode taken = some (.ok connection))
    (hleave : onWebsocket codec mode (taken ++ [last]) = some (.error exit))
    {log : List StreamsUpdateMessage}
    (hreads : Reads log 0 (resultsOf ((taken ++ [last]).map Turn.event))) :
    exit.frames.filter (fun frame => !isClose frame) =
        emissions (frameFor codec (decide (mode = .solfeesFrontend)))
          ((taken ++ [last]).map Turn.event) ∧
      exit.connection.websocketTxMessage = none ∧
      (∀ before turn after, taken ++ [last] = before ++ turn :: after →
        ∃ waiting ready, onWebsocket codec mode before = some (.ok waiting) ∧
          waiting.feedPending turn.feedOk = .ok ready ∧
          ready.websocketTxMessage = none ∧
          ready.filter = inForce codec (before.map Turn.event)) ∧
      ∃ skipped rest,
        log = skipped ++ notified codec (decide (mode = .solfeesFrontend))
          ((taken ++ [last]).map Turn.event) ++ rest ∧
        ((taken ++ [last]).map Turn.event).filterMap updateOf =
          skipped ++ notified codec (decide (mode = .solfeesFrontend))
            ((taken ++ [last]).map Turn.event) := by
  have hrun := run_of_onWebsocket codec hstay
  have hserved := served_of_run hrun
  have hlast : connection.turn codec (decide (mode = .solfeesFrontend)) last =
      .error exit :=
    (run_concat_of_ok hrun last).symm.trans (run_of_onWebsocket codec hleave)
  obtain ⟨ready, hready⟩ := exists_feedPending connection
  obtain ⟨hempty, -, hfed⟩ := fed_of_feedPending hready
  rw [hserved.frames] at hfed
  rw [Connection.turn, hfeed last (by simp), hready] at hlast
  obtain ⟨hexit, hframe⟩ := left_of_onEvent (taken.map Turn.event) hlast
  refine ⟨?_, ?_, ?_, ?_⟩
  · apply filter_frames
    rw [hexit, hfed, List.map_append, List.map_singleton, emissions_concat, hframe,
      Option.toList_none, List.append_nil]
  · rw [hexit, hempty]
  · intro before turn after hsplit
    obtain ⟨waiting, hwaiting⟩ :
        ∃ waiting, onWebsocket codec mode before = some (.ok waiting) := by
      rcases concat_eq_append_cons_iff.1 hsplit with ⟨rfl, -, -⟩ | ⟨front, rfl, -⟩
      · exact ⟨connection, hstay⟩
      · exact exists_onWebsocket_of_append codec hstay
    rw [hfeed turn (by simp [hsplit])]
    exact ⟨waiting, (exists_ready codec hwaiting).imp fun _ h => ⟨hwaiting, h⟩⟩
  · obtain ⟨skipped, hskipped, -⟩ := exists_skipped codec
      (decide (mode = .solfeesFrontend)) ((taken ++ [last]).map Turn.event)
    have hprefix : items (resultsOf ((taken ++ [last]).map Turn.event)) <+:
        log.drop 0 := by
      apply items_prefix_of_reads hreads
      rw [List.map_append]
      exact stopsAtError_of_read hserved.read last.event
    obtain ⟨rest, hrest⟩ := hprefix
    refine ⟨skipped, rest, ?_, hskipped⟩
    rw [← hskipped, ← items_resultsOf, hrest, List.drop_zero]

/-! ## Texts

What `serde_json` writes of an output, whose result has its members in the order of their
names.  Nothing in the samples has to be escaped, and every mean is a whole number. -/

section Texts

def quoted (text : String) : String :=
  "\"" ++ text ++ "\""

def arrayText (items : List String) : String :=
  "[" ++ ",".intercalate items ++ "]"

def objectText (members : List (String × String)) : String :=
  "\x7b" ++ ",".intercalate (members.map fun member => quoted member.1 ++ ":" ++ member.2) ++
    "\x7d"

/-- The digits of a number in base 58, with a bound on how many there are. -/
def base58Digits : ℕ → ℕ → List Char
  | 0, _ => []
  | fuel + 1, number =>
      if number = 0 then []
      else base58Digits fuel (number / 58) ++
        ["123456789ABCDEFGHJKLMNPQRSTUVWXYZabcdefghijkmnopqrstuvwxyz".toList.getD
          (number % 58) '1']

/-- How many of so many bytes of a number are zero before the others. -/
def leadingZeros : ℕ → ℕ → ℕ
  | 0, _ => 0
  | bytes + 1, number => if number < 256 ^ bytes then leadingZeros bytes number + 1 else 0

def keyText (key : Pubkey) : String :=
  String.ofList (List.replicate (leadingZeros 32 key.val) '1' ++ base58Digits 44 key.val)

def commitmentText : CommitmentLevel → String
  | .processed => quoted "processed"
  | .confirmed => quoted "confirmed"
  | .finalized => quoted "finalized"

def meanText : FeeAverage → String
  | .zero => "0.0"
  | .quotient sum total =>
      if total ∣ sum.toNat then (sum.toNat / total).repr ++ ".0"
      else sum.toNat.repr ++ "/" ++ total.repr

def levelsText (levels : List (Option UInt64)) : String :=
  arrayText (levels.map fun level => level.elim "null" fun price => price.toNat.repr)

def resultText : SubscriptionResult → String
  | .subscribed => quoted "subscribed"
  | .frontend (.status slot commitment) | .solana (.status slot commitment) =>
      objectText [("status",
        objectText [("commitment", commitmentText commitment), ("slot", slot.repr)])]
  | .frontend (.slot output) => objectText [("slot", objectText
      [("commitment", commitmentText output.commitment),
        ("feeAverage", meanText output.feeAverage),
        ("feeLevels", levelsText output.feeLevels),
        ("hash", quoted (keyText output.hash)),
        ("height", output.height.toNat.repr),
        ("leader", quoted ((output.leader.map keyText).getD "")),
        ("slot", output.slot.repr),
        ("time", toString output.time),
        ("totalFee", output.totalFee.toNat.repr),
        ("totalTransactions", output.totalTransactions.repr),
        ("totalTransactionsFiltered", output.totalTransactionsFiltered.repr),
        ("totalTransactionsVote", output.totalTransactionsVote.repr),
        ("totalUnitsConsumed", output.totalUnitsConsumed.toNat.repr)])]
  | .solana (.slot output) => objectText [("slot", objectText
      [("commitment", commitmentText output.commitment),
        ("feeAverage", meanText output.feeAverage),
        ("feeLevels", levelsText output.feeLevels),
        ("height", output.height.toNat.repr),
        ("slot", output.slot.repr),
        ("totalTransactions", output.totalTransactions.repr),
        ("totalTransactionsFiltered", output.totalTransactionsFiltered.repr),
        ("totalTransactionsVote", output.totalTransactionsVote.repr)])]

def errorCode : ErrorCode → ℤ
  | .invalidRequest => -32600
  | .methodNotFound => -32601
  | .invalidParams => -32602
  | .internalError => -32603
  | .serverError code => code

def errorText (error : JsonrpcError) : String :=
  objectText ([("code", toString (errorCode error.code)), ("message", quoted error.message)] ++
    (error.data.map fun data => ("data",
      match data with
      | .text value => quoted value
      | .contextSlot slot => objectText [("contextSlot", slot.repr)])).toList)

def idText : JsonrpcId → String
  | .null => "null"
  | .num value => value.repr
  | .str value => quoted value

def versionMember (jsonrpc : Option JsonrpcVersion) : List (String × String) :=
  (jsonrpc.map fun _ => ("jsonrpc", quoted "2.0")).toList

def outputText : SubscriptionOutput → String
  | .success jsonrpc result id =>
      objectText (versionMember jsonrpc ++ [("result", resultText result), ("id", idText id)])
  | .failure jsonrpc error id =>
      objectText (versionMember jsonrpc ++ [("error", errorText error), ("id", idText id)])

example : outputText (.success (some .v2) (.frontend (.status 7 .processed)) (.num 1)) =
    "\x7b\"jsonrpc\":\"2.0\",\"result\":\x7b\"status\":\x7b\"commitment\":\"processed\"," ++
      "\"slot\":7\x7d\x7d,\"id\":1\x7d" := by
  decide +kernel

end Texts

/-! ## A connection that changes its filter -/

def subscribeCall (readWrite : List String) (levels : List UInt16) (id : ℕ) :
    JsonrpcMethodCall ReqParamsSlotsSubscribeConfig :=
  ⟨some .v2, "SlotsSubscribe", ⟨readWrite, [], levels⟩, .num id⟩

/-- The text of such a call. -/
def subscribeText (readWrite : List String) (levels : List UInt16) (id : ℕ) : String :=
  objectText (versionMember (some .v2) ++ [("method", quoted "SlotsSubscribe"),
    ("params", objectText [("readWrite", arrayText (readWrite.map quoted)),
      ("readOnly", arrayText []),
      ("levels", arrayText (levels.map fun level => level.toNat.repr))]),
    ("id", id.repr)])

/-- The calls of the sample; the level of the second is too high. -/
def sampleCalls : List (List String × List UInt16 × ℕ) :=
  [([keyText 1], [5000], 1), ([], [10001], 2), ([], [], 3)]

def sampleCodec : Codec ReqParamsSlotsSubscribeConfig where
  fromStr text := (sampleCalls.find? fun (readWrite, levels, id) =>
    subscribeText readWrite levels id = text).map fun (readWrite, levels, id) =>
      subscribeCall readWrite levels id
  parse := .ok
  pubkey text := if text = keyText 1 then .ok 1 else .error "WrongSize"
  toString := outputText

/-- One transaction of the block writes key 1, the other one key 2. -/
def pricedTransaction (key : Pubkey) (price : UInt64) : GeyserTransaction where
  signature := 0
  vote := false
  accounts := ⟨[key], [], [key], key⟩
  sigsCount := 1
  unitLimit := 0
  unitPrice := price
  unitsConsumed := none
  fee := 5000

def pricedBlock (slot : Slot) : StreamsSlotInfo :=
  .new none slot 9 0 4 [pricedTransaction 1 300, pricedTransaction 2 100]

def calling (readWrite : List String) (levels : List UInt16) (id : ℕ) : Event :=
  .received (some (some (.text (subscribeText readWrite levels id))))

def turnsBeforeClose : List Turn :=
  [.updated (.ok (.status 6 .processed)), calling [keyText 1] [5000] 1,
    .received (some (some (.ping [1]))), .updated (.ok (.slot (pricedBlock 7))),
    calling [] [10001] 2, .updated (.ok (.status 7 .confirmed)), calling [] [] 3,
    .updated (.ok (.slot (pricedBlock 8))), .flushed true].map (Turn.mk true)

def closeTurn : Turn := ⟨true, .received (some (some (.close none)))⟩

def sampleUpdates : List StreamsUpdateMessage :=
  [.status 6 .processed, .slot (pricedBlock 7), .status 7 .confirmed, .slot (pricedBlock 8)]

/-- Two transactions of the slot, of which so many pass the filter. -/
def pricedOutput (slot : Slot) (filtered : ℕ) (mean : FeeAverage)
    (levels : List (Option UInt64)) : SlotOutputSolana where
  slot := slot
  commitment := .processed
  height := 4
  totalTransactionsFiltered := filtered
  totalTransactionsVote := 0
  totalTransactions := 2
  feeAverage := mean
  feeLevels := levels

/-- The first filter lasts until the third call, the second one being refused. -/
def sampleAnswers : List Answer :=
  [.output (.success (some .v2) .subscribed (.num 1)), .pong [1],
    .output (.success none (.solana (.slot (pricedOutput 7 1 (.quotient 300 1) [some 300])))
      (.num 1)),
    .output (.failure (some .v2)
      (.invalidParams "percentile level is too big; max value is 10000") (.num 2)),
    .output (.success none (.solana (.status 7 .confirmed)) (.num 1)),
    .output (.success (some .v2) .subscribed (.num 3)),
    .output (.success none (.solana (.slot (pricedOutput 8 2 (.quotient 400 2) [])))
      (.num 3))]

theorem exists_ok_of_isOk {result : Option (Except Exit Connection)}
    (h : result.map Except.isOk = some true) :
    ∃ connection, result = some (.ok connection) := by
  obtain ⟨outcome, rfl, hok⟩ := Option.map_eq_some_iff.1 h
  cases outcome with
  | ok connection => exact ⟨connection, rfl⟩
  | error exit => cases hok

theorem exists_error_of_isOk {result : Option (Except Exit Connection)}
    (h : result.map Except.isOk = some false) : ∃ exit, result = some (.error exit) := by
  obtain ⟨outcome, rfl, hok⟩ := Option.map_eq_some_iff.1 h
  cases outcome with
  | ok connection => cases hok
  | error exit => exact ⟨exit, rfl⟩

theorem frames_in_order_changedFilter :
    ∃ exit, onWebsocket sampleCodec .solfees (turnsBeforeClose ++ [closeTurn]) =
        some (.error exit) ∧
      exit.frames.filter (fun frame => !isClose frame) =
        sampleAnswers.map (Answer.frame sampleCodec) ∧
      exit.connection.websocketTxMessage = none := by
  have hfeed : ∀ turn ∈ turnsBeforeClose ++ [closeTurn], turn.feedOk = true := by decide
  have hreads : Reads sampleUpdates 0
      (resultsOf ((turnsBeforeClose ++ [closeTurn]).map Turn.event)) :=
    .next rfl (.next rfl (.next rfl (.next rfl (.done 4))))
  have hanswers : emissions (answerFor sampleCodec false)
      ((turnsBeforeClose ++ [closeTurn]).map Turn.event) = sampleAnswers := by
    decide +kernel
  have hends : (onWebsocket sampleCodec .solfees (turnsBeforeClose ++ [closeTurn])).map
      Except.isOk = some false := by
    decide +kernel
  have hstays : (onWebsocket sampleCodec .solfees turnsBeforeClose).map Except.isOk =
      some true := by
    decide +kernel
  obtain ⟨connection, hstay⟩ := exists_ok_of_isOk hstays
  obtain ⟨exit, hleave⟩ := exists_error_of_isOk hends
  obtain ⟨hframes, hempty, -⟩ := frames_in_order sampleCodec hfeed hstay hleave hreads
  refine ⟨exit, hleave, hframes.trans ?_, hempty⟩
  rw [← hanswers, ← emissions_frameFor]
  rfl

end Solfees.SubscriptionFrames
