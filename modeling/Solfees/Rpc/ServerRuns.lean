import Solfees.Rpc.RequestSafety
import Solfees.Rpc.Server

/-!
# Runs of the server

Whatever the order in which messages are pushed, clients call and leave, and the
loop takes its steps: a response shows the stores at one moment, later calls see
later moments, nobody waits for ever, and nothing that was pushed before the
shutdown is lost.
-/

namespace Solfees.RpcServer

open Solfees.Actors
open Solfees.BatchResponses
open Solfees.Json
open Solfees.LatestBlockhash
open Solfees.Message
open Solfees.MessageJournal
open Solfees.OnRequest
open Solfees.RequestSafety
open Solfees.Run
open Solfees.UpdateLoop

variable {Params : Type} {rpc : SolanaRpc Params} {requestQueueMax : ℕ}
  {events : List (ServerEvent Params)} {server : Server Params} {client : ℕ}

/-! ## The loop does not stop by itself -/

/-- Blocks that no request can walk past: none is of slot 0, and their heights leave
room for the last valid height. -/
def Walkable (events : List (ServerEvent Params)) : Prop :=
  ∀ block, .push (some (.slot block)) ∈ events →
    block.slot ≠ 0 ∧ block.height.toNat < 2 ^ 64 - 300

theorem exists_mapM {A B E : Type} {f : A → Except E B} {xs : List A}
    (h : ∀ x ∈ xs, ∃ y, f x = .ok y) : ∃ ys, xs.mapM f = .ok ys := by
  induction xs with
  | nil => exact ⟨[], rfl⟩
  | cons x xs ih =>
      obtain ⟨y, hy⟩ := h x List.mem_cons_self
      obtain ⟨ys, hys⟩ := ih fun x hx => h x (List.mem_cons_of_mem _ hx)
      exact ⟨y :: ys, by rw [List.mapM_cons, hy, hys]; rfl⟩

/-- Over blocks that no request can walk past, every batch is answered. -/
theorem exists_onRequests {messages : List GeyserMessage}
    (hblocks : ∀ block, .slot block ∈ messages →
      block.slot ≠ 0 ∧ block.height.toNat < 2 ^ 64 - 300)
    {state : LoopState} (hrun : LoopState.runUpdateLoop messages = .ok state)
    (requests : List RpcRequest) : ∃ outputs, state.onRequests requests = .ok outputs := by
  refine exists_mapM fun request _ => ?_
  have hheights := heightsFit_of_run (fun block hblock => (hblocks block hblock).2) hrun
  rw [onRequest_ok_iff hheights]
  cases request with
  | latestBlockhash jsonrpc id commitment rollback minContextSlot =>
      intro _ _ _ _ hzero
      obtain ⟨value, hvalue⟩ := Option.isSome_iff_exists.1
        (Std.ExtTreeMap.isSome_getElem?_iff_mem.2 hzero)
      obtain ⟨info, hinfo, -⟩ := (storesShow_of_run hrun).2.storage 0 value hvalue
      obtain ⟨before, block, since, rfl, hslot, -⟩ := exists_latest_block hinfo
      exact absurd hslot (hblocks block (by simp)).1
  | recentPrioritizationFees jsonrpc id pubkeys percentile => trivial
  | slot jsonrpc id commitment minContextSlot => trivial
  | solfeesSlots jsonrpc id filter frontend => trivial

/-- The messages that the loop has applied, and that they were pushed. -/
theorem exists_applied (hrun : runServer rpc requestQueueMax events = .ok server)
    (hphase : server.phase ≠ .ended) :
    ∃ applied, LoopState.runUpdateLoop applied = .ok server.state ∧
      applied.map some ++ server.messages = pushes events := by
  obtain ⟨applied, h⟩ := logged_of_run hrun
  exact ⟨applied, h.state, h.going hphase⟩

theorem exists_server (hblocks : Walkable events) :
    ∃ server, runServer rpc requestQueueMax events = .ok server := by
  induction events using List.reverseRecOn with
  | nil => exact ⟨_, rfl⟩
  | append_singleton events event ih =>
      obtain ⟨server, hrun⟩ := ih fun block hblock =>
        hblocks block (List.mem_append_left _ hblock)
      rw [runServer, runActor_concat hrun event]
      cases event with
      | turn =>
          apply exists_onTurn
          · intro message messages hphase hmessages
            obtain ⟨applied, hstate, -⟩ := exists_applied hrun (by simp [hphase])
            obtain ⟨next, hnext, -⟩ := Eviction.runUpdateLoop_ok (applied ++ [message])
            exact ⟨next, (run_concat_of_ok hstate message).symm.trans hnext⟩
          · intro ticket requests hphase hrequests
            obtain ⟨applied, hstate, hpushed⟩ := exists_applied hrun (by simp [hphase])
            refine exists_onRequests (fun block hblock => ?_) hstate requests
            apply hblocks block
            have hmem : some (.slot block) ∈ pushes events := by
              rw [← hpushed]
              exact List.mem_append_left _ (List.mem_map_of_mem hblock)
            obtain ⟨pushed, hpushedMem, hevent⟩ := List.mem_filterMap.1 hmem
            cases pushed <;> simp [Event.pushed?] at hevent
            subst hevent
            exact List.mem_append_left _ hpushedMem
      | _ => exact ⟨_, rfl⟩

/-- **No order of events stops the update loop.**  Whatever clients ask and whenever
they leave, the loop does not fail, and its stores are those after the messages that
it has taken, which are the first of the ones pushed. -/
theorem server_keeps_going (hblocks : Walkable events) :
    ∃ server applied, runServer rpc requestQueueMax events = .ok server ∧
      LoopState.runUpdateLoop applied = .ok server.state ∧
      applied.map some <+: pushes events := by
  obtain ⟨server, hrun⟩ : ∃ server, runServer rpc requestQueueMax events = .ok server :=
    exists_server hblocks
  obtain ⟨applied, h⟩ := logged_of_run hrun
  exact ⟨server, applied, hrun, h.state, h.applied_prefix⟩

/-- A client that asks for the slot. -/
def slotCall : HttpCall (List (List String)) :=
  ⟨.solana, .single (.methodCall (some .v2) "getSlot" [] (.num 1))⟩

/-- A block and its status are pushed, and a client asks for the slot while the loop
is at its first message. -/
def askedEarly : List (ServerEvent (List (List String))) :=
  [.push (some (.slot (.bare 6 5 9 1))), .push (some (.status 6 .finalized)),
    .call slotCall, .turn]

/-- The loop goes on until the client has its answer. -/
def servedLate : List (ServerEvent (List (List String))) :=
  [.turn, .turn, .turn, .turn, .turn, .receive 0]

theorem walkable_askedEarly : Walkable askedEarly := by
  simp [Walkable, askedEarly, Block.bare]

theorem server_keeps_going_askedEarly :
    ∃ server applied, runServer sampleRpc 1 askedEarly = .ok server ∧
      LoopState.runUpdateLoop applied = .ok server.state ∧
      applied.map some <+: pushes askedEarly :=
  server_keeps_going walkable_askedEarly

/-- The outcomes of the tickets. -/
def outcomes (server : Server Params) :
    List (Option (Outcome (List JsonrpcOutput) Leaving)) :=
  server.tickets.map Ticket.outcome

theorem exists_ticket_of_outcomes {outcome : Option (Outcome (List JsonrpcOutput) Leaving)}
    (h : (outcomes server)[client]? = some outcome) :
    ∃ ticket, server.tickets[client]? = some ticket ∧ ticket.outcome = outcome := by
  rw [outcomes, List.getElem?_map, Option.map_eq_some_iff] at h
  exact h

/-! ## What a response shows -/

/-- A client has a response that lines up with its call in the state after
`messages`.  These are all the messages pushed before `front` ends: there the loop
looked for messages, found none, and took the batch with its next step. -/
structure AnsweredFrom (rpc : SolanaRpc Params) (requestQueueMax : ℕ)
    (events : List (ServerEvent Params)) (client : ℕ) (front : List (ServerEvent Params))
    (messages : List GeyserMessage) : Prop where
  look : ∃ looked, Took (service rpc requestQueueMax) events client front looked
  pushed : pushes front = messages.map some
  answered : ∃ server call state result, runServer rpc requestQueueMax events = .ok server ∧
    server.callAt client = some call ∧ LoopState.runUpdateLoop messages = .ok state ∧
    response rpc server client = some (.ok result) ∧
    LinesUp (Answers rpc call.mode state) call.calls result

theorem exists_ticket_of_response {result : Except RequestError JsonrpcResponse}
    (h : response rpc server client = some result) :
    ∃ ticket outcome reply, server.tickets[client]? = some ticket ∧
      ticket.outcome = some outcome ∧ replyOf outcome = some reply ∧
      result = rpc.onRequest ticket.call.mode ticket.call.calls reply := by
  obtain ⟨ticket, hticket, h⟩ := Option.bind_eq_some_iff.1 h
  obtain ⟨outcome, houtcome, h⟩ := Option.bind_eq_some_iff.1 h
  obtain ⟨reply, hreply, h⟩ := Option.bind_eq_some_iff.1 h
  exact ⟨ticket, outcome, reply, hticket, houtcome, hreply, (Option.some.inj h).symm⟩

theorem response_eq (rpc : SolanaRpc Params)
    {ticket : Ticket (HttpCall Params) (List JsonrpcOutput) Leaving}
    (hticket : server.tickets[client]? = some ticket)
    {outcome : Outcome (List JsonrpcOutput) Leaving}
    (houtcome : ticket.outcome = some outcome) {reply : Reply}
    (hreply : replyOf outcome = some reply) :
    response rpc server client =
      some (rpc.onRequest ticket.call.mode ticket.call.calls reply) := by
  rw [response, hticket]
  simp only [Option.bind_eq_bind, Option.bind_some, houtcome, hreply]
  rfl

/-- The errors of a call that queues a batch. -/
def waitErrors : List RequestError :=
  [.queueFull, .loopClosed, .connectionClosed, .timeout, .dropped]

/-- The answer of the loop to a client is taken from the state at a look. -/
theorem exists_answeredFrom (hrun : runServer rpc requestQueueMax events = .ok server)
    {ticket : Ticket (HttpCall Params) (List JsonrpcOutput) Leaving}
    (hticket : server.tickets[client]? = some ticket) {outputs : List JsonrpcOutput}
    (houtcome : ticket.outcome = some (.answered outputs)) :
    ∃ front messages, AnsweredFrom rpc requestQueueMax events client front messages := by
  have hfits := ((sound_of_run hrun).consistent ticket (List.mem_of_getElem? hticket)).fits
  rw [Ticket.Fits, houtcome] at hfits
  have hcall := Actor.callAt_of_getElem? hticket
  obtain ⟨front, looked, messages, state, requests, htook, hpushed, hstate, hasked, hanswer⟩ :=
    answered_from_look hrun ((Actor.mailboxAt_of_getElem? hticket).trans hfits.1)
  rw [Actor.requestAt_eq_bind, hcall] at hasked
  obtain ⟨result, hresult, hlines⟩ := onRequest_of_answered hasked hanswer
  refine ⟨front, messages, ⟨looked, htook⟩, hpushed, server, ticket.call, state, result, hrun,
    hcall, hstate, ?_, hlines⟩
  rw [← hresult]
  exact response_eq rpc hticket houtcome rfl

/-- A call that queues a batch and has returned was answered, or its queue or its wait
has failed. -/
theorem answered_or_failed (hrun : runServer rpc requestQueueMax events = .ok server)
    {call : HttpCall Params} (hcall : server.callAt client = some call)
    (hasks : (requestsOf? rpc call).isSome)
    {result : Except RequestError JsonrpcResponse}
    (hresponse : response rpc server client = some result) :
    (∃ ticket outputs, server.tickets[client]? = some ticket ∧
      ticket.outcome = some (.answered outputs)) ∨
      ∃ error ∈ waitErrors, result = .error error := by
  obtain ⟨ticket, outcome, reply, hticket, houtcome, hreply, rfl⟩ :=
    exists_ticket_of_response hresponse
  obtain rfl : ticket.call = call := by
    rw [Actor.callAt, hticket] at hcall
    exact Option.some.inj hcall
  obtain ⟨requests, hrequests⟩ := Option.isSome_iff_exists.1 hasks
  have halone := ((sound_of_run hrun).consistent ticket (List.mem_of_getElem? hticket)).alone_iff
  have hfailed (error : RequestError) (hmem : error ∈ waitErrors)
      (hreceive : reply.receive = .error error) :
      ∃ error ∈ waitErrors,
        rpc.onRequest ticket.call.mode ticket.call.calls reply = .error error :=
    ⟨error, hmem, onRequest_of_receive_error hrequests hreceive⟩
  cases outcome with
  | alone => exact absurd (hrequests.symm.trans (halone.1 houtcome)) (by simp)
  | full =>
      cases hreply
      exact Or.inr (hfailed .queueFull (by decide) rfl)
  | closed =>
      cases hreply
      exact Or.inr (hfailed .loopClosed (by decide) rfl)
  | cancelled reason =>
      cases reason with
      | shutdown =>
          cases hreply
          exact Or.inr (hfailed .connectionClosed (by decide) rfl)
      | timeout =>
          cases hreply
          exact Or.inr (hfailed .timeout (by decide) rfl)
  | abandoned => cases hreply
  | dropped =>
      cases hreply
      exact Or.inr (hfailed .dropped (by decide) rfl)
  | answered outputs => exact Or.inl ⟨ticket, outputs, hticket, houtcome⟩

/-- **A response is a snapshot.**  Whatever else happens meanwhile, a call that queues
a batch ends with outputs that are all taken from the stores at one moment, after
exactly the messages pushed so far, or with the error of its queue or its wait. -/
theorem response_is_snapshot (hrun : runServer rpc requestQueueMax events = .ok server)
    {call : HttpCall Params} (hcall : server.callAt client = some call)
    (hasks : (requestsOf? rpc call).isSome)
    {result : Except RequestError JsonrpcResponse}
    (hresponse : response rpc server client = some result) :
    (∃ front messages, AnsweredFrom rpc requestQueueMax events client front messages) ∨
      ∃ error ∈ waitErrors, result = .error error := by
  refine (answered_or_failed hrun hcall hasks hresponse).imp_left fun hanswered => ?_
  obtain ⟨ticket, outputs, hticket, houtcome⟩ := hanswered
  exact exists_answeredFrom hrun hticket houtcome

/-- The slot of the finalized block. -/
def slotSix : List JsonrpcOutput := [createSuccess (some .v2) (.num 1) (.slot 6)]

theorem response_is_snapshot_askedEarly :
    ∃ server result, runServer sampleRpc 1 (askedEarly ++ servedLate) = .ok server ∧
      response sampleRpc server 0 = some result ∧
      ((∃ front messages,
        AnsweredFrom sampleRpc 1 (askedEarly ++ servedLate) 0 front messages) ∨
      ∃ error ∈ waitErrors, result = .error error) := by
  have hview : (runServer sampleRpc 1 (askedEarly ++ servedLate)).toOption.map outcomes =
      some [some (.answered slotSix)] := by
    decide
  obtain ⟨server, hrun, hview⟩ := exists_ok_of_view hview
  obtain ⟨ticket, hticket, houtcome⟩ : ∃ ticket, server.tickets[0]? = some ticket ∧
      ticket.outcome = some (.answered slotSix) :=
    exists_ticket_of_outcomes (by rw [hview]; rfl)
  have hresponse := response_eq sampleRpc hticket houtcome rfl
  have hasks := ((sound_of_run hrun).consistent ticket (List.mem_of_getElem? hticket))
  exact ⟨server, _, hrun, hresponse, response_is_snapshot hrun
    (Actor.callAt_of_getElem? hticket) (hasks.requestOf_isSome_of_ne (by simp [houtcome]))
    hresponse⟩

/-- **Later calls see later states.**  Let a client call after the events `early`.  The
messages it is answered from extend those of every client that has its response by
then, and all that was pushed before the last step of the loop. -/
theorem snapshots_advance {early late : List (ServerEvent Params)} {front}
    {messages : List GeyserMessage} (hcall : calls early ≤ client)
    (hanswered : AnsweredFrom rpc requestQueueMax (early ++ late) client front messages) :
    (∀ earlier front' messages',
      AnsweredFrom rpc requestQueueMax early earlier front' messages' →
        messages' <+: messages) ∧
    ∀ old recent, early = old ++ .turn :: recent → pushes old <+: messages.map some := by
  obtain ⟨looked, htook⟩ := hanswered.look
  have hold (old recent : List (ServerEvent Params)) (hearly : early = old ++ .turn :: recent) :
      pushes old <+: messages.map some := by
    rw [← hanswered.pushed]
    exact (htook.prefix_of_call hcall hearly).filterMap _
  refine ⟨fun earlier front' messages' hearlier => ?_, hold⟩
  obtain ⟨looked', -, mid, rest, asked, hsplit, -⟩ := hearlier.look
  have hpre := hold front' _ hsplit
  rw [hearlier.pushed] at hpre
  simpa [List.filterMap_map] using hpre.filterMap id

/-- After the first client has its answer, slot 7 is confirmed, and another client
asks. -/
def askedAgain : List (ServerEvent (List (List String))) :=
  [.push (some (.status 7 .confirmed)), .call slotCall, .turn, .turn, .turn, .turn, .turn,
    .turn, .receive 1]

theorem snapshots_advance_askedAgain :
    ∃ front messages front' messages',
      AnsweredFrom sampleRpc 1 (askedEarly ++ servedLate) 0 front messages ∧
      AnsweredFrom sampleRpc 1 (askedEarly ++ servedLate ++ askedAgain) 1 front' messages' ∧
      messages <+: messages' := by
  have hearly : (runServer sampleRpc 1 (askedEarly ++ servedLate)).toOption.map outcomes =
      some [some (.answered slotSix)] := by
    decide
  have hlate : (runServer sampleRpc 1
      (askedEarly ++ servedLate ++ askedAgain)).toOption.map outcomes =
      some [some (.answered slotSix), some (.answered slotSix)] := by
    decide
  obtain ⟨server, hrun, hview⟩ := exists_ok_of_view hearly
  obtain ⟨next, hnext, hview'⟩ := exists_ok_of_view hlate
  obtain ⟨ticket, hticket, houtcome⟩ : ∃ ticket, server.tickets[0]? = some ticket ∧
      ticket.outcome = some (.answered slotSix) :=
    exists_ticket_of_outcomes (by rw [hview]; rfl)
  obtain ⟨ticket', hticket', houtcome'⟩ : ∃ ticket, next.tickets[1]? = some ticket ∧
      ticket.outcome = some (.answered slotSix) :=
    exists_ticket_of_outcomes (by rw [hview']; rfl)
  obtain ⟨front, messages, hfirst⟩ := exists_answeredFrom hrun hticket houtcome
  obtain ⟨front', messages', hsecond⟩ := exists_answeredFrom hnext hticket' houtcome'
  exact ⟨front, messages, front', messages', hfirst, hsecond,
    (snapshots_advance (by decide) hsecond).1 0 front messages hfirst⟩

/-! ## The queue of batches -/

/-- **First come, first served.**  At any time the calls whose batch was accepted and
is not dealt with are those in the queue and the one in the hands of the loop, at most
`requestQueueMax` are in the queue, and a call is dealt with only after all accepted
calls before it. -/
theorem first_come_first_served (hrun : runServer rpc requestQueueMax events = .ok server) :
    (∀ client, server.mailboxAt client = .empty ↔
      client ∈ server.phase.tickets ++ server.queue) ∧
    server.queue.length ≤ requestQueueMax ∧
    ∀ earlier later, earlier < later → server.mailboxAt later ≠ .unused →
      server.mailboxAt earlier = .empty → server.mailboxAt later = .empty := by
  have hsound := sound_of_run hrun
  refine ⟨hsound.empty_iff, hsound.bounded, fun earlier later hlt hused hearlier => ?_⟩
  rw [hsound.empty_iff] at hearlier ⊢
  by_contra hlater
  exact absurd (hsound.resolved later hused hlater earlier hearlier) (by omega)

/-- One client waits, and the next one finds the queue full. -/
theorem first_come_first_served_askedEarly :
    ∃ server, runServer sampleRpc 1 (askedEarly ++ [.call slotCall]) = .ok server ∧
      outcomes server = [none, some .full] ∧
      (server.mailboxAt 0 = .empty ↔ 0 ∈ server.phase.tickets ++ server.queue) := by
  have hview : (runServer sampleRpc 1 (askedEarly ++ [.call slotCall])).toOption.map outcomes =
      some [none, some .full] := by
    decide
  obtain ⟨server, hrun, hview⟩ := exists_ok_of_view hview
  exact ⟨server, hrun, hview, (first_come_first_served hrun).1 0⟩

/-- The client is still in `on_request`. -/
def Waits (server : Server Params) (client : ℕ) : Prop :=
  ∃ ticket, server.tickets[client]? = some ticket ∧ ticket.outcome = none

theorem runServer_append {early late : List (ServerEvent Params)}
    (hrun : runServer rpc requestQueueMax early = .ok server) :
    runServer rpc requestQueueMax (early ++ late) =
      run (fun server event => server.step (service rpc requestQueueMax) event)
        server late := by
  rw [runServer, runActor, run_append]
  change runServer rpc requestQueueMax early >>= _ = _
  rw [hrun]
  rfl

/-- A caller that looks into a mailbox that is in use and not empty leaves. -/
theorem not_waits_receive {server next : Server Params}
    (hsound : Sound (service rpc requestQueueMax) server)
    (hclient : client ∉ server.active)
    (hnext : server.step (service rpc requestQueueMax) (.receive client) = .ok next) :
    ¬ Waits next client := by
  rintro ⟨ticket, hticket, houtcome⟩
  obtain rfl := Except.ok.inj hnext
  rw [Actor.update, List.getElem?_modify_eq, Option.map_eq_map, Option.map_eq_some_iff]
    at hticket
  obtain ⟨old, hold, rfl⟩ := hticket
  have hfits := (hsound.consistent old (List.mem_of_getElem? hold)).fits
  rw [← hsound.empty_iff, Actor.mailboxAt_of_getElem? hold] at hclient
  rw [Ticket.receive] at houtcome
  split at houtcome
  · cases houtcome
  · cases houtcome
  next hanswer hdropped =>
    rw [Ticket.Fits, houtcome] at hfits
    cases hmailbox : old.mailbox with
    | unused => exact hfits.1 hmailbox
    | empty => exact hclient hmailbox
    | filled answer => exact hanswer answer houtcome hmailbox
    | dropped => exact hdropped houtcome hmailbox

theorem Waits.lt_length (h : Waits server client) : client < server.tickets.length := by
  obtain ⟨ticket, hticket, -⟩ := h
  exact (List.getElem?_eq_some_iff.1 hticket).1

/-- **Nobody waits for ever.**  If all blocks are walkable, a client waits for no more steps
of the loop than there are messages in the queue, and four for each batch that fits in the
other queue, and one for each message that is pushed meanwhile. -/
theorem answered_in_time {early late : List (ServerEvent Params)}
    (hblocks : Walkable (early ++ late))
    (hrun : runServer rpc requestQueueMax early = .ok server)
    (hwaits : Waits server client)
    (hturns : server.messages.length + 4 * requestQueueMax + 2 + (pushes late).length ≤
      turns late) :
    ∃ next, runServer rpc requestQueueMax (early ++ late ++ [.receive client]) = .ok next ∧
      ¬ Waits next client := by
  obtain ⟨middle, hmiddle⟩ : ∃ middle,
      runServer rpc requestQueueMax (early ++ late) = .ok middle := exists_server hblocks
  have hlate := (runServer_append hrun).symm.trans hmiddle
  have hdone : client ∉ middle.active :=
    resolved_of_turns (sound_of_run hrun) hwaits.lt_length hlate hturns
  exact ⟨_, runActor_concat hmiddle (.receive client),
    not_waits_receive (sound_of_run hmiddle) hdone rfl⟩

/-- After `askedEarly` one message waits and one client. -/
theorem exists_askedEarly :
    ∃ server, runServer sampleRpc 1 askedEarly = .ok server ∧ server.phase = .first ∧
      server.messages.length = 1 ∧ server.mailboxAt 0 = .empty ∧ Waits server 0 := by
  have hview : (runServer sampleRpc 1 askedEarly).toOption.map (fun server =>
      (server.phase, server.messages.length, server.mailboxAt 0)) =
        some (.first, 1, .empty) := by
    decide
  have houtcomes : (runServer sampleRpc 1 askedEarly).toOption.map outcomes = some [none] := by
    decide
  obtain ⟨server, hrun, hview⟩ := exists_ok_of_view hview
  rw [hrun] at houtcomes
  simp only [Prod.mk.injEq] at hview
  obtain ⟨hphase, hmessages, hempty⟩ := hview
  exact ⟨server, hrun, hphase, hmessages, hempty,
    exists_ticket_of_outcomes (by rw [Option.some.inj houtcomes]; rfl)⟩

theorem answered_in_time_askedEarly :
    ∃ next, runServer sampleRpc 1
        (askedEarly ++ List.replicate 7 .turn ++ [.receive 0]) = .ok next ∧
      ¬ Waits next 0 := by
  have hblocks : Walkable (askedEarly ++ List.replicate 7 .turn) := by
    simp [Walkable, askedEarly, Block.bare]
  obtain ⟨server, hrun, -, hmessages, -, hwaits⟩ := exists_askedEarly
  exact answered_in_time hblocks hrun hwaits (by rw [hmessages]; decide)

/-! ## The shutdown -/

/-- **A shutdown loses nothing.**  Let all blocks be walkable, let `shutdown` be called once
the loop runs, with no sender dropped, and let it go on for long enough.  Then it has
ended, its stores are those after exactly the messages pushed before the first shutdown,
no batch is left in the queue, and every client that looks into its mailbox leaves. -/
theorem shutdown_drains {early late : List (ServerEvent Params)}
    (hblocks : Walkable (early ++ .push none :: late)) (hheld : .release ∉ early ++ late)
    (hrun : runServer rpc requestQueueMax early = .ok server)
    (hgoing : server.phase ≠ .ended)
    (hturns : server.messages.length + 4 ≤ turns late) :
    ∃ final messages rest,
      runServer rpc requestQueueMax (early ++ .push none :: late) = .ok final ∧
      final.phase = .ended ∧
      pushes (early ++ .push none :: late) = messages.map some ++ none :: rest ∧
      LoopState.runUpdateLoop messages = .ok final.state ∧
      (∀ client, final.mailboxAt client ≠ .empty) ∧
      ∀ client next, final.step (service rpc requestQueueMax) (.receive client) = .ok next →
        ¬ Waits next client := by
  obtain ⟨final, hfinal⟩ : ∃ final, runServer rpc requestQueueMax
      (early ++ .push none :: late) = .ok final := exists_server hblocks
  have hasked : server.step (service rpc requestQueueMax) (.push none) =
      .ok { server with messages := server.messages ++ [none] } := by
    rw [Actor.step, if_neg hgoing]
  have hlate := (runServer_append hrun).symm.trans hfinal
  rw [← List.singleton_append, run_append, run_singleton, hasked] at hlate
  have hended : final.phase = .ended := by
    refine ended_of_turns (List.mem_append_right _ List.mem_cons_self) hlate ?_
    refine (stepsToEnd_le (List.mem_append_right _ List.mem_cons_self)).trans ?_
    simpa using hturns
  have hconnected : final.connected = true := by
    refine connected_of_run hfinal rfl ?_
    simpa using hheld
  obtain ⟨messages, rest, hpushes, hstate⟩ := state_of_ended hfinal hended hconnected
  have hsound := sound_of_run hfinal
  have hactive (client : ℕ) : client ∉ final.active := by
    rw [Actor.active, hended, hsound.ended hended]
    exact List.not_mem_nil
  refine ⟨final, messages, rest, hfinal, hended, hpushes, hstate, fun client => ?_,
    fun client next hnext => not_waits_receive hsound (hactive client) hnext⟩
  rw [ne_eq, hsound.empty_iff]
  exact hactive client

theorem shutdown_drains_askedEarly :
    ∃ final messages rest,
      runServer sampleRpc 1 (askedEarly ++ .push none :: List.replicate 5 .turn) =
        .ok final ∧
      final.phase = .ended ∧
      pushes (askedEarly ++ .push none :: List.replicate 5 .turn) =
        messages.map some ++ none :: rest ∧
      LoopState.runUpdateLoop messages = .ok final.state := by
  have hblocks : Walkable (askedEarly ++ .push none :: List.replicate 5 .turn) := by
    simp [Walkable, askedEarly, Block.bare]
  obtain ⟨server, hrun, hphase, hmessages, -⟩ := exists_askedEarly
  obtain ⟨final, messages, rest, hfinal, hended, hpushes, hstate, -⟩ :=
    shutdown_drains hblocks (by simp [askedEarly]) hrun (by simp [hphase])
      (by rw [hmessages]; decide)
  exact ⟨final, messages, rest, hfinal, hended, hpushes, hstate⟩

/-! ## Clients that leave -/

/-- The error of `on_request` when one of the branches of its `select!` that raise the
flag is taken. -/
def Leaving.error : Leaving → RequestError
  | .shutdown => .connectionClosed
  | .timeout => .timeout

theorem exists_reply_cancelled (reason : Leaving) :
    ∃ reply, replyOf (.cancelled reason) = some reply ∧
      reply.receive = .error reason.error := by
  cases reason with
  | shutdown => exact ⟨.shutdown, rfl, rfl⟩
  | timeout => exact ⟨.timeout, rfl, rfl⟩

/-- **A batch that was given up in time is not looked at.**  If a client runs out of
time or is disconnected before the loop has read the flag of its batch, no order of
later events makes the loop answer the batch, and the client has its error. -/
theorem given_up_unanswered {early late : List (ServerEvent Params)}
    (hrun : runServer rpc requestQueueMax early = .ok server)
    (hwaits : Waits server client) (hphase : server.phase ≠ .serving client)
    (hempty : server.mailboxAt client = .empty) (reason : Leaving) {final : Server Params}
    (hfinal : runServer rpc requestQueueMax (early ++ .cancel client reason :: late) =
      .ok final) :
    (∀ outputs, final.mailboxAt client ≠ .filled outputs) ∧
      response rpc final client = some (.error reason.error) := by
  obtain ⟨ticket, hticket, houtcome⟩ := hwaits
  have hlate := (runServer_append hrun).symm.trans hfinal
  rw [← List.singleton_append, run_append, run_singleton, Actor.step] at hlate
  set left := server.update client (·.cancel reason) with hleft
  have hcancelled : left.tickets[client]? = some
      { ticket with cancelled := true, outcome := some (.cancelled reason) } := by
    rw [hleft, Actor.update, List.getElem?_modify_eq, hticket]
    simp [Ticket.cancel, houtcome]
  have hsound : Sound (service rpc requestQueueMax) left :=
    (Stepped.cancelled client reason).sound (sound_of_run hrun)
  have hgiven : GivenUp left client := by
    refine ⟨?_, hphase, fun answer => ?_⟩
    · rw [Actor.flagAt, hcancelled]
      rfl
    · rw [hleft, Actor.mailboxAt_update fun ticket => ticket.cancel_mailbox reason, hempty]
      simp
  refine ⟨(givenUp_of_run hsound hgiven hlate).unanswered, ?_⟩
  obtain ⟨new, hnew, hevolves⟩ := evolves_of_run hlate hcancelled
  obtain ⟨reply, hreply, hreceive⟩ := exists_reply_cancelled reason
  have hfits := (hsound.consistent _ (List.mem_of_getElem? hcancelled)).alone_iff
  obtain ⟨requests, hrequests⟩ : ∃ requests, requestsOf? rpc ticket.call = some requests := by
    rw [← Option.isSome_iff_exists, Option.isSome_iff_ne_none]
    exact fun hnone => absurd (hfits.2 hnone) (by simp)
  rw [response_eq rpc hnew (hevolves.outcome _ rfl) hreply, hevolves.call]
  exact congrArg some (onRequest_of_receive_error hrequests hreceive)

theorem given_up_unanswered_askedEarly :
    ∃ final, runServer sampleRpc 1
        (askedEarly ++ .cancel 0 .timeout :: List.replicate 5 .turn) = .ok final ∧
      response sampleRpc final 0 = some (.error .timeout) := by
  have hblocks : Walkable (askedEarly ++ .cancel 0 .timeout :: List.replicate 5 .turn) := by
    simp [Walkable, askedEarly, Block.bare]
  obtain ⟨server, hrun, hphase, -, hempty, hwaits⟩ := exists_askedEarly
  obtain ⟨final, hfinal⟩ : ∃ final, runServer sampleRpc 1
      (askedEarly ++ .cancel 0 .timeout :: List.replicate 5 .turn) = .ok final :=
    exists_server hblocks
  exact ⟨final, hfinal,
    (given_up_unanswered hrun hwaits (by simp [hphase]) hempty .timeout hfinal).2⟩

end Solfees.RpcServer
