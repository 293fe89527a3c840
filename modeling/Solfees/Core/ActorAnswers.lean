import Solfees.Core.ActorQueue

/-!
# What the answers of an actor are

An actor has applied the messages that were pushed, up to some point, in order.
It takes a request right after it has looked for messages and found none, so an
answer is the answer to all messages that were pushed before that look.
-/

namespace Solfees.Actors

open Solfees.Run

variable {State Message Call Request Answer Reason Fault : Type*}

/-- The message that an event pushes. -/
def Event.pushed? : Event Message Call Reason → Option (Option Message)
  | .push message => some message
  | _ => none

/-- The messages that were pushed, with the requests to end among them. -/
def pushes (events : List (Event Message Call Reason)) : List (Option Message) :=
  events.filterMap Event.pushed?

@[simp]
theorem pushes_append (front back : List (Event Message Call Reason)) :
    pushes (front ++ back) = pushes front ++ pushes back :=
  List.filterMap_append

theorem pushes_concat_of_ne (events : List (Event Message Call Reason))
    {event : Event Message Call Reason} (hevent : event.pushed? = none) :
    pushes (events ++ [event]) = pushes events := by
  simp [pushes, hevent]

namespace Event

/-- Whether it is the task that goes on. -/
def isTurn : Event Message Call Reason → Bool
  | .turn => true
  | _ => false

@[simp]
theorem isTurn_turn : (turn : Event Message Call Reason).isTurn = true := rfl

end Event

/-- The steps that the task took. -/
def turns (events : List (Event Message Call Reason)) : ℕ :=
  events.countP Event.isTurn

@[simp]
theorem turns_append (front back : List (Event Message Call Reason)) :
    turns (front ++ back) = turns front + turns back :=
  List.countP_append

/-- The calls that were made. -/
def Event.isCall : Event Message Call Reason → Bool
  | .call _ => true
  | _ => false

def calls (events : List (Event Message Call Reason)) : ℕ :=
  events.countP Event.isCall

@[simp]
theorem calls_append (front back : List (Event Message Call Reason)) :
    calls (front ++ back) = calls front + calls back :=
  List.countP_append

theorem turns_cons (event : Event Message Call Reason)
    (events : List (Event Message Call Reason)) :
    turns (event :: events) = turns events + if event.isTurn then 1 else 0 :=
  List.countP_cons

variable {service : Service State Message Call Request Answer Fault}
  {actor next : Actor State Message Call Answer Reason}

theorem runActor_concat {events : List (Event Message Call Reason)}
    (hrun : runActor service events = .ok actor) (event : Event Message Call Reason) :
    runActor service (events ++ [event]) = actor.step service event :=
  run_concat_of_ok hrun event

/-! ## The messages -/

/-- The messages that were applied and those that wait are the ones pushed; at its
end the actor has applied the ones before the first request to end, unless its
last sender was gone. -/
structure Logged (service : Service State Message Call Request Answer Fault)
    (events : List (Event Message Call Reason))
    (actor : Actor State Message Call Answer Reason) (applied : List Message) : Prop where
  state : run service.apply service.init applied = .ok actor.state
  going : actor.phase ≠ .ended → applied.map some ++ actor.messages = pushes events
  ended : actor.phase = .ended →
    (∃ rest, pushes events = applied.map some ++ none :: rest) ∨
      actor.connected = false ∧ applied.map some <+: pushes events

theorem logged_init :
    Logged service [] (.init service : Actor State Message Call Answer Reason) [] where
  state := rfl
  going _ := rfl
  ended hended := nomatch hended

/-- A step that takes no message, and does not end the task. -/
theorem Logged.stay {events : List (Event Message Call Reason)} {applied : List Message}
    (h : Logged service events actor applied) {event : Event Message Call Reason}
    (hevent : event.pushed? = none) (hstate : next.state = actor.state)
    (hmessages : next.messages = actor.messages)
    (hphase : next.phase = .ended ↔ actor.phase = .ended)
    (hconnected : actor.connected = false → next.connected = false) :
    Logged service (events ++ [event]) next applied where
  state := hstate ▸ h.state
  going hgoing := by
    rw [pushes_concat_of_ne events hevent, hmessages]
    exact h.going (mt hphase.2 hgoing)
  ended hended := by
    rw [pushes_concat_of_ne events hevent]
    exact (h.ended (hphase.1 hended)).imp_right (And.imp_left hconnected)

/-- Every step keeps the log. -/
theorem Stepped.logged {event : Event Message Call Reason}
    (hstep : Stepped service actor event next)
    {events : List (Event Message Call Reason)} {applied : List Message}
    (h : Logged service events actor applied) :
    ∃ applied', Logged service (events ++ [event]) next applied' ∧ applied <+: applied' := by
  cases hstep with
  | pushed message hphase =>
      refine ⟨applied, ⟨h.state, fun _ => ?_, fun hended => absurd hended hphase⟩,
        List.prefix_rfl⟩
      rw [pushes_append, ← h.going hphase, List.append_assoc]
      rfl
  | pushedLate message hphase =>
      refine ⟨applied, ⟨h.state, fun hgoing => absurd hphase hgoing, fun _ => ?_⟩,
        List.prefix_rfl⟩
      rw [pushes_append]
      rcases h.ended hphase with ⟨rest, hrest⟩ | ⟨hconnected, hpre⟩
      · exact Or.inl ⟨rest ++ [message], by rw [hrest]; simp [pushes, Event.pushed?]⟩
      · exact Or.inr ⟨hconnected, hpre.trans (List.prefix_append _ _)⟩
  | applied message messages state hphase hmessages happly =>
      refine ⟨applied ++ [message], ⟨?_, fun hgoing => ?_, fun hended => ?_⟩,
        List.prefix_append _ _⟩
      · exact (run_concat_of_ok h.state message).trans happly
      · rw [pushes_concat_of_ne events rfl, ← h.going (by simp [hphase]), hmessages]
        simp
      · exact absurd (hphase.symm.trans hended) (by simp)
  | asked messages hphase hmessages =>
      refine ⟨applied, ⟨h.state, fun hgoing => absurd rfl hgoing, fun _ => Or.inl ⟨messages, ?_⟩⟩,
        List.prefix_rfl⟩
      rw [pushes_concat_of_ne events rfl, ← h.going (by simp [hphase]), hmessages]
  | left hphase hconnected =>
      have hgoing : actor.phase ≠ .ended := by
        rcases hphase with ⟨hphase, -⟩ | ⟨hphase, -⟩ <;> simp [hphase]
      refine ⟨applied, ⟨h.state, fun hended => absurd rfl hended,
        fun _ => Or.inr ⟨hconnected, ?_⟩⟩, List.prefix_rfl⟩
      rw [pushes_concat_of_ne events rfl, ← h.going hgoing]
      exact List.prefix_append _ _
  | alone _ _ => exact ⟨applied, h.stay rfl rfl rfl Iff.rfl id, List.prefix_rfl⟩
  | closed _ _ _ _ => exact ⟨applied, h.stay rfl rfl rfl Iff.rfl id, List.prefix_rfl⟩
  | full _ _ _ _ => exact ⟨applied, h.stay rfl rfl rfl Iff.rfl id, List.prefix_rfl⟩
  | accepted _ _ _ _ _ => exact ⟨applied, h.stay rfl rfl rfl Iff.rfl id, List.prefix_rfl⟩
  | cancelled _ _ => exact ⟨applied, h.stay rfl rfl rfl Iff.rfl id, List.prefix_rfl⟩
  | abandoned _ => exact ⟨applied, h.stay rfl rfl rfl Iff.rfl id, List.prefix_rfl⟩
  | received _ => exact ⟨applied, h.stay rfl rfl rfl Iff.rfl id, List.prefix_rfl⟩
  | released => exact ⟨applied, h.stay rfl rfl rfl Iff.rfl fun _ => rfl, List.prefix_rfl⟩
  | looked hphase _ =>
      exact ⟨applied, h.stay rfl rfl rfl (by simp [hphase]) id, List.prefix_rfl⟩
  | took _ _ hphase _ =>
      exact ⟨applied, h.stay rfl rfl rfl (by simp [hphase]) id, List.prefix_rfl⟩
  | parked hphase _ =>
      exact ⟨applied, h.stay rfl rfl rfl (by simp [hphase]) id, List.prefix_rfl⟩
  | skipped _ hphase _ =>
      exact ⟨applied, h.stay rfl rfl rfl (by simp [hphase]) id, List.prefix_rfl⟩
  | loaded _ hphase _ =>
      exact ⟨applied, h.stay rfl rfl rfl (by simp [hphase]) id, List.prefix_rfl⟩
  | served _ _ _ hphase _ _ =>
      exact ⟨applied, h.stay rfl rfl rfl (by simp [hphase]) id, List.prefix_rfl⟩
  | unasked _ hphase _ =>
      exact ⟨applied, h.stay rfl rfl rfl (by simp [hphase]) id, List.prefix_rfl⟩
  | rested _ => exact ⟨applied, h.stay rfl rfl rfl Iff.rfl id, List.prefix_rfl⟩

theorem logged_of_run {events : List (Event Message Call Reason)}
    (hrun : runActor service events = .ok actor) :
    ∃ applied, Logged service events actor applied :=
  run_invariant_of_ok (fun events actor => ∃ applied, Logged service events actor applied)
    ⟨[], logged_init⟩
    (fun _ _ _ _ ⟨_, h⟩ hstep =>
      let ⟨applied, hnext, _⟩ := (stepped_of_step hstep).logged h
      ⟨applied, hnext⟩) hrun

/-- The messages that were applied are the first of the ones pushed. -/
theorem Logged.applied_prefix {events : List (Event Message Call Reason)}
    {applied : List Message} (h : Logged service events actor applied) :
    applied.map some <+: pushes events := by
  by_cases hphase : actor.phase = .ended
  · rcases h.ended hphase with ⟨rest, hrest⟩ | ⟨-, hpre⟩
    · exact ⟨none :: rest, hrest.symm⟩
    · exact hpre
  · exact ⟨actor.messages, h.going hphase⟩

/-- At its end, an actor with a sender left has applied exactly the messages before
the first request to end. -/
theorem state_of_ended {events : List (Event Message Call Reason)}
    (hrun : runActor service events = .ok actor) (hended : actor.phase = .ended)
    (hconnected : actor.connected = true) :
    ∃ messages rest, pushes events = messages.map some ++ none :: rest ∧
      run service.apply service.init messages = .ok actor.state := by
  obtain ⟨applied, h⟩ := logged_of_run hrun
  rcases h.ended hended with ⟨rest, hrest⟩ | ⟨hgone, -⟩
  · exact ⟨applied, rest, hrest, h.state⟩
  · rw [hconnected] at hgone
    cases hgone

/-- An actor that sees no message has applied all. -/
theorem state_of_messages_eq_nil {events : List (Event Message Call Reason)}
    (hrun : runActor service events = .ok actor) (hphase : actor.phase ≠ .ended)
    (hmessages : actor.messages = []) :
    ∃ messages, pushes events = messages.map some ∧
      run service.apply service.init messages = .ok actor.state := by
  obtain ⟨applied, h⟩ := logged_of_run hrun
  have hall := h.going hphase
  rw [hmessages, List.append_nil] at hall
  exact ⟨applied, hall.symm, h.state⟩

/-! ## The calls -/

namespace Actor

/-- The call of a ticket. -/
def callAt (actor : Actor State Message Call Answer Reason) (number : ℕ) : Option Call :=
  actor.tickets[number]?.map Ticket.call

theorem requestAt_eq_bind (number : ℕ) :
    actor.requestAt service number = (actor.callAt number).bind service.requestOf := by
  rw [requestAt, callAt, Option.bind_map]
  rfl

theorem callAt_of_getElem? {number : ℕ} {ticket : Ticket Call Answer Reason}
    (hticket : actor.tickets[number]? = some ticket) :
    actor.callAt number = some ticket.call := by
  rw [callAt, hticket]
  rfl

end Actor

/-- A ticket keeps its call. -/
theorem Stepped.callAt {event : Event Message Call Reason}
    (hstep : Stepped service actor event next) {number : ℕ} {call : Call}
    (hcall : actor.callAt number = some call) : next.callAt number = some call := by
  obtain ⟨ticket, hticket, rfl⟩ := Option.map_eq_some_iff.1 hcall
  obtain ⟨new, hnew, hevolves⟩ := hstep.evolves hticket
  rw [Actor.callAt_of_getElem? hnew, hevolves.call]

theorem Stepped.requestAt {event : Event Message Call Reason}
    (hstep : Stepped service actor event next) {number : ℕ} {request : Request}
    (hrequest : actor.requestAt service number = some request) :
    next.requestAt service number = some request := by
  rw [Actor.requestAt_eq_bind] at hrequest ⊢
  obtain ⟨call, hcall, hof⟩ := Option.bind_eq_some_iff.1 hrequest
  rw [hstep.callAt hcall]
  exact hof

/-! ## The mailboxes -/

/-- What a step does to a mailbox: the step that fills it is one of the task. -/
theorem Stepped.mailboxAt {event : Event Message Call Reason}
    (hstep : Stepped service actor event next) (h : Sound service actor) (number : ℕ) :
    next.mailboxAt number = actor.mailboxAt number ∨
    (number = actor.tickets.length ∧ next.mailboxAt number = .empty) ∨
    (actor.mailboxAt number = .empty ∧ next.mailboxAt number = .dropped) ∨
    (∃ request answer, event = .turn ∧ actor.phase = .serving number ∧
      next.state = actor.state ∧
      actor.requestAt service number = some request ∧
      service.answer actor.state request = .ok answer ∧
      next.mailboxAt number = .filled answer) := by
  have hissue (call : Call) (outcome : Option (Outcome Answer Reason)) :
      (actor.issue call .unused outcome).mailboxAt number = actor.mailboxAt number := by
    rw [Actor.mailboxAt_issue]
    split
    next hnumber => rw [hnumber, Actor.mailboxAt_length]
    next => rfl
  have hstop (hphase : actor.phase.tickets = []) :
      actor.stop.mailboxAt number = actor.mailboxAt number ∨
      (actor.mailboxAt number = .empty ∧ actor.stop.mailboxAt number = .dropped) := by
    have hempty (waiting : ℕ) (hwaiting : waiting ∈ actor.queue) :
        actor.mailboxAt waiting = .empty :=
      h.mailboxAt_of_mem (List.mem_append_right _ hwaiting)
    rw [Actor.mailboxAt_stop fun waiting hwaiting => by simp [hempty waiting hwaiting]]
    split
    next hmem => exact Or.inr ⟨hempty number hmem, rfl⟩
    next => exact Or.inl rfl
  have hheld {held : ℕ} (hphase : actor.phase.tickets = [held]) :
      actor.mailboxAt held = .empty :=
    h.mailboxAt_of_mem (List.mem_append_left _ (by simp [hphase]))
  cases hstep with
  | alone call _ => exact Or.inl (hissue call _)
  | closed call _ _ _ => exact Or.inl (hissue call _)
  | full call _ _ _ => exact Or.inl (hissue call _)
  | accepted call _ _ _ _ =>
      change (actor.issue call .empty none).mailboxAt number = _ ∨
        _ ∧ (actor.issue call .empty none).mailboxAt number = _ ∨ _
      rw [Actor.mailboxAt_issue]
      split
      next hnumber => exact Or.inr (Or.inl ⟨hnumber, rfl⟩)
      next => exact Or.inl rfl
  | cancelled other reason =>
      exact Or.inl (Actor.mailboxAt_update (fun ticket => ticket.cancel_mailbox reason) _ _)
  | abandoned other =>
      exact Or.inl (Actor.mailboxAt_update (fun ticket => ticket.abandon_mailbox) _ _)
  | received other =>
      exact Or.inl (Actor.mailboxAt_update (fun ticket => ticket.receive_mailbox) _ _)
  | asked _ hphase _ =>
      exact (hstop (by rw [hphase]; rfl)).imp_right fun hdropped => Or.inr (Or.inl hdropped)
  | left hphase _ =>
      have hnone : actor.phase.tickets = [] := by
        rcases hphase with ⟨hphase, -⟩ | ⟨hphase, -⟩ <;> rw [hphase] <;> rfl
      exact (hstop hnone).imp_right fun hdropped => Or.inr (Or.inl hdropped)
  | skipped held hphase _ =>
      have hempty : actor.mailboxAt held = .empty := hheld (by rw [hphase]; rfl)
      have hmailbox : (actor.update held (·.setMailbox .dropped)).mailboxAt number =
          if number = held then .dropped else actor.mailboxAt number :=
        Actor.mailboxAt_setMailbox (by simp [hempty]) _ _
      by_cases hnumber : number = held
      · rw [if_pos hnumber] at hmailbox
        exact Or.inr (Or.inr (Or.inl ⟨hnumber ▸ hempty, hmailbox⟩))
      · rw [if_neg hnumber] at hmailbox
        exact Or.inl hmailbox
  | served held request answer hphase hrequest hanswer =>
      have hempty : actor.mailboxAt held = .empty := hheld (by rw [hphase]; rfl)
      have hmailbox : (actor.update held (·.setMailbox (.filled answer))).mailboxAt number =
          if number = held then .filled answer else actor.mailboxAt number :=
        Actor.mailboxAt_setMailbox (by simp [hempty]) _ _
      by_cases hnumber : number = held
      · subst hnumber
        rw [if_pos rfl] at hmailbox
        exact Or.inr (Or.inr (Or.inr
          ⟨request, answer, rfl, hphase, rfl, hrequest, hanswer, hmailbox⟩))
      · rw [if_neg hnumber] at hmailbox
        exact Or.inl hmailbox
  | pushed _ _ => exact Or.inl rfl
  | pushedLate _ _ => exact Or.inl rfl
  | released => exact Or.inl rfl
  | applied _ _ _ _ _ _ => exact Or.inl rfl
  | looked _ _ => exact Or.inl rfl
  | took _ _ _ _ => exact Or.inl rfl
  | parked _ _ => exact Or.inl rfl
  | loaded _ _ _ => exact Or.inl rfl
  | unasked _ _ _ => exact Or.inl rfl
  | rested _ => exact Or.inl rfl

/-! ## The look before an answer -/

/-- After `front` the task looked at the messages and saw none. -/
structure Looked (service : Service State Message Call Request Answer Fault)
    (front : List (Event Message Call Reason))
    (actor : Actor State Message Call Answer Reason) : Prop where
  run : runActor service front = .ok actor
  phase : actor.phase = .first
  messages : actor.messages = []

/-- After `front` the task saw no message, and with its next step it took the
ticket from its queue. -/
def Took (service : Service State Message Call Request Answer Fault)
    (events : List (Event Message Call Reason)) (number : ℕ)
    (front : List (Event Message Call Reason))
    (looked : Actor State Message Call Answer Reason) : Prop :=
  Looked service front looked ∧
    ∃ mid rest asked, events = front ++ .turn :: (mid ++ .turn :: rest) ∧ turns mid = 0 ∧
      runActor service (front ++ .turn :: mid) = .ok asked ∧ number ∈ asked.queue

theorem Took.concat {events front : List (Event Message Call Reason)} {number : ℕ}
    {looked : Actor State Message Call Answer Reason}
    (h : Took service events number front looked) (event : Event Message Call Reason) :
    Took service (events ++ [event]) number front looked := by
  obtain ⟨hlooked, mid, rest, asked, rfl, hmid, hasked, hqueue⟩ := h
  exact ⟨hlooked, mid, rest ++ [event], asked, by simp, hmid, hasked, hqueue⟩

/-- Every call gets a ticket. -/
theorem Stepped.length_tickets {event : Event Message Call Reason}
    (hstep : Stepped service actor event next) :
    next.tickets.length = actor.tickets.length + calls [event] := by
  cases hstep <;> simp [Actor.issue, Actor.update, Actor.stop, calls, Event.isCall]

theorem length_tickets_of_run {events : List (Event Message Call Reason)}
    (hrun : runActor service events = .ok actor) : actor.tickets.length = calls events := by
  refine run_invariant_of_ok (fun events actor => actor.tickets.length = calls events) rfl
    ?_ hrun
  intro before state event after hbefore hstep
  rw [(stepped_of_step hstep).length_tickets, hbefore, calls_append]

theorem turns_le_of_prefix {front events : List (Event Message Call Reason)}
    (h : front <+: events) : turns front ≤ turns events := by
  obtain ⟨back, rfl⟩ := h
  rw [turns_append]
  exact Nat.le_add_right _ _

/-- Without steps of the task, its state stays. -/
theorem state_of_turns_eq_zero {events : List (Event Message Call Reason)}
    (hrun : run (fun actor event => actor.step service event) actor events = .ok next)
    (hturns : turns events = 0) : next.state = actor.state := by
  refine run_invariant_of_ok (fun events next => turns events = 0 → next.state = actor.state)
    (fun _ => rfl) ?_ hrun hturns
  intro before middle event after hbefore hstep hturns
  rw [turns_append, Nat.add_eq_zero_iff] at hturns
  have hstate := hbefore hturns.1
  cases stepped_of_step hstep with
  | applied _ _ _ _ _ _ => exact absurd hturns.2 (by simp [turns])
  | _ => exact hstate

/-- When a request is taken, what happened before its call has happened, and the state
is still the one of the look. -/
theorem Took.exists_asked {early late front : List (Event Message Call Reason)} {number : ℕ}
    {looked : Actor State Message Call Answer Reason}
    (h : Took service (early ++ late) number front looked) (hcall : calls early ≤ number) :
    ∃ mid asked, early <+: front ++ .turn :: mid ∧ turns mid = 0 ∧
      runActor service (front ++ .turn :: mid) = .ok asked ∧ asked.state = looked.state := by
  obtain ⟨hlooked, mid, rest, asked, hsplit, hmid, hasked, hqueue⟩ := h
  have hlength : number < calls (front ++ .turn :: mid) := by
    rw [← length_tickets_of_run hasked]
    exact (sound_of_run hasked).lt_length (List.mem_append_right _ hqueue)
  refine ⟨mid, asked, ?_, hmid, hasked, ?_⟩
  · -- the ticket was not yet given after the early events
    have hboth : front ++ .turn :: mid <+: early ++ late :=
      ⟨.turn :: rest, by rw [hsplit]; simp⟩
    refine (List.prefix_or_prefix_of_prefix (List.prefix_append early late)
      hboth).resolve_right fun hback => ?_
    obtain ⟨between, hbetween⟩ := hback
    rw [← hbetween, calls_append] at hcall
    omega
  · have hlate : run (fun actor event => actor.step service event) looked (.turn :: mid) =
        .ok asked := by
      rw [runActor, run_append] at hasked
      change runActor service front >>= _ = _ at hasked
      rwa [hlooked.run] at hasked
    obtain ⟨second, hsecond, hmidRun⟩ := exists_run_of_append
      (show run _ looked ([.turn] ++ mid) = .ok asked from hlate)
    rw [state_of_turns_eq_zero hmidRun hmid]
    rw [run_singleton] at hsecond
    cases stepped_of_step hsecond with
    | applied _ _ _ _ hmessages _ => exact absurd (hlooked.messages.symm.trans hmessages) (by simp)
    | _ => rfl

/-- The look before a request is taken sees everything that happened before the last
step of the task that precedes the call. -/
theorem Took.prefix_of_call {early late front old recent : List (Event Message Call Reason)}
    {number : ℕ} {looked : Actor State Message Call Answer Reason}
    (h : Took service (early ++ late) number front looked) (hcall : calls early ≤ number)
    (hearly : early = old ++ .turn :: recent) : old <+: front := by
  obtain ⟨mid, asked, hpre, hmid, -⟩ := h.exists_asked hcall
  have hold : old <+: front ++ .turn :: mid :=
    (hearly ▸ List.prefix_append old (.turn :: recent)).trans hpre
  refine (List.prefix_or_prefix_of_prefix hold (List.prefix_append front _)).elim id
    fun hback => ?_
  obtain ⟨between, rfl⟩ := hback
  cases between with
  | nil => exact (List.append_nil front).symm ▸ List.prefix_rfl
  | cons event between =>
      -- the look itself and the step before the call are two steps, but there is one
      obtain ⟨rfl, -⟩ := List.cons_prefix_cons.1 (List.prefix_append_right_inj front |>.1 hold)
      have hturns := turns_le_of_prefix hpre
      rw [hearly] at hturns
      simp only [turns_append, turns_cons, hmid, Event.isTurn_turn, if_true] at hturns
      omega

/-- What the run says about the state of an answer. -/
structure Told (service : Service State Message Call Request Answer Fault)
    (events : List (Event Message Call Reason))
    (actor : Actor State Message Call Answer Reason) : Prop where
  second : actor.phase = .second → ∃ front mid looked, events = front ++ .turn :: mid ∧
    turns mid = 0 ∧ Looked service front looked ∧ looked.state = actor.state
  held : ∀ number ∈ actor.phase.tickets, ∃ front looked,
    Took service events number front looked ∧ looked.state = actor.state
  filled : ∀ number answer, actor.mailboxAt number = .filled answer →
    ∃ front request looked, Took service events number front looked ∧
      actor.requestAt service number = some request ∧
      service.answer looked.state request = .ok answer

theorem told_init :
    Told service [] (.init service : Actor State Message Call Answer Reason) := by
  constructor <;> simp [Actor.init, Phase.tickets, Actor.mailboxAt]

/-- A step keeps what is told about the answers, and adds the one it gives. -/
theorem Told.filled_of_stepped {events : List (Event Message Call Reason)}
    (h : Told service events actor) (hsound : Sound service actor)
    {event : Event Message Call Reason} (hstep : Stepped service actor event next)
    (number : ℕ) (answer : Answer) (hfilled : next.mailboxAt number = .filled answer) :
    ∃ front request looked, Took service (events ++ [event]) number front looked ∧
      next.requestAt service number = some request ∧
      service.answer looked.state request = .ok answer := by
  rcases hstep.mailboxAt hsound number with
    hsame | ⟨-, hempty⟩ | ⟨-, hdropped⟩ | ⟨request, given, -, hphase, -, hrequest, hanswer, hgiven⟩
  · obtain ⟨front, request, looked, htook, hrequest, hanswer⟩ :=
      h.filled number answer (hsame ▸ hfilled)
    exact ⟨front, request, looked, htook.concat event, hstep.requestAt hrequest, hanswer⟩
  · cases hempty.symm.trans hfilled
  · cases hdropped.symm.trans hfilled
  · obtain rfl : given = answer := Mailbox.filled.inj (hgiven.symm.trans hfilled)
    obtain ⟨front, looked, htook, hstate⟩ := h.held number (by simp [hphase, Phase.tickets])
    exact ⟨front, request, looked, htook.concat event, hstep.requestAt hrequest,
      hstate ▸ hanswer⟩

/-- A step after which the task is where it was. -/
theorem Told.stay {events : List (Event Message Call Reason)} (h : Told service events actor)
    (hsound : Sound service actor) {event : Event Message Call Reason}
    (hstep : Stepped service actor event next) (hphase : next.phase = actor.phase)
    (hstate : next.state = actor.state) (hevent : event.isTurn = false) :
    Told service (events ++ [event]) next where
  second hsecond := by
    obtain ⟨front, mid, looked, rfl, hmid, hlooked, hlook⟩ := h.second (hphase ▸ hsecond)
    refine ⟨front, mid ++ [event], looked, by simp, ?_, hlooked, hstate ▸ hlook⟩
    simp [turns, hevent] at hmid ⊢; exact hmid
  held number hnumber := by
    obtain ⟨front, looked, htook, hlook⟩ := h.held number (hphase ▸ hnumber)
    exact ⟨front, looked, htook.concat event, hstate ▸ hlook⟩
  filled := h.filled_of_stepped hsound hstep

/-- A step after which the task is at its start or at its end. -/
theorem Told.reset {events : List (Event Message Call Reason)} (h : Told service events actor)
    (hsound : Sound service actor) {event : Event Message Call Reason}
    (hstep : Stepped service actor event next)
    (hphase : next.phase = .first ∨ next.phase = .ended) :
    Told service (events ++ [event]) next where
  second hsecond := by
    rw [hsecond] at hphase
    exact absurd hphase (by simp)
  held number hnumber := by
    rcases hphase with hphase | hphase <;> rw [hphase] at hnumber <;> cases hnumber
  filled := h.filled_of_stepped hsound hstep

theorem Stepped.told {event : Event Message Call Reason}
    (hstep : Stepped service actor event next) (hsound : Sound service actor)
    {events : List (Event Message Call Reason)} (hrun : runActor service events = .ok actor)
    (h : Told service events actor) : Told service (events ++ [event]) next := by
  cases hstep with
  | looked hphase hmessages =>
      refine ⟨fun _ => ⟨events, [], actor, rfl, rfl, ⟨hrun, hphase, hmessages⟩, rfl⟩, ?_,
        h.filled_of_stepped hsound (.looked hphase hmessages)⟩
      exact fun number hnumber => nomatch hnumber
  | took number queue hphase hqueue =>
      refine ⟨(fun hsecond => nomatch hsecond), fun held hheld => ?_,
        h.filled_of_stepped hsound (.took number queue hphase hqueue)⟩
      obtain rfl := List.mem_singleton.1 hheld
      obtain ⟨front, mid, looked, rfl, hmid, hlooked, hstate⟩ := h.second hphase
      exact ⟨front, looked, ⟨hlooked, mid, [], actor, by simp, hmid, hrun,
        hqueue ▸ List.mem_cons_self⟩, hstate⟩
  | loaded number hphase hcancelled =>
      refine ⟨(fun hsecond => nomatch hsecond), fun held hheld => ?_,
        h.filled_of_stepped hsound (.loaded number hphase hcancelled)⟩
      obtain ⟨front, looked, htook, hstate⟩ := h.held held (by rw [hphase]; exact hheld)
      exact ⟨front, looked, htook.concat .turn, hstate⟩
  | pushed message hphase => exact h.stay hsound (.pushed message hphase) rfl rfl rfl
  | pushedLate message hphase => exact h.stay hsound (.pushedLate message hphase) rfl rfl rfl
  | alone call hrequest => exact h.stay hsound (.alone call hrequest) rfl rfl rfl
  | closed call request hrequest hphase =>
      exact h.stay hsound (.closed call request hrequest hphase) rfl rfl rfl
  | full call request hrequest hfull =>
      exact h.stay hsound (.full call request hrequest hfull) rfl rfl rfl
  | accepted call request hrequest hphase hfree =>
      exact h.stay hsound (.accepted call request hrequest hphase hfree) rfl rfl rfl
  | cancelled number reason => exact h.stay hsound (.cancelled number reason) rfl rfl rfl
  | abandoned number => exact h.stay hsound (.abandoned number) rfl rfl rfl
  | received number => exact h.stay hsound (.received number) rfl rfl rfl
  | released => exact h.stay hsound .released rfl rfl rfl
  | applied message messages state hphase hmessages happly =>
      exact h.reset hsound (.applied message messages state hphase hmessages happly)
        (Or.inl hphase)
  | asked messages hphase hmessages =>
      exact h.reset hsound (.asked messages hphase hmessages) (Or.inr rfl)
  | left hphase hconnected => exact h.reset hsound (.left hphase hconnected) (Or.inr rfl)
  | parked hphase hqueue => exact h.reset hsound (.parked hphase hqueue) (Or.inl rfl)
  | skipped number hphase hcancelled =>
      exact h.reset hsound (.skipped number hphase hcancelled) (Or.inl rfl)
  | served number request answer hphase hrequest hanswer =>
      exact h.reset hsound (.served number request answer hphase hrequest hanswer) (Or.inl rfl)
  | unasked number hphase hrequest =>
      exact h.reset hsound (.unasked number hphase hrequest) (Or.inl rfl)
  | rested hphase => exact h.reset hsound (.rested hphase) (Or.inr hphase)

theorem told_of_run {events : List (Event Message Call Reason)}
    (hrun : runActor service events = .ok actor) : Told service events actor := by
  have h : runActor service events = .ok actor ∧ Sound service actor ∧
      Told service events actor := by
    refine run_invariant_of_ok (fun events actor => runActor service events = .ok actor ∧
      Sound service actor ∧ Told service events actor) ⟨rfl, sound_init, told_init⟩ ?_ hrun
    intro before actor event next ⟨hbefore, hsound, htold⟩ hstep
    have hstepped := stepped_of_step hstep
    exact ⟨(runActor_concat hbefore event).trans hstep, hstepped.sound hsound,
      hstepped.told hsound hbefore htold⟩
  exact h.2.2

/-- An answer is the answer to exactly the messages that had been pushed when the
task last looked for messages before it took the request. -/
theorem answered_from_look {events : List (Event Message Call Reason)}
    (hrun : runActor service events = .ok actor) {number : ℕ} {answer : Answer}
    (hfilled : actor.mailboxAt number = .filled answer) :
    ∃ front looked messages state request,
      Took service events number front looked ∧ pushes front = messages.map some ∧
      run service.apply service.init messages = .ok state ∧
      actor.requestAt service number = some request ∧
      service.answer state request = .ok answer := by
  obtain ⟨front, request, looked, htook, hrequest, hanswer⟩ :=
    (told_of_run hrun).filled number answer hfilled
  obtain ⟨messages, hmessages, hstate⟩ :=
    state_of_messages_eq_nil htook.1.run (by simp [htook.1.phase]) htook.1.messages
  exact ⟨front, looked, messages, looked.state, request, htook, hmessages, hstate, hrequest,
    hanswer⟩

end Solfees.Actors
