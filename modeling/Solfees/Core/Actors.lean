import Solfees.Core.Run

/-!
# Actors with two queues

One task owns a state and serves two queues.  Messages change the state and are
taken first; requests are answered from the state, and each carries the sending
end of a one-shot channel.  The queue of messages is unbounded, that of requests
is not, and a caller may leave before it is answered.
-/

namespace Solfees.Actors

open Solfees.Run

/-- What an actor does with a message and with a request, and how many requests
may wait.  A call that asks for nothing is decided by its caller alone. -/
structure Service (State Message Call Request Answer Fault : Type*) where
  init : State
  apply : State → Message → Except Fault State
  requestOf : Call → Option Request
  answer : State → Request → Except Fault Answer
  capacity : ℕ

/-- A one-shot channel, as its receiver finds it.  It is `unused` if the request
was not sent at all. -/
inductive Mailbox (Answer : Type*)
  | unused
  | empty
  | filled (answer : Answer)
  | dropped
  deriving DecidableEq, Repr

/-- What a call comes to for its caller. -/
inductive Outcome (Answer Reason : Type*)
  | alone
  | full
  | closed
  | cancelled (reason : Reason)
  | abandoned
  | dropped
  | answered (answer : Answer)
  deriving DecidableEq, Repr

/-- A call, the flag it shares with the actor, its one-shot channel, and its
outcome once it has one. -/
structure Ticket (Call Answer Reason : Type*) where
  call : Call
  cancelled : Bool
  mailbox : Mailbox Answer
  outcome : Option (Outcome Answer Reason)
  deriving DecidableEq, Repr

/-- Where the task stands: about to look at the messages, about to look at the
requests after it saw no message, with a request whose flag is not read yet, with
a request it answers, or at its end. -/
inductive Phase
  | first
  | second
  | taken (ticket : ℕ)
  | serving (ticket : ℕ)
  | ended
  deriving DecidableEq, Repr

/-- The message `none` asks the actor to end.  The tickets are numbered by their
places in the list, and the queue holds numbers. -/
structure Actor (State Message Call Answer Reason : Type*) where
  state : State
  messages : List (Option Message)
  queue : List ℕ
  tickets : List (Ticket Call Answer Reason)
  phase : Phase
  connected : Bool

/-- What may come next: one of the senders, callers or timers acts, the last
sender is gone, or the task goes on. -/
inductive Event (Message Call Reason : Type*)
  | push (message : Option Message)
  | call (call : Call)
  | cancel (ticket : ℕ) (reason : Reason)
  | abandon (ticket : ℕ)
  | receive (ticket : ℕ)
  | release
  | turn
  deriving DecidableEq, Repr

variable {State Message Call Request Answer Reason Fault : Type*}

/-! ## The callers -/

namespace Ticket

variable (ticket : Ticket Call Answer Reason)

/-- A caller that still waits raises the flag and leaves. -/
def cancel (reason : Reason) : Ticket Call Answer Reason :=
  match ticket.outcome with
  | none => { ticket with cancelled := true, outcome := some (.cancelled reason) }
  | some _ => ticket

/-- A caller that still waits is dropped, and raises no flag. -/
def abandon : Ticket Call Answer Reason :=
  match ticket.outcome with
  | none => { ticket with outcome := some .abandoned }
  | some _ => ticket

/-- A caller that still waits looks into its mailbox. -/
def receive : Ticket Call Answer Reason :=
  match ticket.outcome, ticket.mailbox with
  | none, .filled answer => { ticket with outcome := some (.answered answer) }
  | none, .dropped => { ticket with outcome := some .dropped }
  | _, _ => ticket

def setMailbox (mailbox : Mailbox Answer) : Ticket Call Answer Reason :=
  { ticket with mailbox := mailbox }

end Ticket

namespace Actor

def init (service : Service State Message Call Request Answer Fault) :
    Actor State Message Call Answer Reason where
  state := service.init
  messages := []
  queue := []
  tickets := []
  phase := .first
  connected := true

variable (actor : Actor State Message Call Answer Reason)

/-- A new ticket. -/
def issue (call : Call) (mailbox : Mailbox Answer)
    (outcome : Option (Outcome Answer Reason)) : Actor State Message Call Answer Reason :=
  { actor with tickets := actor.tickets ++ [⟨call, false, mailbox, outcome⟩] }

def update (ticket : ℕ) (change : Ticket Call Answer Reason → Ticket Call Answer Reason) :
    Actor State Message Call Answer Reason :=
  { actor with tickets := actor.tickets.modify ticket change }

/-- The queues are dropped with the task, and every request in them. -/
def stop : Actor State Message Call Answer Reason :=
  { actor with
    messages := []
    queue := []
    tickets := actor.tickets.mapIdx fun number ticket =>
      if number ∈ actor.queue then ticket.setMailbox .dropped else ticket
    phase := .ended }

variable (service : Service State Message Call Request Answer Fault)

/-- A call that asks for something tries to queue its request. -/
def onCall (call : Call) : Actor State Message Call Answer Reason :=
  match service.requestOf call with
  | none => actor.issue call .unused (some .alone)
  | some _ =>
      if actor.phase = .ended then actor.issue call .unused (some .closed)
      else if service.capacity ≤ actor.queue.length then
        actor.issue call .unused (some .full)
      else
        { actor.issue call .empty none with
          queue := actor.queue ++ [actor.tickets.length] }

/-- The request of a ticket. -/
def requestAt (ticket : ℕ) : Option Request :=
  actor.tickets[ticket]?.bind fun ticket => service.requestOf ticket.call

/-- The next step of the task. -/
def onTurn : Except Fault (Actor State Message Call Answer Reason) :=
  match actor.phase with
  | .first =>
      match actor.messages with
      | some message :: messages =>
          match service.apply actor.state message with
          | .ok state => .ok { actor with state := state, messages := messages }
          | .error fault => .error fault
      | none :: _ => .ok actor.stop
      | [] => .ok (if actor.connected then { actor with phase := .second } else actor.stop)
  | .second =>
      match actor.queue with
      | ticket :: queue => .ok { actor with queue := queue, phase := .taken ticket }
      | [] => .ok (if actor.connected then { actor with phase := .first } else actor.stop)
  | .taken ticket =>
      -- the request goes out of scope, and its sender with it
      if actor.tickets[ticket]?.any Ticket.cancelled then
        .ok { actor.update ticket (·.setMailbox .dropped) with phase := .first }
      else .ok { actor with phase := .serving ticket }
  | .serving ticket =>
      match actor.requestAt service ticket with
      | some request =>
          match service.answer actor.state request with
          | .ok answer => .ok
              { actor.update ticket (·.setMailbox (.filled answer)) with phase := .first }
          | .error fault => .error fault
      | none => .ok { actor with phase := .first }
  | .ended => .ok actor

def step : Event Message Call Reason → Except Fault (Actor State Message Call Answer Reason)
  | .push message =>
      .ok (if actor.phase = .ended then actor
        else { actor with messages := actor.messages ++ [message] })
  | .call call => .ok (actor.onCall service call)
  | .cancel ticket reason => .ok (actor.update ticket (·.cancel reason))
  | .abandon ticket => .ok (actor.update ticket Ticket.abandon)
  | .receive ticket => .ok (actor.update ticket Ticket.receive)
  | .release => .ok { actor with connected := false }
  | .turn => actor.onTurn service

end Actor

/-- The actor after the events. -/
def runActor (service : Service State Message Call Request Answer Fault)
    (events : List (Event Message Call Reason)) :
    Except Fault (Actor State Message Call Answer Reason) :=
  run (fun actor event => actor.step service event) (.init service) events

/-! ## What a step can do -/

variable {service : Service State Message Call Request Answer Fault}
  {actor next : Actor State Message Call Answer Reason}

/-- Every way in which an event can change the actor. -/
inductive Stepped (service : Service State Message Call Request Answer Fault)
    (actor : Actor State Message Call Answer Reason) :
    Event Message Call Reason → Actor State Message Call Answer Reason → Prop
  | pushed (message : Option Message) (hphase : actor.phase ≠ .ended) :
      Stepped service actor (.push message)
        { actor with messages := actor.messages ++ [message] }
  | pushedLate (message : Option Message) (hphase : actor.phase = .ended) :
      Stepped service actor (.push message) actor
  | alone (call : Call) (hrequest : service.requestOf call = none) :
      Stepped service actor (.call call) (actor.issue call .unused (some .alone))
  | closed (call : Call) (request : Request)
      (hrequest : service.requestOf call = some request) (hphase : actor.phase = .ended) :
      Stepped service actor (.call call) (actor.issue call .unused (some .closed))
  | full (call : Call) (request : Request)
      (hrequest : service.requestOf call = some request)
      (hfull : service.capacity ≤ actor.queue.length) :
      Stepped service actor (.call call) (actor.issue call .unused (some .full))
  | accepted (call : Call) (request : Request)
      (hrequest : service.requestOf call = some request) (hphase : actor.phase ≠ .ended)
      (hfree : actor.queue.length < service.capacity) :
      Stepped service actor (.call call)
        { actor.issue call .empty none with
          queue := actor.queue ++ [actor.tickets.length] }
  | cancelled (ticket : ℕ) (reason : Reason) :
      Stepped service actor (.cancel ticket reason) (actor.update ticket (·.cancel reason))
  | abandoned (ticket : ℕ) :
      Stepped service actor (.abandon ticket) (actor.update ticket Ticket.abandon)
  | received (ticket : ℕ) :
      Stepped service actor (.receive ticket) (actor.update ticket Ticket.receive)
  | released : Stepped service actor .release { actor with connected := false }
  | applied (message : Message) (messages : List (Option Message)) (state : State)
      (hphase : actor.phase = .first) (hmessages : actor.messages = some message :: messages)
      (happly : service.apply actor.state message = .ok state) :
      Stepped service actor .turn { actor with state := state, messages := messages }
  | asked (messages : List (Option Message)) (hphase : actor.phase = .first)
      (hmessages : actor.messages = none :: messages) :
      Stepped service actor .turn actor.stop
  | looked (hphase : actor.phase = .first) (hmessages : actor.messages = []) :
      Stepped service actor .turn { actor with phase := .second }
  | left (hphase : actor.phase = .first ∧ actor.messages = [] ∨
        actor.phase = .second ∧ actor.queue = []) (hconnected : actor.connected = false) :
      Stepped service actor .turn actor.stop
  | took (ticket : ℕ) (queue : List ℕ) (hphase : actor.phase = .second)
      (hqueue : actor.queue = ticket :: queue) :
      Stepped service actor .turn { actor with queue := queue, phase := .taken ticket }
  | parked (hphase : actor.phase = .second) (hqueue : actor.queue = []) :
      Stepped service actor .turn { actor with phase := .first }
  | skipped (ticket : ℕ) (hphase : actor.phase = .taken ticket)
      (hcancelled : actor.tickets[ticket]?.any Ticket.cancelled = true) :
      Stepped service actor .turn
        { actor.update ticket (·.setMailbox .dropped) with phase := .first }
  | loaded (ticket : ℕ) (hphase : actor.phase = .taken ticket)
      (hcancelled : actor.tickets[ticket]?.any Ticket.cancelled = false) :
      Stepped service actor .turn { actor with phase := .serving ticket }
  | served (ticket : ℕ) (request : Request) (answer : Answer)
      (hphase : actor.phase = .serving ticket)
      (hrequest : actor.requestAt service ticket = some request)
      (hanswer : service.answer actor.state request = .ok answer) :
      Stepped service actor .turn
        { actor.update ticket (·.setMailbox (.filled answer)) with phase := .first }
  | unasked (ticket : ℕ) (hphase : actor.phase = .serving ticket)
      (hrequest : actor.requestAt service ticket = none) :
      Stepped service actor .turn { actor with phase := .first }
  | rested (hphase : actor.phase = .ended) : Stepped service actor .turn actor

theorem stepped_of_onCall (call : Call) :
    Stepped service actor (.call call : Event Message Call Reason)
      (actor.onCall service call) := by
  rw [Actor.onCall]
  cases hrequest : service.requestOf call with
  | none => exact .alone call hrequest
  | some request =>
      by_cases hphase : actor.phase = .ended
      · simpa only [hphase, if_true] using .closed call request hrequest hphase
      · by_cases hfull : service.capacity ≤ actor.queue.length
        · simpa only [hphase, hfull, if_true, if_false] using .full call request hrequest hfull
        · simpa only [hphase, hfull, if_false] using
            .accepted call request hrequest hphase (not_le.1 hfull)

theorem stepped_of_onTurn (h : actor.onTurn service = .ok next) :
    Stepped service actor (.turn : Event Message Call Reason) next := by
  rw [Actor.onTurn] at h
  split at h
  next hphase =>
    split at h
    next message messages hmessages =>
      split at h
      next state happly =>
        cases h
        exact .applied message messages state hphase hmessages happly
      next => cases h
    next messages hmessages =>
      cases h
      exact .asked messages hphase hmessages
    next hmessages =>
      split at h
      next =>
        cases h
        exact .looked hphase hmessages
      next hconnected =>
        cases h
        exact .left (Or.inl ⟨hphase, hmessages⟩) (by simpa using hconnected)
  next hphase =>
    split at h
    next ticket queue hqueue =>
      cases h
      exact .took ticket queue hphase hqueue
    next hqueue =>
      split at h
      next =>
        cases h
        exact .parked hphase hqueue
      next hconnected =>
        cases h
        exact .left (Or.inr ⟨hphase, hqueue⟩) (by simpa using hconnected)
  next ticket hphase =>
    split at h
    next hcancelled =>
      cases h
      exact .skipped ticket hphase hcancelled
    next hcancelled =>
      cases h
      exact .loaded ticket hphase (by simpa using hcancelled)
  next ticket hphase =>
    split at h
    next request hrequest =>
      split at h
      next answer hanswer =>
        cases h
        exact .served ticket request answer hphase hrequest hanswer
      next => cases h
    next hrequest =>
      cases h
      exact .unasked ticket hphase hrequest
  next hphase =>
    cases h
    exact .rested hphase

/-- The task fails only if a message or a request makes it fail. -/
theorem exists_onTurn
    (happly : ∀ message messages, actor.phase = .first →
      actor.messages = some message :: messages →
      ∃ state, service.apply actor.state message = .ok state)
    (hanswer : ∀ ticket request, actor.phase = .serving ticket →
      actor.requestAt service ticket = some request →
      ∃ answer, service.answer actor.state request = .ok answer) :
    ∃ next, actor.onTurn service = .ok next := by
  rw [Actor.onTurn]
  split
  next hphase =>
    split
    next message messages hmessages =>
      obtain ⟨state, hstate⟩ := happly message messages hphase hmessages
      rw [hstate]
      exact ⟨_, rfl⟩
    next => exact ⟨_, rfl⟩
    next => exact ⟨_, rfl⟩
  next => split <;> exact ⟨_, rfl⟩
  next => split <;> exact ⟨_, rfl⟩
  next ticket hphase =>
    split
    next request hrequest =>
      obtain ⟨answer, hok⟩ := hanswer ticket request hphase hrequest
      rw [hok]
      exact ⟨_, rfl⟩
    next => exact ⟨_, rfl⟩
  next => exact ⟨_, rfl⟩

theorem stepped_of_step {event : Event Message Call Reason}
    (h : actor.step service event = .ok next) : Stepped service actor event next := by
  cases event with
  | push message =>
      cases h
      by_cases hphase : actor.phase = .ended
      · simpa only [hphase, if_true] using .pushedLate message hphase
      · simpa only [hphase, if_false] using .pushed message hphase
  | call call =>
      cases h
      exact stepped_of_onCall call
  | cancel ticket reason =>
      cases h
      exact .cancelled ticket reason
  | abandon ticket =>
      cases h
      exact .abandoned ticket
  | receive ticket =>
      cases h
      exact .received ticket
  | release =>
      cases h
      exact .released
  | turn => exact stepped_of_onTurn h

end Solfees.Actors
