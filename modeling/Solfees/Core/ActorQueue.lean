import Solfees.Core.Actors

/-!
# The queue of an actor

A call that was accepted is in the queue, in the hands of the task, or resolved,
and never more than one of these.  Requests leave the queue in the order in which
they came, so a resolved call is older than every call that still waits.
-/

namespace Solfees.Actors

open Solfees.Run

variable {State Message Call Request Answer Reason Fault : Type*}

/-- The ticket in the hands of the task. -/
def Phase.tickets : Phase → List ℕ
  | .taken ticket => [ticket]
  | .serving ticket => [ticket]
  | _ => []

namespace Ticket

/-- The outcome of a call, its flag and its mailbox fit together. -/
def Fits (ticket : Ticket Call Answer Reason) : Prop :=
  match ticket.outcome with
  | none => ticket.mailbox ≠ .unused ∧ ticket.cancelled = false
  | some .alone => ticket.mailbox = .unused
  | some .full => ticket.mailbox = .unused
  | some .closed => ticket.mailbox = .unused
  | some (.cancelled _) => ticket.mailbox ≠ .unused ∧ ticket.cancelled = true
  | some .abandoned => ticket.mailbox ≠ .unused ∧ ticket.cancelled = false
  | some .dropped => ticket.mailbox = .dropped ∧ ticket.cancelled = false
  | some (.answered answer) => ticket.mailbox = .filled answer ∧ ticket.cancelled = false

/-- Moreover, the calls decided without the actor are those that ask for nothing. -/
structure Consistent (service : Service State Message Call Request Answer Fault)
    (ticket : Ticket Call Answer Reason) : Prop where
  alone_iff : ticket.outcome = some .alone ↔ service.requestOf ticket.call = none
  fits : ticket.Fits

variable {service : Service State Message Call Request Answer Fault}
  {ticket : Ticket Call Answer Reason}

/-- What a caller does to its ticket leaves the mailbox alone. -/
@[simp]
theorem cancel_mailbox (reason : Reason) : (ticket.cancel reason).mailbox = ticket.mailbox := by
  rw [cancel]
  split <;> rfl

@[simp]
theorem abandon_mailbox : ticket.abandon.mailbox = ticket.mailbox := by
  rw [abandon]
  split <;> rfl

@[simp]
theorem receive_mailbox : ticket.receive.mailbox = ticket.mailbox := by
  rw [receive]
  split <;> rfl

@[simp]
theorem setMailbox_mailbox (mailbox : Mailbox Answer) :
    (ticket.setMailbox mailbox).mailbox = mailbox := rfl

/-- What stays of a ticket: its call, a raised flag, and an outcome. -/
structure Evolves (old new : Ticket Call Answer Reason) : Prop where
  call : new.call = old.call
  cancelled : old.cancelled = true → new.cancelled = true
  outcome : ∀ outcome, old.outcome = some outcome → new.outcome = some outcome

theorem Evolves.refl (ticket : Ticket Call Answer Reason) : Evolves ticket ticket :=
  ⟨rfl, id, fun _ => id⟩

theorem Evolves.trans {old middle new : Ticket Call Answer Reason} (h : Evolves old middle)
    (h' : Evolves middle new) : Evolves old new where
  call := h'.call.trans h.call
  cancelled hcancelled := h'.cancelled (h.cancelled hcancelled)
  outcome outcome houtcome := h'.outcome outcome (h.outcome outcome houtcome)

theorem evolves_cancel (reason : Reason) : Evolves ticket (ticket.cancel reason) := by
  rw [cancel]
  split
  next houtcome => exact ⟨rfl, fun _ => rfl, fun outcome h => by simp [houtcome] at h⟩
  next => exact .refl ticket

theorem evolves_abandon : Evolves ticket ticket.abandon := by
  rw [abandon]
  split
  next houtcome => exact ⟨rfl, id, fun outcome h => by simp [houtcome] at h⟩
  next => exact .refl ticket

theorem evolves_receive : Evolves ticket ticket.receive := by
  rw [receive]
  split
  next houtcome _ => exact ⟨rfl, id, fun outcome h => by simp [houtcome] at h⟩
  next houtcome _ => exact ⟨rfl, id, fun outcome h => by simp [houtcome] at h⟩
  next => exact .refl ticket

theorem evolves_setMailbox (mailbox : Mailbox Answer) :
    Evolves ticket (ticket.setMailbox mailbox) :=
  ⟨rfl, id, fun _ => id⟩

theorem Consistent.cancel (h : ticket.Consistent service) (reason : Reason) :
    (ticket.cancel reason).Consistent service := by
  rw [Ticket.cancel]
  split
  next houtcome =>
    have hfits := h.fits
    have halone := h.alone_iff
    rw [houtcome] at halone
    rw [Fits, houtcome] at hfits
    exact ⟨iff_of_false (by simp) (by simpa using halone), hfits.1, rfl⟩
  next => exact h

theorem Consistent.abandon (h : ticket.Consistent service) :
    ticket.abandon.Consistent service := by
  rw [Ticket.abandon]
  split
  next houtcome =>
    have hfits := h.fits
    have halone := h.alone_iff
    rw [houtcome] at halone
    rw [Fits, houtcome] at hfits
    exact ⟨iff_of_false (by simp) (by simpa using halone), hfits⟩
  next => exact h

theorem Consistent.receive (h : ticket.Consistent service) :
    ticket.receive.Consistent service := by
  have hfits := h.fits
  have halone := h.alone_iff
  rw [Ticket.receive]
  split
  next answer houtcome hmailbox =>
    rw [houtcome] at halone
    rw [Fits, houtcome] at hfits
    exact ⟨iff_of_false (by simp) (by simpa using halone), hmailbox, hfits.2⟩
  next houtcome hmailbox =>
    rw [houtcome] at halone
    rw [Fits, houtcome] at hfits
    exact ⟨iff_of_false (by simp) (by simpa using halone), hmailbox, hfits.2⟩
  next => exact h

/-- The task resolves a call only while its mailbox is empty. -/
theorem Consistent.setMailbox (h : ticket.Consistent service)
    (hempty : ticket.mailbox = .empty) {mailbox : Mailbox Answer}
    (hused : mailbox ≠ .unused) : (ticket.setMailbox mailbox).Consistent service := by
  refine ⟨h.alone_iff, ?_⟩
  have hfits := h.fits
  rw [Fits] at hfits
  change match ticket.outcome with
    | none => mailbox ≠ .unused ∧ ticket.cancelled = false
    | some .alone => mailbox = .unused
    | some .full => mailbox = .unused
    | some .closed => mailbox = .unused
    | some (.cancelled _) => mailbox ≠ .unused ∧ ticket.cancelled = true
    | some .abandoned => mailbox ≠ .unused ∧ ticket.cancelled = false
    | some .dropped => mailbox = .dropped ∧ ticket.cancelled = false
    | some (.answered answer) => mailbox = .filled answer ∧ ticket.cancelled = false
  split at hfits <;> simp_all

/-- A call that was not decided alone asks for something. -/
theorem Consistent.requestOf_isSome_of_ne (h : ticket.Consistent service)
    (halone : ticket.outcome ≠ some .alone) : (service.requestOf ticket.call).isSome := by
  rw [Option.isSome_iff_ne_none, ne_eq, ← h.alone_iff]
  exact halone

theorem Consistent.requestOf_isSome (h : ticket.Consistent service)
    (hused : ticket.mailbox ≠ .unused) : (service.requestOf ticket.call).isSome := by
  apply h.requestOf_isSome_of_ne
  intro halone
  have hfits := h.fits
  rw [Fits, halone] at hfits
  exact hused hfits

end Ticket

namespace Actor

variable (actor : Actor State Message Call Answer Reason)

/-- The tickets that the task has still to deal with, the next one first. -/
def active : List ℕ :=
  actor.phase.tickets ++ actor.queue

/-- The mailbox of a ticket; a number that was not given has none in use. -/
def mailboxAt (ticket : ℕ) : Mailbox Answer :=
  actor.tickets[ticket]?.elim .unused Ticket.mailbox

variable {actor}

theorem mailboxAt_of_getElem? {number : ℕ} {ticket : Ticket Call Answer Reason}
    (hticket : actor.tickets[number]? = some ticket) :
    actor.mailboxAt number = ticket.mailbox := by
  rw [mailboxAt, hticket]
  rfl

/-- A mailbox in use belongs to a ticket. -/
theorem exists_ticket_of_mailboxAt {number : ℕ} (h : actor.mailboxAt number ≠ .unused) :
    ∃ ticket, actor.tickets[number]? = some ticket ∧
      ticket.mailbox = actor.mailboxAt number := by
  cases hticket : actor.tickets[number]? with
  | none =>
      rw [mailboxAt, hticket] at h
      exact absurd rfl h
  | some ticket => exact ⟨ticket, rfl, (mailboxAt_of_getElem? hticket).symm⟩

theorem mailboxAt_length : actor.mailboxAt actor.tickets.length = .unused := by
  rw [mailboxAt, List.getElem?_eq_none le_rfl]
  rfl

theorem mailboxAt_issue (call : Call) (mailbox : Mailbox Answer)
    (outcome : Option (Outcome Answer Reason)) (number : ℕ) :
    (actor.issue call mailbox outcome).mailboxAt number =
      if number = actor.tickets.length then mailbox else actor.mailboxAt number := by
  rw [mailboxAt, mailboxAt, issue]
  split
  next hnumber => simp [hnumber]
  next hnumber =>
    rcases lt_or_gt_of_ne hnumber with hlt | hgt
    · rw [List.getElem?_append_left hlt]
    · rw [List.getElem?_eq_none (by simpa using hgt), List.getElem?_eq_none hgt.le]

/-- A caller leaves every mailbox alone. -/
theorem mailboxAt_update {change : Ticket Call Answer Reason → Ticket Call Answer Reason}
    (hchange : ∀ ticket, (change ticket).mailbox = ticket.mailbox) (number other : ℕ) :
    (actor.update number change).mailboxAt other = actor.mailboxAt other := by
  rw [mailboxAt, mailboxAt, update, List.getElem?_modify]
  cases actor.tickets[other]? with
  | none => rfl
  | some ticket =>
      by_cases hother : number = other
      · simp [hother, hchange]
      · simp [hother]

theorem mailboxAt_setMailbox {number : ℕ} (hnumber : actor.mailboxAt number ≠ .unused)
    (mailbox : Mailbox Answer) (other : ℕ) :
    (actor.update number (·.setMailbox mailbox)).mailboxAt other =
      if other = number then mailbox else actor.mailboxAt other := by
  rw [mailboxAt, mailboxAt, update, List.getElem?_modify]
  by_cases hother : number = other
  · obtain ⟨ticket, hticket, -⟩ := exists_ticket_of_mailboxAt hnumber
    simp [← hother, hticket]
  · simp [hother, Ne.symm hother]

theorem mailboxAt_stop (hqueue : ∀ number ∈ actor.queue, actor.mailboxAt number ≠ .unused)
    (number : ℕ) :
    actor.stop.mailboxAt number =
      if number ∈ actor.queue then .dropped else actor.mailboxAt number := by
  rw [mailboxAt, mailboxAt, stop, List.getElem?_mapIdx]
  by_cases hmem : number ∈ actor.queue
  · obtain ⟨ticket, hticket, -⟩ := exists_ticket_of_mailboxAt (hqueue number hmem)
    simp [hmem, hticket]
  · simp [hmem]

end Actor

/-! ## What stays of the tickets -/

namespace Actor

variable {actor : Actor State Message Call Answer Reason} {number : ℕ}
  {ticket : Ticket Call Answer Reason}

theorem evolves_issue (hticket : actor.tickets[number]? = some ticket) (call : Call)
    (mailbox : Mailbox Answer) (outcome : Option (Outcome Answer Reason)) :
    ∃ new, (actor.issue call mailbox outcome).tickets[number]? = some new ∧
      ticket.Evolves new := by
  rw [issue, List.getElem?_append_left (List.getElem?_eq_some_iff.1 hticket).1]
  exact ⟨ticket, hticket, .refl ticket⟩

theorem evolves_update (hticket : actor.tickets[number]? = some ticket)
    {change : Ticket Call Answer Reason → Ticket Call Answer Reason}
    (hchange : ticket.Evolves (change ticket)) (other : ℕ) :
    ∃ new, (actor.update other change).tickets[number]? = some new ∧
      ticket.Evolves new := by
  rw [update, List.getElem?_modify, hticket]
  by_cases hother : other = number
  · exact ⟨change ticket, by simp [hother], hchange⟩
  · exact ⟨ticket, by simp [hother], .refl ticket⟩

theorem evolves_stop (hticket : actor.tickets[number]? = some ticket) :
    ∃ new, actor.stop.tickets[number]? = some new ∧ ticket.Evolves new := by
  rw [stop, List.getElem?_mapIdx, hticket]
  by_cases hmem : number ∈ actor.queue
  · exact ⟨ticket.setMailbox .dropped, by simp [hmem], ticket.evolves_setMailbox .dropped⟩
  · exact ⟨ticket, by simp [hmem], .refl ticket⟩

end Actor

variable {service : Service State Message Call Request Answer Fault}
  {actor next : Actor State Message Call Answer Reason}

theorem Stepped.evolves {event : Event Message Call Reason}
    (hstep : Stepped service actor event next) {number : ℕ}
    {ticket : Ticket Call Answer Reason} (hticket : actor.tickets[number]? = some ticket) :
    ∃ new, next.tickets[number]? = some new ∧ ticket.Evolves new := by
  cases hstep with
  | alone call _ => exact Actor.evolves_issue hticket call _ _
  | closed call _ _ _ => exact Actor.evolves_issue hticket call _ _
  | full call _ _ _ => exact Actor.evolves_issue hticket call _ _
  | accepted call _ _ _ _ => exact Actor.evolves_issue hticket call _ _
  | cancelled other reason =>
      exact Actor.evolves_update hticket (ticket.evolves_cancel reason) other
  | abandoned other => exact Actor.evolves_update hticket ticket.evolves_abandon other
  | received other => exact Actor.evolves_update hticket ticket.evolves_receive other
  | asked _ _ _ => exact Actor.evolves_stop hticket
  | left _ _ => exact Actor.evolves_stop hticket
  | skipped other _ _ =>
      exact Actor.evolves_update hticket (ticket.evolves_setMailbox .dropped) other
  | served other _ answer _ _ _ =>
      exact Actor.evolves_update hticket (ticket.evolves_setMailbox (.filled answer)) other
  | pushed _ _ => exact ⟨ticket, hticket, .refl ticket⟩
  | pushedLate _ _ => exact ⟨ticket, hticket, .refl ticket⟩
  | released => exact ⟨ticket, hticket, .refl ticket⟩
  | applied _ _ _ _ _ _ => exact ⟨ticket, hticket, .refl ticket⟩
  | looked _ _ => exact ⟨ticket, hticket, .refl ticket⟩
  | took _ _ _ _ => exact ⟨ticket, hticket, .refl ticket⟩
  | parked _ _ => exact ⟨ticket, hticket, .refl ticket⟩
  | loaded _ _ _ => exact ⟨ticket, hticket, .refl ticket⟩
  | unasked _ _ _ => exact ⟨ticket, hticket, .refl ticket⟩
  | rested _ => exact ⟨ticket, hticket, .refl ticket⟩

theorem evolves_of_run {events : List (Event Message Call Reason)}
    (hrun : run (fun actor event => actor.step service event) actor events = .ok next)
    {number : ℕ} {ticket : Ticket Call Answer Reason}
    (hticket : actor.tickets[number]? = some ticket) :
    ∃ new, next.tickets[number]? = some new ∧ ticket.Evolves new := by
  refine run_invariant_of_ok
    (fun _ next => ∃ new, next.tickets[number]? = some new ∧ ticket.Evolves new)
    ⟨ticket, hticket, .refl ticket⟩ ?_ hrun
  intro before state event after ⟨middle, hmiddle, hevolves⟩ hstep
  obtain ⟨new, hnew, hlast⟩ := (stepped_of_step hstep).evolves hmiddle
  exact ⟨new, hnew, hevolves.trans hlast⟩

/-! ## The invariant -/

/-- How the queue, the tickets and the task fit together. -/
structure Sound (service : Service State Message Call Request Answer Fault)
    (actor : Actor State Message Call Answer Reason) : Prop where
  sorted : actor.active.Pairwise (· < ·)
  empty_iff : ∀ number, actor.mailboxAt number = .empty ↔ number ∈ actor.active
  resolved : ∀ number, actor.mailboxAt number ≠ .unused → number ∉ actor.active →
    ∀ waiting ∈ actor.active, number < waiting
  bounded : actor.queue.length ≤ service.capacity
  ended : actor.phase = .ended → actor.queue = []
  consistent : ∀ ticket ∈ actor.tickets, ticket.Consistent service

theorem sound_init :
    Sound service (.init service : Actor State Message Call Answer Reason) := by
  constructor <;> simp [Actor.init, Actor.active, Actor.mailboxAt, Phase.tickets]

namespace Sound

/-- The tickets and the ones to deal with decide most of the invariant. -/
theorem congr (h : Sound service actor) (htickets : next.tickets = actor.tickets)
    (hactive : next.active = actor.active) (hqueue : next.queue.length ≤ actor.queue.length)
    (hended : next.phase = .ended → next.queue = []) : Sound service next where
  sorted := hactive ▸ h.sorted
  empty_iff number := by
    rw [Actor.mailboxAt, htickets, hactive]
    exact h.empty_iff number
  resolved number := by
    rw [Actor.mailboxAt, htickets, hactive]
    exact h.resolved number
  bounded := hqueue.trans h.bounded
  ended := hended
  consistent := htickets ▸ h.consistent

/-- The task moves on, and deals with no ticket. -/
theorem advance (h : Sound service actor) {phase : Phase} {queue : List ℕ}
    (hactive : phase.tickets ++ queue = actor.active)
    (hqueue : queue.length ≤ actor.queue.length) (hphase : phase ≠ .ended) :
    Sound service { actor with queue := queue, phase := phase } :=
  h.congr rfl hactive hqueue fun hended => absurd hended hphase

theorem mailboxAt_of_mem (h : Sound service actor) {number : ℕ}
    (hnumber : number ∈ actor.active) : actor.mailboxAt number = .empty :=
  (h.empty_iff number).2 hnumber

/-- Every ticket to deal with was given. -/
theorem lt_length (h : Sound service actor) {number : ℕ} (hnumber : number ∈ actor.active) :
    number < actor.tickets.length := by
  by_contra hlength
  have hempty := h.mailboxAt_of_mem hnumber
  rw [Actor.mailboxAt, List.getElem?_eq_none (not_lt.1 hlength)] at hempty
  cases hempty

/-- A call that is not queued. -/
theorem issue_unused (h : Sound service actor) (call : Call)
    {outcome : Outcome Answer Reason}
    (hconsistent : Ticket.Consistent service ⟨call, false, .unused, some outcome⟩) :
    Sound service (actor.issue call .unused (some outcome)) := by
  have hmailbox (number : ℕ) :
      (actor.issue call .unused (some outcome)).mailboxAt number =
        actor.mailboxAt number := by
    rw [Actor.mailboxAt_issue]
    split
    next hnumber => rw [hnumber, Actor.mailboxAt_length]
    next => rfl
  constructor
  · exact h.sorted
  · intro number
    rw [hmailbox]
    exact h.empty_iff number
  · intro number
    rw [hmailbox]
    exact h.resolved number
  · exact h.bounded
  · exact h.ended
  · intro ticket hticket
    rw [Actor.issue, List.mem_append, List.mem_singleton] at hticket
    rcases hticket with hticket | rfl
    · exact h.consistent ticket hticket
    · exact hconsistent

/-- A call that is queued goes behind all others. -/
theorem accept (h : Sound service actor) {call : Call} {request : Request}
    (hrequest : service.requestOf call = some request) (hphase : actor.phase ≠ .ended)
    (hfree : actor.queue.length < service.capacity) :
    Sound service { actor.issue call .empty none with
      queue := actor.queue ++ [actor.tickets.length] } := by
  set accepted : Actor State Message Call Answer Reason :=
    { actor.issue call .empty none with
      queue := actor.queue ++ [actor.tickets.length] } with haccepted
  have hactive : accepted.active = actor.active ++ [actor.tickets.length] :=
    (List.append_assoc _ _ _).symm
  have hmailbox (number : ℕ) : accepted.mailboxAt number =
      if number = actor.tickets.length then .empty else actor.mailboxAt number :=
    Actor.mailboxAt_issue call .empty none number
  constructor
  · rw [hactive, List.pairwise_append]
    exact ⟨h.sorted, List.pairwise_singleton _ _, fun number hnumber last hlast =>
      (List.mem_singleton.1 hlast) ▸ h.lt_length hnumber⟩
  · intro number
    rw [hmailbox, hactive, List.mem_append, List.mem_singleton, ← h.empty_iff]
    split <;> simp [*]
  · intro number hused hnumber waiting hwaiting
    rw [hmailbox] at hused
    rw [hactive, List.mem_append, List.mem_singleton] at hnumber hwaiting
    push Not at hnumber
    rw [if_neg hnumber.2] at hused
    rcases hwaiting with hwaiting | rfl
    · exact h.resolved number hused hnumber.1 waiting hwaiting
    · obtain ⟨ticket, hticket, -⟩ := Actor.exists_ticket_of_mailboxAt hused
      exact (List.getElem?_eq_some_iff.1 hticket).1
  · simpa [haccepted] using Nat.succ_le_of_lt hfree
  · exact fun hended => absurd hended hphase
  · intro ticket hticket
    rw [haccepted, Actor.issue, List.mem_append, List.mem_singleton] at hticket
    rcases hticket with hticket | rfl
    · exact h.consistent ticket hticket
    · exact ⟨by simp [hrequest], by simp, rfl⟩

/-- What a caller does to its ticket. -/
theorem update (h : Sound service actor) (number : ℕ)
    {change : Ticket Call Answer Reason → Ticket Call Answer Reason}
    (hmailbox : ∀ ticket, (change ticket).mailbox = ticket.mailbox)
    (hconsistent : ∀ ticket, ticket.Consistent service →
      (change ticket).Consistent service) : Sound service (actor.update number change) := by
  constructor
  · exact h.sorted
  · intro other
    rw [Actor.mailboxAt_update hmailbox]
    exact h.empty_iff other
  · intro other
    rw [Actor.mailboxAt_update hmailbox]
    exact h.resolved other
  · exact h.bounded
  · exact h.ended
  · intro ticket hticket
    obtain ⟨other, hother⟩ := List.getElem?_of_mem hticket
    rw [Actor.update, List.getElem?_modify, Option.map_eq_map, Option.map_eq_some_iff] at hother
    obtain ⟨old, hold, rfl⟩ := hother
    have hbefore := h.consistent old (List.mem_of_getElem? hold)
    split
    · exact hconsistent old hbefore
    · exact hbefore

/-- The task is done with the ticket in its hands. -/
theorem resolve (h : Sound service actor) {number : ℕ}
    (hphase : actor.phase.tickets = [number]) {mailbox : Mailbox Answer}
    (hused : mailbox ≠ .unused) (hfull : mailbox ≠ .empty) :
    Sound service
      { actor.update number (·.setMailbox mailbox) with phase := .first } := by
  set resolved : Actor State Message Call Answer Reason :=
    { actor.update number (·.setMailbox mailbox) with phase := .first } with hresolved
  have hactive : actor.active = number :: actor.queue := by
    rw [Actor.active, hphase]
    rfl
  have hsorted := h.sorted
  rw [hactive, List.pairwise_cons] at hsorted
  have hempty := h.mailboxAt_of_mem (hactive ▸ List.mem_cons_self)
  have hmailbox (other : ℕ) : resolved.mailboxAt other =
      if other = number then mailbox else actor.mailboxAt other :=
    Actor.mailboxAt_setMailbox (by simp [hempty]) mailbox other
  constructor
  · exact hsorted.2
  · intro other
    rw [hmailbox]
    change _ ↔ other ∈ actor.queue
    split
    next hother =>
      refine iff_of_false hfull fun hmem => ?_
      exact absurd (hsorted.1 other hmem) (by simp [hother])
    next hother => simp [h.empty_iff, hactive, hother]
  · intro other hother hmem waiting hwaiting
    rw [hmailbox] at hother
    split at hother
    next heq => exact heq ▸ hsorted.1 waiting hwaiting
    next hne =>
      refine h.resolved other hother ?_ waiting (hactive ▸ List.mem_cons_of_mem _ hwaiting)
      rw [hactive, List.mem_cons, not_or]
      exact ⟨hne, hmem⟩
  · exact h.bounded
  · exact fun hended => nomatch hended
  · intro ticket hticket
    obtain ⟨other, hother⟩ := List.getElem?_of_mem hticket
    rw [hresolved, Actor.update, List.getElem?_modify, Option.map_eq_map,
      Option.map_eq_some_iff] at hother
    obtain ⟨old, hold, rfl⟩ := hother
    have hbefore := h.consistent old (List.mem_of_getElem? hold)
    split
    next heq =>
      apply hbefore.setMailbox _ hused
      rw [← Actor.mailboxAt_of_getElem? hold, ← heq, hempty]
    next => exact hbefore

/-- The task ends with no ticket in its hands. -/
theorem stop (h : Sound service actor) (hphase : actor.phase.tickets = []) :
    Sound service actor.stop := by
  have hactive : actor.active = actor.queue := by
    rw [Actor.active, hphase]
    rfl
  have hempty {number : ℕ} (hnumber : number ∈ actor.queue) :
      actor.mailboxAt number = .empty :=
    h.mailboxAt_of_mem (hactive ▸ hnumber)
  have hmailbox (number : ℕ) : actor.stop.mailboxAt number =
      if number ∈ actor.queue then .dropped else actor.mailboxAt number :=
    Actor.mailboxAt_stop (fun number hnumber => by simp [hempty hnumber]) number
  constructor
  · exact List.Pairwise.nil
  · intro number
    rw [hmailbox]
    split
    next => simp [Actor.active, Actor.stop, Phase.tickets]
    next hnumber =>
      rw [h.empty_iff, hactive]
      simp [Actor.active, Actor.stop, Phase.tickets, hnumber]
  · exact fun _ _ _ waiting hwaiting => nomatch hwaiting
  · exact Nat.zero_le _
  · exact fun _ => rfl
  · intro ticket hticket
    obtain ⟨number, hnumber⟩ := List.getElem?_of_mem hticket
    rw [Actor.stop, List.getElem?_mapIdx, Option.map_eq_some_iff] at hnumber
    obtain ⟨old, hold, rfl⟩ := hnumber
    have hbefore := h.consistent old (List.mem_of_getElem? hold)
    split
    next hmem =>
      apply hbefore.setMailbox _ (by simp)
      rw [← Actor.mailboxAt_of_getElem? hold, hempty hmem]
    next => exact hbefore

/-- A ticket in the hands of the task has a request. -/
theorem requestAt_isSome (h : Sound service actor) {number : ℕ}
    (hnumber : number ∈ actor.active) : (actor.requestAt service number).isSome := by
  have hempty := h.mailboxAt_of_mem hnumber
  obtain ⟨ticket, hticket, hmailbox⟩ := Actor.exists_ticket_of_mailboxAt
    (show actor.mailboxAt number ≠ .unused by simp [hempty])
  rw [Actor.requestAt, hticket]
  exact (h.consistent ticket (List.mem_of_getElem? hticket)).requestOf_isSome
    (by simp [hmailbox, hempty])

end Sound

/-- Every step keeps the invariant. -/
theorem Stepped.sound {event : Event Message Call Reason}
    (hstep : Stepped service actor event next) (h : Sound service actor) :
    Sound service next := by
  cases hstep with
  | pushed message hphase => exact h.congr rfl rfl le_rfl h.ended
  | pushedLate message hphase => exact h
  | alone call hrequest => exact h.issue_unused call ⟨by simp [hrequest], rfl⟩
  | closed call request hrequest hphase =>
      exact h.issue_unused call ⟨by simp [hrequest], rfl⟩
  | full call request hrequest hfull =>
      exact h.issue_unused call ⟨by simp [hrequest], rfl⟩
  | accepted call request hrequest hphase hfree => exact h.accept hrequest hphase hfree
  | cancelled number reason =>
      exact h.update number (fun ticket => ticket.cancel_mailbox reason)
        fun ticket hticket => hticket.cancel reason
  | abandoned number =>
      exact h.update number (fun ticket => ticket.abandon_mailbox)
        fun ticket hticket => hticket.abandon
  | received number =>
      exact h.update number (fun ticket => ticket.receive_mailbox)
        fun ticket hticket => hticket.receive
  | released => exact h.congr rfl rfl le_rfl h.ended
  | applied message messages state hphase hmessages happly =>
      exact h.congr rfl rfl le_rfl h.ended
  | asked messages hphase hmessages => exact h.stop (by rw [hphase]; rfl)
  | looked hphase hmessages =>
      exact h.advance (by simp [Actor.active, hphase, Phase.tickets]) le_rfl (by simp)
  | left hphase hconnected =>
      apply h.stop
      rcases hphase with ⟨hphase, -⟩ | ⟨hphase, -⟩ <;> rw [hphase] <;> rfl
  | took number queue hphase hqueue =>
      exact h.advance (by simp [Actor.active, hphase, hqueue, Phase.tickets])
        (by simp [hqueue]) (by simp)
  | parked hphase hqueue =>
      exact h.advance (by simp [Actor.active, hphase, Phase.tickets]) le_rfl (by simp)
  | skipped number hphase hcancelled =>
      exact h.resolve (by rw [hphase]; rfl) (by simp) (by simp)
  | loaded number hphase hcancelled =>
      exact h.advance (by simp [Actor.active, hphase, Phase.tickets]) le_rfl (by simp)
  | served number request answer hphase hrequest hanswer =>
      exact h.resolve (by rw [hphase]; rfl) (by simp) (by simp)
  | unasked number hphase hrequest =>
      have hmem : number ∈ actor.active := by simp [Actor.active, hphase, Phase.tickets]
      have hsome := h.requestAt_isSome hmem
      rw [hrequest] at hsome
      cases hsome
  | rested hphase => exact h

theorem sound_of_run {events : List (Event Message Call Reason)}
    (hrun : runActor service events = .ok actor) : Sound service actor :=
  run_invariant_of_ok (fun _ actor => Sound service actor) sound_init
    (fun _ _ _ _ h hstep => (stepped_of_step hstep).sound h) hrun

end Solfees.Actors
