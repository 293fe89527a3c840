import Solfees.Core.ActorAnswers

/-!
# How long an actor makes its callers wait

Each step of the task brings it nearer to a request in the queue, and each message
that is pushed in the meantime sets it back by one step at most.  Once the actor is
asked to end, nothing sets it back.
-/

namespace Solfees.Actors

open Solfees.Run

variable {State Message Call Request Answer Reason Fault : Type*}

/-- The steps until the task has dealt with the ticket in its hands, or with the
next one in the queue. -/
def Phase.steps : Phase → ℕ
  | .first => 4
  | .second => 3
  | .taken _ => 2
  | .serving _ => 1
  | .ended => 0

/-- The steps until the task looks at the messages again. -/
def Phase.stepsToLook : Phase → ℕ
  | .first => 1
  | .second => 4
  | .taken _ => 3
  | .serving _ => 2
  | .ended => 0

namespace Actor

variable (actor : Actor State Message Call Answer Reason)

/-- A bound on the steps until the task has dealt with a ticket, if no further
message is pushed. -/
def stepsTo (number : ℕ) : ℕ :=
  actor.messages.length + 4 * actor.active.idxOf number + actor.phase.steps

/-- A bound on the steps until the actor, which is asked to end, has ended. -/
def stepsToEnd : ℕ :=
  actor.messages.findIdx Option.isNone + actor.phase.stepsToLook

/-- A bound on the steps until the actor has taken all messages that wait. -/
def stepsToDrain : ℕ :=
  actor.messages.length + actor.phase.stepsToLook

end Actor

variable {service : Service State Message Call Request Answer Fault}
  {actor next : Actor State Message Call Answer Reason}

/-- A ticket is never farther away than a full queue and the messages that wait. -/
theorem stepsTo_le (hsound : Sound service actor) {number : ℕ}
    (hnumber : number ∈ actor.active) :
    actor.stepsTo number ≤ actor.messages.length + 4 * service.capacity + 2 := by
  have hindex := List.idxOf_lt_length_of_mem hnumber
  have hbounded := hsound.bounded
  rw [Actor.stepsTo]
  rw [Actor.active, List.length_append] at hindex
  cases hphase : actor.phase <;>
    simp only [hphase, Phase.tickets, Phase.steps, List.length_nil, List.length_singleton,
      Actor.active] at hindex ⊢ <;>
    omega

theorem notMem_active_stop (number : ℕ) : number ∉ actor.stop.active := by
  simp [Actor.active, Actor.stop, Phase.tickets]

/-- The step with which the task is done with the ticket in its hands. -/
theorem stepsTo_resolve (hsound : Sound service actor) {number held : ℕ}
    (hphase : actor.phase = .taken held ∨ actor.phase = .serving held)
    (hactive : next.active = actor.queue) (hmessages : next.messages = actor.messages)
    (hnext : next.phase = .first) (hmem : number ∈ actor.queue) :
    next.stepsTo number + 1 ≤ actor.stepsTo number := by
  have hall : actor.active = held :: actor.queue := by
    rcases hphase with hphase | hphase <;> rw [Actor.active, hphase] <;> rfl
  have hsorted := hsound.sorted
  rw [hall, List.pairwise_cons] at hsorted
  have hne : held ≠ number := (hsorted.1 number hmem).ne
  have hsteps : 1 ≤ actor.phase.steps := by
    rcases hphase with hphase | hphase <;> simp [hphase, Phase.steps]
  rw [Actor.stepsTo, Actor.stepsTo, hactive, hall, hmessages, hnext, List.idxOf_cons_ne _ hne,
    Phase.steps]
  omega

/-- While a ticket waits, every step of the task counts, and a message sets the task
back by one step. -/
theorem Stepped.stepsTo {event : Event Message Call Reason}
    (hstep : Stepped service actor event next) (hsound : Sound service actor) {number : ℕ}
    (hnumber : number ∈ actor.active) (hnext : number ∈ next.active) :
    next.stepsTo number + turns [event] ≤ actor.stepsTo number + (pushes [event]).length := by
  cases hstep with
  | pushed message hphase =>
      change (actor.messages ++ [message]).length + _ + _ + 0 ≤ _ + 1
      rw [List.length_append, Actor.stepsTo, List.length_singleton]
      exact (show _ = _ by simp only [Actor.active]; omega).le
  | applied message messages state hphase hmessages happly =>
      change messages.length + _ + _ + 1 ≤ _ + 0
      rw [Actor.stepsTo, hmessages, List.length_cons]
      exact (show _ = _ by simp only [Actor.active]; omega).le
  | accepted call request hrequest hphase hfree =>
      change actor.messages.length +
        4 * (actor.phase.tickets ++ (actor.queue ++ [actor.tickets.length])).idxOf number +
        actor.phase.steps + 0 ≤ _ + 0
      rw [Actor.active] at hnumber
      rw [← List.append_assoc, List.idxOf_append, if_pos hnumber]
      exact le_rfl
  | asked _ _ _ => exact absurd hnext (notMem_active_stop number)
  | left _ _ => exact absurd hnext (notMem_active_stop number)
  | looked hphase hmessages =>
      change actor.messages.length + 4 * (Actor.active _).idxOf number + 3 + 1 ≤ _ + 0
      simp [Actor.stepsTo, Actor.active, hphase, Phase.tickets, Phase.steps]
  | took held queue hphase hqueue =>
      change actor.messages.length + 4 * (Actor.active _).idxOf number + 2 + 1 ≤ _ + 0
      simp [Actor.stepsTo, Actor.active, hphase, hqueue, Phase.tickets, Phase.steps]
  | parked hphase hqueue =>
      rw [Actor.active, hphase, hqueue] at hnumber
      cases hnumber
  | skipped held hphase _ => exact stepsTo_resolve hsound (Or.inl hphase) rfl rfl rfl hnext
  | loaded held hphase hcancelled =>
      change actor.messages.length + 4 * (Actor.active _).idxOf number + 1 + 1 ≤ _ + 0
      simp [Actor.stepsTo, Actor.active, hphase, Phase.tickets, Phase.steps]
  | served held _ _ hphase _ _ =>
      exact stepsTo_resolve hsound (Or.inr hphase) rfl rfl rfl hnext
  | unasked held hphase _ => exact stepsTo_resolve hsound (Or.inr hphase) rfl rfl rfl hnext
  | rested hphase =>
      rw [Actor.active, hphase, hsound.ended hphase] at hnumber
      cases hnumber
  | pushedLate _ _ => exact Nat.le_add_right _ _
  | alone _ _ => exact le_rfl
  | closed _ _ _ _ => exact le_rfl
  | full _ _ _ _ => exact le_rfl
  | cancelled _ _ => exact le_rfl
  | abandoned _ => exact le_rfl
  | received _ => exact le_rfl
  | released => exact le_rfl

/-- A ticket that was given does not come back to the queue. -/
theorem Stepped.active_of_mem {event : Event Message Call Reason}
    (hstep : Stepped service actor event next) (hsound : Sound service actor)
    {number : ℕ} (hlength : number < actor.tickets.length) (hnext : number ∈ next.active) :
    number ∈ actor.active := by
  have hempty := (hstep.sound hsound).mailboxAt_of_mem hnext
  rcases hstep.mailboxAt hsound number with hsame | ⟨rfl, -⟩ | ⟨-, hdropped⟩ |
    ⟨request, answer, -, -, -, -, -, hfilled⟩
  · exact (hsound.empty_iff number).1 (hsame ▸ hempty)
  · exact absurd hlength (lt_irrefl _)
  · cases hempty.symm.trans hdropped
  · cases hempty.symm.trans hfilled

theorem sound_of_run_from (hsound : Sound service actor)
    {events : List (Event Message Call Reason)}
    (hrun : run (fun actor event => actor.step service event) actor events = .ok next) :
    Sound service next :=
  run_invariant_of_ok (fun _ next => Sound service next) hsound
    (fun _ _ _ _ h hstep => (stepped_of_step hstep).sound h) hrun

/-- In every run, a ticket that still waits has waited all along, and has cost fewer
steps of the task than the bound, not counting one for each message pushed. -/
theorem stepsTo_of_run (hsound : Sound service actor) {number : ℕ}
    (hlength : number < actor.tickets.length) {events : List (Event Message Call Reason)}
    (hrun : run (fun actor event => actor.step service event) actor events = .ok next)
    (hnext : number ∈ next.active) :
    number ∈ actor.active ∧
      next.stepsTo number + turns events ≤ actor.stepsTo number + (pushes events).length := by
  have h : Sound service next ∧ number < next.tickets.length ∧
      (number ∈ next.active → number ∈ actor.active ∧
        next.stepsTo number + turns events ≤
          actor.stepsTo number + (pushes events).length) := by
    refine run_invariant_of_ok (fun events next => Sound service next ∧
      number < next.tickets.length ∧ (number ∈ next.active → number ∈ actor.active ∧
        next.stepsTo number + turns events ≤
          actor.stepsTo number + (pushes events).length))
      ⟨hsound, hlength, fun hactive => ⟨hactive, le_rfl⟩⟩ ?_ hrun
    intro before state event after ⟨hstate, hbefore, hbound⟩ hstep
    have hstepped := stepped_of_step hstep
    have hgrown := hstepped.length_tickets
    refine ⟨hstepped.sound hstate, by omega, fun hafter => ?_⟩
    have hwaits := hstepped.active_of_mem hstate hbefore hafter
    have hlast := hstepped.stepsTo hstate hwaits hafter
    obtain ⟨hactive, hfront⟩ := hbound hwaits
    rw [pushes_append, List.length_append, turns_append]
    exact ⟨hactive, by omega⟩
  exact h.2.2 hnext

theorem Phase.steps_pos {phase : Phase} (hphase : phase ≠ .ended) : 0 < phase.steps := by
  cases phase <;> simp_all [Phase.steps]

/-- A ticket waits no longer than the bound: after as many steps of the task, and one
more for each message pushed meanwhile, it is resolved. -/
theorem resolved_of_turns (hsound : Sound service actor) {number : ℕ}
    (hlength : number < actor.tickets.length) {events : List (Event Message Call Reason)}
    (hrun : run (fun actor event => actor.step service event) actor events = .ok next)
    (hturns : actor.messages.length + 4 * service.capacity + 2 + (pushes events).length ≤
      turns events) : number ∉ next.active := by
  intro hnext
  obtain ⟨hactive, hbound⟩ := stepsTo_of_run hsound hlength hrun hnext
  have hle := stepsTo_le hsound hactive
  have hphase : next.phase ≠ .ended := by
    intro hended
    rw [Actor.active, hended, (sound_of_run_from hsound hrun).ended hended] at hnext
    cases hnext
  have hpos := Phase.steps_pos hphase
  rw [Actor.stepsTo] at hbound
  omega

/-! ## The messages that wait -/

/-- While a message waits that does not ask the actor to end, and a sender is there, a step
of the task does not end it, and brings it nearer to the last message. -/
theorem Stepped.stepsToDrain (hstep : Stepped service actor .turn next)
    (hphase : actor.phase ≠ .ended) (hconnected : actor.connected = true) {message : Message}
    {messages : List (Option Message)} (hmessages : actor.messages = some message :: messages) :
    next.phase ≠ .ended ∧ next.connected = true ∧ next.stepsToDrain < actor.stepsToDrain := by
  cases hstep with
  | applied first rest state hfirst hfound happly =>
      refine ⟨hphase, hconnected, ?_⟩
      change rest.length + actor.phase.stepsToLook < _
      rw [Actor.stepsToDrain, hfound, List.length_cons]
      omega
  | asked _ _ hfound => exact nomatch hmessages.symm.trans hfound
  | looked _ hfound => exact nomatch hmessages.symm.trans hfound
  | left hlooked hgone => exact nomatch hconnected.symm.trans hgone
  | took ticket queue hsecond hqueue =>
      refine ⟨nofun, hconnected, ?_⟩
      rw [Actor.stepsToDrain, Actor.stepsToDrain, hsecond]
      exact Nat.lt_succ_self _
  | parked hsecond hqueue =>
      refine ⟨nofun, hconnected, ?_⟩
      rw [Actor.stepsToDrain, Actor.stepsToDrain, hsecond]
      exact Nat.add_lt_add_left (show 1 < 4 by decide) _
  | skipped ticket htaken hcancelled =>
      refine ⟨nofun, hconnected, ?_⟩
      rw [Actor.stepsToDrain, Actor.stepsToDrain, htaken]
      exact Nat.add_lt_add_left (show 1 < 3 by decide) _
  | loaded ticket htaken hcancelled =>
      refine ⟨nofun, hconnected, ?_⟩
      rw [Actor.stepsToDrain, Actor.stepsToDrain, htaken]
      exact Nat.lt_succ_self _
  | served ticket request answer hserving hrequest hanswer =>
      refine ⟨nofun, hconnected, ?_⟩
      rw [Actor.stepsToDrain, Actor.stepsToDrain, hserving]
      exact Nat.lt_succ_self _
  | unasked ticket hserving hrequest =>
      refine ⟨nofun, hconnected, ?_⟩
      rw [Actor.stepsToDrain, Actor.stepsToDrain, hserving]
      exact Nat.lt_succ_self _
  | rested hended => exact absurd hended hphase

/-! ## The end -/

/-- Once an actor is asked to end, every step of the task counts, whatever else is
pushed. -/
theorem Stepped.stepsToEnd {event : Event Message Call Reason}
    (hstep : Stepped service actor event next) (hasked : none ∈ actor.messages)
    (hnext : next.phase ≠ .ended) :
    none ∈ next.messages ∧ next.stepsToEnd + turns [event] ≤ actor.stepsToEnd := by
  have hfound : ∃ message ∈ actor.messages, message.isNone = true := ⟨none, hasked, rfl⟩
  cases hstep with
  | pushed message hphase =>
      refine ⟨List.mem_append_left _ hasked, ?_⟩
      change (actor.messages ++ [message]).findIdx Option.isNone + _ + 0 ≤ _
      rw [List.findIdx_append, if_pos (List.findIdx_lt_length.2 hfound)]
      exact le_rfl
  | applied message messages state hphase hmessages happly =>
      rw [hmessages] at hasked
      refine ⟨(List.mem_cons.1 hasked).resolve_left (by simp), ?_⟩
      change messages.findIdx Option.isNone + _ + 1 ≤ _
      rw [Actor.stepsToEnd, hmessages, List.findIdx_cons, hphase]
      simp only [Option.isNone_some, cond_false]
      omega
  | asked _ _ _ => exact absurd rfl hnext
  | left _ _ => exact absurd rfl hnext
  | looked hphase hmessages =>
      rw [hmessages] at hasked
      cases hasked
  | took _ _ hphase _ => exact ⟨hasked, by rw [Actor.stepsToEnd, Actor.stepsToEnd, hphase]; rfl⟩
  | parked hphase _ =>
      refine ⟨hasked, ?_⟩
      rw [Actor.stepsToEnd, Actor.stepsToEnd, hphase]
      exact Nat.add_le_add_left (show 1 + 1 ≤ _ by simp [Phase.stepsToLook]) _
  | skipped _ hphase _ =>
      refine ⟨hasked, ?_⟩
      rw [Actor.stepsToEnd, Actor.stepsToEnd, hphase]
      exact Nat.add_le_add_left (show 1 + 1 ≤ _ by simp [Phase.stepsToLook]) _
  | loaded _ hphase _ =>
      exact ⟨hasked, by rw [Actor.stepsToEnd, Actor.stepsToEnd, hphase]; rfl⟩
  | served _ _ _ hphase _ _ =>
      exact ⟨hasked, by rw [Actor.stepsToEnd, Actor.stepsToEnd, hphase]; rfl⟩
  | unasked _ hphase _ =>
      exact ⟨hasked, by rw [Actor.stepsToEnd, Actor.stepsToEnd, hphase]; rfl⟩
  | rested hphase => exact absurd hphase hnext
  | pushedLate _ _ => exact ⟨hasked, le_rfl⟩
  | alone _ _ => exact ⟨hasked, le_rfl⟩
  | closed _ _ _ _ => exact ⟨hasked, le_rfl⟩
  | full _ _ _ _ => exact ⟨hasked, le_rfl⟩
  | accepted _ _ _ _ _ => exact ⟨hasked, le_rfl⟩
  | cancelled _ _ => exact ⟨hasked, le_rfl⟩
  | abandoned _ => exact ⟨hasked, le_rfl⟩
  | received _ => exact ⟨hasked, le_rfl⟩
  | released => exact ⟨hasked, le_rfl⟩

/-- An actor that has ended stays so. -/
theorem Stepped.ended {event : Event Message Call Reason}
    (hstep : Stepped service actor event next) (hended : actor.phase = .ended) :
    next.phase = .ended := by
  cases hstep <;> simp_all [Actor.issue, Actor.update]

/-- An actor that is asked to end has ended after as many steps of the task as the
bound says. -/
theorem ended_of_turns (hasked : none ∈ actor.messages)
    {events : List (Event Message Call Reason)}
    (hrun : run (fun actor event => actor.step service event) actor events = .ok next)
    (hturns : actor.stepsToEnd ≤ turns events) : next.phase = .ended := by
  have h : next.phase ≠ .ended →
      none ∈ next.messages ∧ next.stepsToEnd + turns events ≤ actor.stepsToEnd := by
    refine run_invariant_of_ok (fun events next => next.phase ≠ .ended →
      none ∈ next.messages ∧ next.stepsToEnd + turns events ≤ actor.stepsToEnd)
      (fun _ => ⟨hasked, le_rfl⟩) ?_ hrun
    intro before state event after hbound hstep hafter
    have hstepped := stepped_of_step hstep
    have hgoing : state.phase ≠ .ended := mt hstepped.ended hafter
    obtain ⟨hmem, hfront⟩ := hbound hgoing
    obtain ⟨hmem', hlast⟩ := hstepped.stepsToEnd hmem hafter
    rw [turns_append]
    exact ⟨hmem', by omega⟩
  by_contra hgoing
  obtain ⟨-, hbound⟩ := h hgoing
  rw [Actor.stepsToEnd] at hbound
  have hpos : 0 < next.phase.stepsToLook := by
    cases hphase : next.phase <;> simp_all [Phase.stepsToLook]
  omega

theorem stepsToEnd_le (hasked : none ∈ actor.messages) :
    actor.stepsToEnd ≤ actor.messages.length + 3 := by
  have hfound := List.findIdx_lt_length.2 ⟨none, hasked, (rfl : Option.isNone none = true)⟩
  rw [Actor.stepsToEnd]
  cases actor.phase <;> simp only [Phase.stepsToLook] <;> omega

/-- Only the last sender leaves for good. -/
theorem connected_of_run {events : List (Event Message Call Reason)}
    (hrun : run (fun actor event => actor.step service event) actor events = .ok next)
    (hconnected : actor.connected = true) (hevents : .release ∉ events) :
    next.connected = true := by
  refine run_invariant_of_ok (fun events next => .release ∉ events → next.connected = true)
    (fun _ => hconnected) ?_ hrun hevents
  intro before state event after hbefore hstep hafter
  simp only [List.mem_append, List.mem_singleton, not_or] at hafter
  have hstate := hbefore hafter.1
  cases stepped_of_step hstep with
  | released => exact absurd rfl hafter.2
  | _ => exact hstate

/-! ## Calls that were given up -/

namespace Actor

/-- The flag of a ticket, as the task reads it. -/
def flagAt (actor : Actor State Message Call Answer Reason) (number : ℕ) : Bool :=
  actor.tickets[number]?.any Ticket.cancelled

end Actor

/-- A flag stays raised. -/
theorem Stepped.flagAt {event : Event Message Call Reason}
    (hstep : Stepped service actor event next) {number : ℕ}
    (hflag : actor.flagAt number = true) : next.flagAt number = true := by
  rw [Actor.flagAt, Option.any_eq_true] at hflag ⊢
  obtain ⟨ticket, hticket, hcancelled⟩ := hflag
  obtain ⟨new, hnew, hevolves⟩ := hstep.evolves hticket
  exact ⟨new, hnew, hevolves.cancelled hcancelled⟩

/-- A ticket was given up before the task read its flag. -/
structure GivenUp (actor : Actor State Message Call Answer Reason) (number : ℕ) : Prop where
  flag : actor.flagAt number = true
  phase : actor.phase ≠ .serving number
  unanswered : ∀ answer, actor.mailboxAt number ≠ .filled answer

theorem Stepped.givenUp {event : Event Message Call Reason}
    (hstep : Stepped service actor event next) (hsound : Sound service actor) {number : ℕ}
    (h : GivenUp actor number) : GivenUp next number where
  flag := hstep.flagAt h.flag
  phase hserving := by
    cases hstep with
    | loaded held _ hcancelled =>
        obtain rfl : held = number := Phase.serving.inj hserving
        exact absurd (h.flag.symm.trans hcancelled) (by simp)
    | _ => first | exact h.phase hserving | cases hserving
  unanswered answer hfilled := by
    rcases hstep.mailboxAt hsound number with hsame | ⟨-, hempty⟩ | ⟨-, hdropped⟩ |
      ⟨request, given, -, hphase, -⟩
    · exact h.unanswered answer (hsame ▸ hfilled)
    · cases hempty.symm.trans hfilled
    · cases hdropped.symm.trans hfilled
    · exact h.phase hphase

/-- A request that was given up before the task read its flag is not answered. -/
theorem givenUp_of_run (hsound : Sound service actor) {number : ℕ} (h : GivenUp actor number)
    {events : List (Event Message Call Reason)}
    (hrun : run (fun actor event => actor.step service event) actor events = .ok next) :
    GivenUp next number := by
  have hboth : Sound service next ∧ GivenUp next number := by
    refine run_invariant_of_ok (fun _ next => Sound service next ∧ GivenUp next number)
      ⟨hsound, h⟩ ?_ hrun
    intro before state event after ⟨hstate, hgiven⟩ hstep
    have hstepped := stepped_of_step hstep
    exact ⟨hstepped.sound hstate, hstepped.givenUp hstate hgiven⟩
  exact hboth.2

end Solfees.Actors
