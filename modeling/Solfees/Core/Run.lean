import Mathlib

/-!
# Runs of a state machine and their histories

A run is a fold of a step function over the events it receives.  The rules
below carry an invariant that may speak about the whole history, not only about
the last state.  The second half describes filters whose verdict on an event is
a function of the events before it, and identifies the output of a machine with
such a filter.
-/

namespace Solfees.Run

variable {State Event Output Fault : Type*}

/-- A position in a sequence with one more event is the last one, or a position
in the sequence. -/
theorem concat_eq_append_cons_iff {events before after : List Event}
    {last event : Event} :
    events ++ [last] = before ++ event :: after ↔
      (before = events ∧ event = last ∧ after = []) ∨
        ∃ front, events = before ++ event :: front ∧ after = front ++ [last] := by
  constructor
  · intro h
    rcases List.eq_nil_or_concat after with rfl | ⟨front, last', rfl⟩
    · obtain ⟨rfl, heq⟩ := List.append_inj' h rfl
      exact Or.inl ⟨rfl, (List.cons.inj heq).1.symm, rfl⟩
    · rw [List.concat_eq_append, ← List.cons_append, ← List.append_assoc] at h
      obtain ⟨rfl, heq⟩ := List.append_inj' h rfl
      obtain rfl := (List.cons.inj heq).1
      exact Or.inr ⟨front, rfl, List.concat_eq_append⟩
  · rintro (⟨rfl, rfl, rfl⟩ | ⟨front, rfl, rfl⟩)
    · rfl
    · simp

/-! ## Sequences whose every event is admitted by its past -/

/-- Every event is admitted by the events before it. -/
def Admitted (admits : List Event → Event → Prop) (events : List Event) : Prop :=
  ∀ before event after, events = before ++ event :: after → admits before event

theorem admitted_nil (admits : List Event → Event → Prop) :
    Admitted admits [] := by
  intro before event after h
  simp at h

theorem admitted_true (events : List Event) :
    Admitted (fun _ _ => True) events :=
  fun _ _ _ _ => trivial

theorem Admitted.append_left {admits : List Event → Event → Prop}
    {front back : List Event} (h : Admitted admits (front ++ back)) :
    Admitted admits front := by
  intro before event after hsplit
  exact h before event (after ++ back) (by simp [hsplit])

theorem Admitted.of_isPrefix {admits : List Event → Event → Prop}
    {front events : List Event} (h : Admitted admits events)
    (hpre : front <+: events) : Admitted admits front := by
  obtain ⟨back, rfl⟩ := hpre
  exact h.append_left

theorem Admitted.last {admits : List Event → Event → Prop}
    {events : List Event} {event : Event}
    (h : Admitted admits (events ++ [event])) : admits events event :=
  h events event [] rfl

theorem Admitted.mono {admits admits' : List Event → Event → Prop}
    (hmono : ∀ before event, admits before event → admits' before event)
    {events : List Event} (h : Admitted admits events) :
    Admitted admits' events :=
  fun before event after hsplit =>
    hmono before event (h before event after hsplit)

theorem Admitted.concat {admits : List Event → Event → Prop}
    {events : List Event} {event : Event} (h : Admitted admits events)
    (hlast : admits events event) : Admitted admits (events ++ [event]) := by
  intro before event' after hsplit
  rcases concat_eq_append_cons_iff.1 hsplit with ⟨rfl, rfl, -⟩ | ⟨front, hfront, -⟩
  · exact hlast
  · exact h before event' front hfront

/-! ## Runs that may fail -/

section Partial

variable (step : State → Event → Except Fault State)

/-- The state after the events, unless a step failed. -/
def run (init : State) (events : List Event) : Except Fault State :=
  events.foldlM step init

theorem run_singleton (init : State) (event : Event) :
    run step init [event] = step init event := by
  simp [run]

theorem run_append (init : State) (front back : List Event) :
    run step init (front ++ back) =
      run step init front >>= fun state => run step state back := by
  simp [run, List.foldlM_append]

theorem run_concat (init : State) (events : List Event) (event : Event) :
    run step init (events ++ [event]) =
      run step init events >>= fun state => step state event := by
  simp only [run_append, run_singleton]

variable {step}

/-- One more event after a run that has not failed. -/
theorem run_concat_of_ok {init state : State} {events : List Event}
    (hrun : run step init events = .ok state) (event : Event) :
    run step init (events ++ [event]) = step state event := by
  rw [run_concat, hrun]
  rfl

/-- A partial step that is taken as one that may fail. -/
theorem eq_some_of_elim_eq_ok {partialStep : Option State} {fault : Fault} {next : State}
    (h : partialStep.elim (.error fault) .ok = (.ok next : Except Fault State)) :
    partialStep = some next := by
  cases partialStep with
  | none => cases h
  | some after => exact congrArg some (Except.ok.inj h)

/-- An invariant about history and state holds after every admitted run, and
the run does not fail. -/
theorem run_invariant {admits : List Event → Event → Prop}
    (Inv : List Event → State → Prop) {init : State} (hinit : Inv [] init)
    (hstep : ∀ before state event, Admitted admits (before ++ [event]) →
      Inv before state →
      ∃ next, step state event = .ok next ∧ Inv (before ++ [event]) next)
    {events : List Event} (hadmitted : Admitted admits events) :
    ∃ state, run step init events = .ok state ∧ Inv events state := by
  induction events using List.reverseRecOn with
  | nil => exact ⟨init, rfl, hinit⟩
  | append_singleton events event ih =>
      obtain ⟨state, hrun, hinv⟩ := ih hadmitted.append_left
      obtain ⟨next, hnext, hinv'⟩ :=
        hstep events state event hadmitted hinv
      exact ⟨next, (run_concat_of_ok hrun event).trans hnext, hinv'⟩

/-- A run that does not fail has not failed before. -/
theorem exists_run_of_append {init final : State} {front back : List Event}
    (h : run step init (front ++ back) = .ok final) :
    ∃ middle, run step init front = .ok middle ∧ run step middle back = .ok final := by
  rw [run_append] at h
  cases hfront : run step init front with
  | error fault =>
      rw [hfront] at h
      cases h
  | ok middle =>
      rw [hfront] at h
      exact ⟨middle, rfl, h⟩

/-- A computation that succeeds has succeeded at its first step. -/
theorem exists_of_bind_eq_ok {A B E : Type} {first : Except E A} {rest : A → Except E B}
    {b : B} (h : first >>= rest = .ok b) : ∃ a, first = .ok a ∧ rest a = .ok b := by
  cases first with
  | error error => cases h
  | ok a => exact ⟨a, rfl, h⟩

/-- What a run comes to, read off the part of it that is looked at. -/
theorem exists_ok_of_view {A B E : Type*} {result : Except E A} {view : A → B} {value : B}
    (h : result.toOption.map view = some value) : ∃ a, result = .ok a ∧ view a = value := by
  cases result with
  | error error => cases h
  | ok a => exact ⟨a, rfl, Option.some.inj h⟩

/-- An invariant about history and state holds after every run that does not
fail. -/
theorem run_invariant_of_ok (Inv : List Event → State → Prop) {init : State}
    (hinit : Inv [] init)
    (hstep : ∀ before state event next, Inv before state →
      step state event = .ok next → Inv (before ++ [event]) next)
    {events : List Event} {state : State} (hrun : run step init events = .ok state) :
    Inv events state := by
  induction events using List.reverseRecOn generalizing state with
  | nil =>
      obtain rfl := Except.ok.inj hrun
      exact hinit
  | append_singleton events event ih =>
      obtain ⟨previous, hbefore, hlast⟩ := exists_run_of_append hrun
      rw [run_singleton] at hlast
      exact hstep events previous event state (ih hbefore) hlast

/-- The same, where a step may use what is known of the run before it. -/
theorem run_invariant_of_reached (Inv : List Event → State → Prop) {init : State}
    (hinit : Inv [] init)
    (hstep : ∀ before state event next, run step init before = .ok state →
      Inv before state → step state event = .ok next → Inv (before ++ [event]) next)
    {events : List Event} {state : State} (hrun : run step init events = .ok state) :
    Inv events state := by
  have hboth : run step init events = .ok state ∧ Inv events state := by
    refine run_invariant_of_ok
      (fun events state => run step init events = .ok state ∧ Inv events state)
      ⟨rfl, hinit⟩ ?_ hrun
    intro before state event next ⟨hbefore, hinv⟩ hnext
    exact ⟨(run_concat_of_ok hbefore event).trans hnext,
      hstep before state event next hbefore hinv hnext⟩
  exact hboth.2

/-- Runs that get to a goal: wherever it is not reached yet, one of some events can be taken
that keeps the invariant and makes the variant smaller. -/
theorem exists_run_to_goal {own : Event → Prop} (Inv Goal : State → Prop)
    (variant : State → ℕ) {init : State}
    (hadvance : ∀ events state, run step init events = .ok state → Inv state → ¬ Goal state →
      ∃ event next, own event ∧ step state event = .ok next ∧ Inv next ∧
        variant next < variant state)
    {events : List Event} {state : State} (hrun : run step init events = .ok state)
    (hinv : Inv state) :
    ∃ more final, (∀ event ∈ more, own event) ∧
      run step init (events ++ more) = .ok final ∧ Inv final ∧ Goal final := by
  induction hvariant : variant state using Nat.strong_induction_on generalizing events state with
  | h bound ih =>
      by_cases hgoal : Goal state
      · refine ⟨[], state, fun _ hmem => absurd hmem List.not_mem_nil, ?_, hinv, hgoal⟩
        rw [List.append_nil, hrun]
      · obtain ⟨event, next, hown, hnext, hinv', hless⟩ := hadvance events state hrun hinv hgoal
        obtain ⟨more, final, hmore, hfinal, hreached⟩ := ih (variant next) (hvariant ▸ hless)
          ((run_concat_of_ok hrun event).trans hnext) hinv' rfl
        refine ⟨event :: more, final, List.forall_mem_cons.2 ⟨hown, hmore⟩, ?_, hreached⟩
        rwa [List.append_cons]

end Partial

/-- A fold is any summary of the events that follows its steps. -/
theorem foldl_eq_of_concat {step : State → Event → State} (summary : List Event → State)
    (hconcat : ∀ events event,
      summary (events ++ [event]) = step (summary events) event) (events : List Event) :
    events.foldl step (summary []) = summary events := by
  induction events using List.reverseRecOn with
  | nil => rfl
  | append_singleton events event ih => rw [List.foldl_concat, ih, hconcat]

/-! ## Machines with an output -/

section Machine

variable (step : State → Event → State × Option Output)

/-- The state after the events. -/
def stateAfter (init : State) (events : List Event) : State :=
  events.foldl (fun state event => (step state event).1) init

/-- The outputs of the events, in order. -/
def outputs : State → List Event → List Output
  | _, [] => []
  | state, event :: events =>
      (step state event).2.toList ++ outputs (step state event).1 events

theorem stateAfter_concat (init : State) (events : List Event) (event : Event) :
    stateAfter step init (events ++ [event]) =
      (step (stateAfter step init events) event).1 := by
  simp [stateAfter]

theorem outputs_append (init : State) (front back : List Event) :
    outputs step init (front ++ back) =
      outputs step init front ++ outputs step (stateAfter step init front) back := by
  induction front generalizing init with
  | nil => rfl
  | cons event front ih =>
      simp only [List.cons_append, outputs, ih, List.append_assoc]
      rfl

theorem outputs_concat (init : State) (events : List Event) (event : Event) :
    outputs step init (events ++ [event]) =
      outputs step init events ++
        (step (stateAfter step init events) event).2.toList := by
  simp [outputs_append, outputs]

variable {step}

theorem stateAfter_invariant {admits : List Event → Event → Prop}
    {Inv : List Event → State → Prop} {init : State} (hinit : Inv [] init)
    (hstep : ∀ before state event, Admitted admits (before ++ [event]) →
      Inv before state → Inv (before ++ [event]) (step state event).1)
    {events : List Event} (hadmitted : Admitted admits events) :
    Inv events (stateAfter step init events) := by
  induction events using List.reverseRecOn with
  | nil => exact hinit
  | append_singleton events event ih =>
      rw [stateAfter_concat]
      exact hstep events _ event hadmitted (ih hadmitted.append_left)

/-- A machine that puts out no event but the one it takes puts out a part of them. -/
theorem outputs_sublist {step : State → Event → State × Option Event}
    (hstep : ∀ state event output, (step state event).2 = some output → output = event)
    (state : State) (events : List Event) : (outputs step state events).Sublist events := by
  induction events generalizing state with
  | nil => exact List.Sublist.refl _
  | cons event events ih =>
      rw [outputs]
      cases houtput : (step state event).2 with
      | none => exact (ih _).cons event
      | some output =>
          rw [hstep state event output houtput]
          exact (ih _).cons_cons event

end Machine

/-! ## Outputs that are a function of the past -/

section Emissions

variable (emit : List Event → Event → Option Output)

/-- What `emit` gives for the events, each with the events before it. -/
def emissionsFrom : List Event → List Event → List Output
  | _, [] => []
  | before, event :: events =>
      (emit before event).toList ++ emissionsFrom (before ++ [event]) events

def emissions (events : List Event) : List Output :=
  emissionsFrom emit [] events

theorem emissionsFrom_append (before front back : List Event) :
    emissionsFrom emit before (front ++ back) =
      emissionsFrom emit before front ++
        emissionsFrom emit (before ++ front) back := by
  induction front generalizing before with
  | nil => simp [emissionsFrom]
  | cons event front ih =>
      simp only [List.cons_append, emissionsFrom, ih, List.append_assoc,
        List.nil_append]

theorem emissions_append (front back : List Event) :
    emissions emit (front ++ back) =
      emissions emit front ++ emissionsFrom emit front back := by
  rw [emissions, emissionsFrom_append]
  rfl

theorem emissions_concat (events : List Event) (event : Event) :
    emissions emit (events ++ [event]) =
      emissions emit events ++ (emit events event).toList := by
  rw [emissions_append]
  simp [emissionsFrom]

theorem emissions_map {Image : Type*} (render : Output → Image) (events : List Event) :
    emissions (fun before event => (emit before event).map render) events =
      (emissions emit events).map render := by
  induction events using List.reverseRecOn with
  | nil => rfl
  | append_singleton before event ih =>
      rw [emissions_concat, emissions_concat, ih, List.map_append]
      cases emit before event <;> rfl

/-- An output is emitted exactly when some event with its past gives it. -/
theorem mem_emissions {events : List Event} {output : Output} :
    output ∈ emissions emit events ↔
      ∃ before event after, events = before ++ event :: after ∧
        emit before event = some output := by
  induction events using List.reverseRecOn with
  | nil => simp [emissions, emissionsFrom]
  | append_singleton events last ih =>
      rw [emissions_concat, List.mem_append, ih, Option.mem_toList]
      constructor
      · rintro (⟨before, event, after, rfl, hemit⟩ | hlast)
        · exact ⟨before, event, after ++ [last], by simp, hemit⟩
        · exact ⟨events, last, [], rfl, hlast⟩
      · rintro ⟨before, event, after, hsplit, hemit⟩
        rcases concat_eq_append_cons_iff.1 hsplit with
          ⟨rfl, rfl, -⟩ | ⟨front, hfront, -⟩
        · exact Or.inr hemit
        · exact Or.inl ⟨before, event, front, hfront, hemit⟩

/-- A machine whose every step outputs what `emit` gives for its past outputs
the emissions. -/
theorem outputs_eq_emissions {step : State → Event → State × Option Output}
    {admits : List Event → Event → Prop} {Inv : List Event → State → Prop}
    {init : State} (hinit : Inv [] init)
    (hstep : ∀ before state event, Admitted admits (before ++ [event]) →
      Inv before state →
      (step state event).2 = emit before event ∧
        Inv (before ++ [event]) (step state event).1)
    {events : List Event} (hadmitted : Admitted admits events) :
    outputs step init events = emissions emit events := by
  induction events using List.reverseRecOn with
  | nil => rfl
  | append_singleton events event ih =>
      have hinv : Inv events (stateAfter step init events) :=
        stateAfter_invariant hinit
          (fun before state event hadm hinv =>
            (hstep before state event hadm hinv).2) hadmitted.append_left
      rw [outputs_concat, emissions_concat, ih hadmitted.append_left,
        (hstep events _ event hadmitted hinv).1]

end Emissions

/-! ## Filters that look at the past -/

section Select

variable (keep : List Event → Event → Bool)

/-- The events that `keep` accepts given the events before them. -/
def selectFrom : List Event → List Event → List Event
  | _, [] => []
  | before, event :: events =>
      if keep before event then
        event :: selectFrom (before ++ [event]) events
      else selectFrom (before ++ [event]) events

def select (events : List Event) : List Event :=
  selectFrom keep [] events

theorem selectFrom_append (before front back : List Event) :
    selectFrom keep before (front ++ back) =
      selectFrom keep before front ++ selectFrom keep (before ++ front) back := by
  induction front generalizing before with
  | nil => simp [selectFrom]
  | cons event front ih =>
      simp only [List.cons_append, selectFrom, ih, List.append_assoc]
      split <;> simp

theorem select_concat (events : List Event) (event : Event) :
    select keep (events ++ [event]) =
      select keep events ++ if keep events event then [event] else [] := by
  rw [select, selectFrom_append]
  simp [select, selectFrom]

/-- What is selected stays selected. -/
theorem select_isPrefix {front events : List Event} (h : front <+: events) :
    select keep front <+: select keep events := by
  obtain ⟨back, rfl⟩ := h
  rw [select, select, selectFrom_append]
  exact List.prefix_append _ _

theorem select_sublist (events : List Event) :
    (select keep events).Sublist events := by
  induction events using List.reverseRecOn with
  | nil => exact List.Sublist.refl _
  | append_singleton events event ih =>
      rw [select_concat]
      refine ih.append ?_
      split
      · exact List.Sublist.refl _
      · exact List.nil_sublist _

theorem select_eq_emissions (events : List Event) :
    select keep events =
      emissions (fun before event => if keep before event then some event else none)
        events := by
  induction events using List.reverseRecOn with
  | nil => rfl
  | append_singleton events event ih =>
      rw [select_concat, emissions_concat, ih]
      split <;> rfl

/-- An event is selected exactly when it occurs somewhere with a past that
accepts it. -/
theorem mem_select {events : List Event} {event : Event} :
    event ∈ select keep events ↔
      ∃ before after, events = before ++ event :: after ∧
        keep before event = true := by
  rw [select_eq_emissions, mem_emissions]
  constructor
  · rintro ⟨before, event', after, hsplit, hemit⟩
    split at hemit
    · rename_i hkeep
      obtain rfl := Option.some.inj hemit
      exact ⟨before, after, hsplit, hkeep⟩
    · simp at hemit
  · rintro ⟨before, after, hsplit, hkeep⟩
    exact ⟨before, event, after, hsplit, if_pos hkeep⟩

/-- A machine whose every step passes on the event exactly when the past accepts
it outputs the selected events. -/
theorem outputs_eq_select {step : State → Event → State × Option Event}
    {admits : List Event → Event → Prop} {Inv : List Event → State → Prop}
    {init : State} (hinit : Inv [] init)
    (hstep : ∀ before state event, Admitted admits (before ++ [event]) →
      Inv before state →
      (step state event).2 = (if keep before event then some event else none) ∧
        Inv (before ++ [event]) (step state event).1)
    {events : List Event} (hadmitted : Admitted admits events) :
    outputs step init events = select keep events := by
  rw [select_eq_emissions]
  exact outputs_eq_emissions _ hinit hstep hadmitted

end Select

end Solfees.Run
