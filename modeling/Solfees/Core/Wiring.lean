import Solfees.Core.Run

/-!
# Machines that feed another one

A number of machines run beside one that they feed.  A step of a source makes the
target take the events that it brings about, and the target takes other events on its
own.  Seen from either side this is an ordinary run, and what the target was fed from a
source is what the source has put out.
-/

namespace Solfees.Wiring

open Solfees.Run

variable {Source Target SourceEvent TargetEvent SourceFault TargetFault : Type*}

/-- The sources and their target. -/
structure Wired (Source Target : Type*) where
  sources : List Source
  target : Target

/-- A source or the target takes an event. -/
inductive Event (SourceEvent TargetEvent : Type*)
  | source (number : ℕ) (event : SourceEvent)
  | target (event : TargetEvent)

/-- Why an event is not taken. -/
inductive Fault (SourceFault TargetFault : Type*)
  | unknown
  | disabled
  | reserved
  | source (fault : SourceFault)
  | target (fault : TargetFault)

/-- What the machines are, which events of a source the target allows, which events of the
target a step of a source brings about, and which of them only the sources bring about. -/
structure Wires (Source Target SourceEvent TargetEvent SourceFault TargetFault : Type*) where
  sourceStep : Source → SourceEvent → Except SourceFault Source
  targetStep : Target → TargetEvent → Except TargetFault Target
  enabled : ℕ → Target → SourceEvent → Bool
  feeds : ℕ → Source → Source → List TargetEvent
  reserved : TargetEvent → Bool

section Model

variable (wires : Wires Source Target SourceEvent TargetEvent SourceFault TargetFault)

/-- One step. -/
def step (wired : Wired Source Target) :
    Event SourceEvent TargetEvent → Except (Fault SourceFault TargetFault) (Wired Source Target)
  | .source number event =>
      match wired.sources[number]? with
      | none => .error .unknown
      | some source =>
          if wires.enabled number wired.target event then
            match wires.sourceStep source event with
            | .error fault => .error (.source fault)
            | .ok next =>
                match run wires.targetStep wired.target (wires.feeds number source next) with
                | .error fault => .error (.target fault)
                | .ok target => .ok ⟨wired.sources.set number next, target⟩
          else .error .disabled
  | .target event =>
      if wires.reserved event then .error .reserved
      else
        match wires.targetStep wired.target event with
        | .error fault => .error (.target fault)
        | .ok target => .ok { wired with target := target }

end Model

variable {wires : Wires Source Target SourceEvent TargetEvent SourceFault TargetFault}
  {wired next : Wired Source Target} {events : List (Event SourceEvent TargetEvent)}

/-- What a step does. -/
inductive Took (wires : Wires Source Target SourceEvent TargetEvent SourceFault TargetFault)
    (wired : Wired Source Target) : Event SourceEvent TargetEvent → Wired Source Target → Prop
  | source {number : ℕ} {event : SourceEvent} {source after : Source} {target : Target}
      (hsource : wired.sources[number]? = some source)
      (henabled : wires.enabled number wired.target event = true)
      (hafter : wires.sourceStep source event = .ok after)
      (htarget : run wires.targetStep wired.target (wires.feeds number source after) =
        .ok target) :
      Took wires wired (.source number event) ⟨wired.sources.set number after, target⟩
  | target {event : TargetEvent} {target : Target} (hevent : wires.reserved event = false)
      (htarget : wires.targetStep wired.target event = .ok target) :
      Took wires wired (.target event) { wired with target := target }

theorem took_of_step {event : Event SourceEvent TargetEvent}
    (hstep : step wires wired event = .ok next) : Took wires wired event next := by
  cases event with
  | source number event =>
      rw [step] at hstep
      split at hstep
      · cases hstep
      · rename_i source hsource
        split at hstep
        · rename_i henabled
          split at hstep
          · cases hstep
          · rename_i after hafter
            split at hstep
            · cases hstep
            · rename_i target htarget
              obtain rfl := Except.ok.inj hstep
              exact .source hsource henabled hafter htarget
        · cases hstep
  | target event =>
      rw [step] at hstep
      split at hstep
      · cases hstep
      · rename_i hevent
        split at hstep
        · cases hstep
        · rename_i target htarget
          obtain rfl := Except.ok.inj hstep
          exact .target (Bool.eq_false_iff.2 hevent) htarget

/-! ## The runs of the machines -/

theorem length_sources_of_run {init : List Source} {target : Target}
    (hrun : run (step wires) ⟨init, target⟩ events = .ok wired) :
    wired.sources.length = init.length := by
  refine run_invariant_of_ok (fun _ (wired : Wired Source Target) =>
    wired.sources.length = init.length) rfl ?_ hrun
  intro before wired event next hbefore hstep
  cases took_of_step hstep with
  | source hsource henabled hafter htarget => rw [List.length_set, hbefore]
  | target hevent htarget => exact hbefore

/-! ## What the target was fed -/

/-- The sources put out what the target is fed: the events that a step of a source brings
about carry what it has put out in this step, and no other events carry anything. -/
structure Carries (wires : Wires Source Target SourceEvent TargetEvent SourceFault TargetFault)
    {Output : Type*} (output : Source → List Output)
    (carried : ℕ → TargetEvent → Option Output) : Prop where
  fed : ∀ number source event next, wires.sourceStep source event = .ok next →
    output next = output source ++ (wires.feeds number source next).filterMap (carried number)
  apart : ∀ number other source next, other ≠ number →
    (wires.feeds other source next).filterMap (carried number) = []
  reserved : ∀ number event, wires.reserved event = false → carried number event = none

/-- The target has made a run of its own, in which it was fed what the sources have put
out. -/
theorem exists_run_target {Output : Type*} {output : Source → List Output}
    {carried : ℕ → TargetEvent → Option Output} (hcarries : Carries wires output carried)
    {init : List Source} {target : Target} (hinit : ∀ source ∈ init, output source = [])
    (hrun : run (step wires) ⟨init, target⟩ events = .ok wired) :
    ∃ targetEvents, run wires.targetStep target targetEvents = .ok wired.target ∧
      ∀ number : ℕ, targetEvents.filterMap (carried number) =
        (wired.sources[number]?.map output).getD [] := by
  refine run_invariant_of_ok (fun _ (wired : Wired Source Target) =>
    ∃ targetEvents, run wires.targetStep target targetEvents = .ok wired.target ∧
      ∀ number : ℕ, targetEvents.filterMap (carried number) =
        (wired.sources[number]?.map output).getD []) ?_ ?_ hrun
  · refine ⟨[], rfl, fun number => ?_⟩
    cases hsource : init[number]? with
    | none => rfl
    | some source => exact (hinit source (List.mem_of_getElem? hsource)).symm
  · intro before wired event next ⟨targetEvents, hran, hfed⟩ hstep
    cases took_of_step hstep with
    | @source number event source after target hsource henabled hafter htarget =>
        refine ⟨targetEvents ++ wires.feeds number source after, ?_, ?_⟩
        · rw [run_append, hran]
          exact htarget
        · intro other
          rw [List.filterMap_append, hfed other]
          by_cases hother : number = other
          · subst hother
            have hbound := (List.getElem?_eq_some_iff.1 hsource).1
            rw [List.getElem?_set_self hbound, hsource]
            exact (hcarries.fed number source event after hafter).symm
          · rw [List.getElem?_set_ne hother,
              hcarries.apart other number source after hother, List.append_nil]
    | @target event target hevent htarget =>
        refine ⟨targetEvents ++ [event], (run_concat_of_ok hran event).trans htarget, ?_⟩
        intro number
        rw [List.filterMap_append, hfed number]
        simp only [List.filterMap_cons, hcarries.reserved number event hevent,
          List.filterMap_nil, List.append_nil]

end Solfees.Wiring
