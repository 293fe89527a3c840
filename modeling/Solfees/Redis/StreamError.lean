import Solfees.Redis.PublishLoop

/-!
# What is published before a stream error

As long as the loop runs, the stream, the pipeline, the batch that is collected and
the channel hold together, in this order, every message that was sent.  The error
ends the loop wherever it is taken: what is in the batch then is not published.  So
the messages that were in the batch or in the channel when the error was sent are
lost, and they only.
-/

namespace Solfees.StreamError

open Solfees.Message
open Solfees.PublishLoop
open Solfees.Run

variable (config : ConfigRedisPublisher) (serialize : GeyserMessage → Option (List UInt8))

/-! ## One step -/

/-- What a step does. -/
inductive Stepped : Publisher → Event → Publisher → Prop
  | sent (channel : List (Except String GeyserMessage)) (phase : Phase)
      (stream : List Xadd) (result : Except String GeyserMessage) :
      Stepped ⟨true, channel, phase, stream⟩ (.sent result)
        ⟨result.toOption.isSome, channel ++ [result], phase, stream⟩
  | dropped (channel : List (Except String GeyserMessage)) (phase : Phase)
      (stream : List Xadd) :
      Stepped ⟨true, channel, phase, stream⟩ .dropped ⟨false, channel, phase, stream⟩
  | received (alive : Bool) (message : GeyserMessage)
      (channel : List (Except String GeyserMessage)) (stream : List Xadd) :
      Stepped ⟨alive, .ok message :: channel, .receiving, stream⟩ .taken
        ⟨alive, channel, .collecting [message], stream⟩
  | collected (alive : Bool) (message : GeyserMessage)
      (channel : List (Except String GeyserMessage)) (messages : List GeyserMessage)
      (stream : List Xadd) :
      Stepped ⟨alive, .ok message :: channel, .collecting messages, stream⟩ .taken
        ⟨alive, channel, .collecting (messages ++ [message]), stream⟩
  | built (alive : Bool) (messages : List GeyserMessage) (pipe stream : List Xadd)
      (hpipe : messages.mapM (xadd config serialize) = some pipe) :
      Stepped ⟨alive, [], .collecting messages, stream⟩ .taken
        ⟨alive, [], .sending pipe, stream⟩
  | accepted (alive : Bool) (channel : List (Except String GeyserMessage))
      (pipe stream : List Xadd) :
      Stepped ⟨alive, channel, .sending pipe, stream⟩ .accepted
        ⟨alive, channel, .receiving, stream ++ pipe⟩
  | failed (alive : Bool) (error : String)
      (channel : List (Except String GeyserMessage)) (phase : Phase)
      (stream : List Xadd) (hphase : phase = .receiving ∨ ∃ messages,
        phase = .collecting messages) :
      Stepped ⟨alive, .error error :: channel, phase, stream⟩ .taken
        ⟨alive, channel, .stopped (.streamError error), stream⟩
  | left (alive : Bool) (channel : List (Except String GeyserMessage)) (phase : Phase)
      (stream stream' : List Xadd) (event : Event) (stop : Stop)
      (hevent : ∀ result, event ≠ .sent result)
      (hstop : ∀ error, stop ≠ .streamError error)
      (hrunning : ∀ stop, phase ≠ .stopped stop) :
      Stepped ⟨alive, channel, phase, stream⟩ event
        ⟨alive, channel, .stopped stop, stream'⟩

variable {config serialize} {publisher next : Publisher} {event : Event}

theorem stepped_of_taken
    (h : publisher.step config serialize .taken = .ok next) :
    Stepped config serialize publisher .taken next := by
  obtain ⟨alive, channel, phase, stream⟩ := publisher
  cases phase with
  | receiving =>
      match channel with
      | .ok message :: channel =>
          obtain rfl := Except.ok.inj h
          exact .received alive message channel stream
      | .error error :: channel =>
          obtain rfl := Except.ok.inj h
          exact .failed alive error channel _ stream (Or.inl rfl)
      | [] =>
          cases alive with
          | true => cases h
          | false =>
              obtain rfl := Except.ok.inj h
              exact .left false [] .receiving stream stream .taken .streamFinished
                (by simp) (by simp) (by simp)
  | collecting messages =>
      match channel with
      | .ok message :: channel =>
          obtain rfl := Except.ok.inj h
          exact .collected alive message channel messages stream
      | .error error :: channel =>
          obtain rfl := Except.ok.inj h
          exact .failed alive error channel _ stream (Or.inr ⟨messages, rfl⟩)
      | [] =>
          obtain rfl := Except.ok.inj h
          rw [Publisher.onTryRecv]
          cases hpipe : messages.mapM (xadd config serialize) with
          | some pipe => exact .built alive messages pipe stream hpipe
          | none =>
              exact .left alive [] _ stream stream .taken .failedToSerialize
                (by simp) (by simp) (by simp)
  | sending pipe => cases h
  | stopped stop => cases h

theorem stepped_of_step (h : publisher.step config serialize event = .ok next) :
    Stepped config serialize publisher event next := by
  cases event with
  | taken => exact stepped_of_taken h
  | sent result =>
      obtain ⟨alive, channel, phase, stream⟩ := publisher
      rw [Publisher.step] at h
      cases alive with
      | true =>
          obtain rfl := Except.ok.inj h
          exact .sent channel phase stream result
      | false => cases h
  | dropped =>
      obtain ⟨alive, channel, phase, stream⟩ := publisher
      rw [Publisher.step] at h
      cases alive with
      | true =>
          obtain rfl := Except.ok.inj h
          exact .dropped channel phase stream
      | false => cases h
  | accepted =>
      obtain ⟨alive, channel, phase, stream⟩ := publisher
      cases phase with
      | sending pipe =>
          obtain rfl := Except.ok.inj h
          exact .accepted alive channel pipe stream
      | _ => cases h
  | rejected applied =>
      obtain ⟨alive, channel, phase, stream⟩ := publisher
      cases phase with
      | sending pipe =>
          obtain rfl := Except.ok.inj h
          exact .left alive channel _ stream _ _ .failedToSend
            (by simp) (by simp) (by simp)
      | _ => cases h
  | signal signal =>
      obtain ⟨alive, channel, phase, stream⟩ := publisher
      cases phase with
      | receiving =>
          obtain rfl := Except.ok.inj h
          exact .left alive channel _ stream _ _ (.signal signal)
            (by simp) (by simp) (by simp)
      | _ => cases h
  | tasksFinished =>
      obtain ⟨alive, channel, phase, stream⟩ := publisher
      cases phase with
      | receiving =>
          obtain rfl := Except.ok.inj h
          exact .left alive channel _ stream _ _ .tasksFinished
            (by simp) (by simp) (by simp)
      | _ => cases h

/-- A publisher that has stopped stays so. -/
theorem stopped_of_stepped {stop : Stop} (h : Stepped config serialize publisher event next)
    (hstop : publisher.phase = .stopped stop) : next.phase = .stopped stop := by
  cases h with
  | sent => exact hstop
  | dropped => exact hstop
  | failed alive error channel phase stream hphase =>
      obtain rfl : phase = .stopped stop := hstop
      rcases hphase with hphase | ⟨messages, hphase⟩ <;> cases hphase
  | left alive channel phase stream stream' event stop' hevent hstop' hrunning =>
      exact absurd hstop (hrunning stop)
  | _ => cases hstop

/-! ## Nothing is lost while the loop runs -/

/-- The message that an event puts on the channel. -/
def messageOf : Event → Option GeyserMessage
  | .sent result => result.toOption
  | _ => none

/-- The batch that is being collected. -/
def batch : Phase → List GeyserMessage
  | .collecting messages => messages
  | _ => []

/-- The pipeline that is being sent. -/
def pipeOf : Phase → List Xadd
  | .sending pipe => pipe
  | _ => []

/-- The messages that the loop has yet to make a pipeline of. -/
def waiting (publisher : Publisher) : List GeyserMessage :=
  batch publisher.phase ++ publisher.channel.filterMap Except.toOption

/-- The commands of the messages. -/
def commands (config : ConfigRedisPublisher)
    (serialize : GeyserMessage → Option (List UInt8)) (messages : List GeyserMessage) :
    List (Option Xadd) :=
  messages.map (xadd config serialize)

/-- The stream, the pipeline and the waiting messages are what was sent. -/
def Conserved (config : ConfigRedisPublisher)
    (serialize : GeyserMessage → Option (List UInt8)) (sent : List GeyserMessage)
    (publisher : Publisher) : Prop :=
  (publisher.stream ++ pipeOf publisher.phase).map some ++
    commands config serialize (waiting publisher) = commands config serialize sent

theorem commands_of_mapM {messages : List GeyserMessage} {pipe : List Xadd}
    (h : messages.mapM (xadd config serialize) = some pipe) :
    commands config serialize messages = pipe.map some := by
  induction messages generalizing pipe with
  | nil =>
      obtain rfl := Option.some.inj h
      rfl
  | cons message messages ih =>
      rw [List.mapM_cons] at h
      obtain ⟨command, hcommand, h⟩ := Option.bind_eq_some_iff.1 h
      obtain ⟨rest, hrest, h⟩ := Option.bind_eq_some_iff.1 h
      obtain rfl := Option.some.inj h
      change xadd config serialize message :: commands config serialize messages = _
      rw [hcommand, ih hrest, List.map_cons]

theorem commands_append (front back : List GeyserMessage) :
    commands config serialize (front ++ back) =
      commands config serialize front ++ commands config serialize back :=
  List.map_append

/-- A step that does not end the loop loses nothing. -/
theorem conserved_of_stepped {sent : List GeyserMessage}
    (hstep : Stepped config serialize publisher event next)
    (hnext : ∀ stop, next.phase ≠ .stopped stop)
    (h : Conserved config serialize sent publisher) :
    Conserved config serialize (sent ++ (messageOf event).toList) next := by
  rw [Conserved, commands_append, ← h]
  cases hstep with
  | sent channel phase stream result =>
      have hwaiting : waiting ⟨result.toOption.isSome, channel ++ [result], phase, stream⟩ =
          waiting ⟨true, channel, phase, stream⟩ ++ result.toOption.toList := by
        rw [waiting, waiting, List.filterMap_append, ← List.append_assoc]
        cases result <;> rfl
      rw [hwaiting, commands_append, List.append_assoc]
      rfl
  | dropped channel phase stream => exact (List.append_nil _).symm
  | received alive message channel stream => exact (List.append_nil _).symm
  | collected alive message channel messages stream =>
      have hwaiting : waiting ⟨alive, channel, .collecting (messages ++ [message]), stream⟩ =
          waiting ⟨alive, .ok message :: channel, .collecting messages, stream⟩ := by
        rw [waiting, batch, List.append_assoc]
        rfl
      rw [hwaiting]
      exact (List.append_nil _).symm
  | built alive messages pipe stream hpipe =>
      have hwaiting : waiting ⟨alive, [], .collecting messages, stream⟩ = messages :=
        List.append_nil messages
      rw [hwaiting, commands_of_mapM hpipe, ← List.map_append]
      simp [pipeOf, waiting, batch, commands, messageOf]
  | accepted alive channel pipe stream =>
      change (stream ++ pipe ++ []).map some ++ _ = (stream ++ pipe).map some ++ _ ++ []
      rw [List.append_nil, List.append_nil]
      rfl
  | failed alive error channel phase stream hphase => exact absurd rfl (hnext _)
  | left alive channel phase stream stream' event stop => exact absurd rfl (hnext _)

/-! ## Up to the error -/

namespace Stepped

variable (h : Stepped config serialize publisher event next)

include h

theorem running (hnext : ∀ stop, next.phase ≠ .stopped stop) (stop : Stop) :
    publisher.phase ≠ .stopped stop := by
  cases h with
  | sent channel phase stream result => exact hnext stop
  | dropped channel phase stream => exact hnext stop
  | received => exact fun heq => by cases heq
  | collected => exact fun heq => by cases heq
  | built => exact fun heq => by cases heq
  | accepted => exact fun heq => by cases heq
  | failed => exact absurd rfl (hnext _)
  | left => exact absurd rfl (hnext _)

/-- What is in the channel was there or has just been sent. -/
theorem mem_channel {result : Except String GeyserMessage} (hmem : result ∈ next.channel) :
    result ∈ publisher.channel ∨ event = .sent result := by
  cases h with
  | sent channel phase stream last =>
      apply (List.mem_append.1 hmem).imp_right
      exact fun hlast => congrArg Event.sent (List.mem_singleton.1 hlast).symm
  | dropped => exact Or.inl hmem
  | received => exact Or.inl (List.mem_cons_of_mem _ hmem)
  | collected => exact Or.inl (List.mem_cons_of_mem _ hmem)
  | built => exact Or.inl hmem
  | accepted => exact Or.inl hmem
  | failed => exact Or.inl (List.mem_cons_of_mem _ hmem)
  | left => exact Or.inl hmem

/-- A stream error that stops the loop comes from the channel. -/
theorem streamError {error : String} (hstop : next.phase = .stopped (.streamError error)) :
    publisher.phase = .stopped (.streamError error) ∨
      .error error ∈ publisher.channel := by
  cases h with
  | sent => exact Or.inl hstop
  | dropped => exact Or.inl hstop
  | received => cases hstop
  | collected => cases hstop
  | built => cases hstop
  | accepted => cases hstop
  | failed alive error' channel phase stream hphase =>
      cases hstop
      exact Or.inr List.mem_cons_self
  | left alive channel phase stream stream' event stop hevent hnot hrunning =>
      cases hstop
      exact absurd rfl (hnot error)

/-- The sender lives on only if it has not sent an error. -/
theorem alive (hnext : next.alive = true) :
    publisher.alive = true ∧ ∀ error, event ≠ .sent (.error error) := by
  cases h with
  | sent channel phase stream result =>
      refine ⟨rfl, fun error herror => ?_⟩
      cases herror
      cases hnext
  | dropped => cases hnext
  | received => exact ⟨hnext, fun error herror => by cases herror⟩
  | collected => exact ⟨hnext, fun error herror => by cases herror⟩
  | built => exact ⟨hnext, fun error herror => by cases herror⟩
  | accepted => exact ⟨hnext, fun error herror => by cases herror⟩
  | failed => exact ⟨hnext, fun error herror => by cases herror⟩
  | left alive channel phase stream stream' event stop hevent =>
      exact ⟨hnext, fun error => hevent (.error error)⟩

end Stepped

/-- What holds of the state after the events. -/
structure Traced (config : ConfigRedisPublisher)
    (serialize : GeyserMessage → Option (List UInt8)) (events : List Event)
    (publisher : Publisher) : Prop where
  conserved : (∀ stop, publisher.phase ≠ .stopped stop) →
    Conserved config serialize (events.filterMap messageOf) publisher
  channel : ∀ error, .error error ∈ publisher.channel → .sent (.error error) ∈ events
  stopped : ∀ error, publisher.phase = .stopped (.streamError error) →
    .sent (.error error) ∈ events
  dead : ∀ error, .sent (.error error) ∈ events → publisher.alive = false

theorem traced_init : Traced config serialize [] .init where
  conserved _ := rfl
  channel _ hmem := absurd hmem List.not_mem_nil
  stopped _ hstop := by cases hstop
  dead _ hmem := absurd hmem List.not_mem_nil

theorem Traced.stepped {events : List Event} (h : Traced config serialize events publisher)
    (hstep : Stepped config serialize publisher event next) :
    Traced config serialize (events ++ [event]) next where
  conserved hnext := by
    rw [List.filterMap_append, show [event].filterMap messageOf =
      (messageOf event).toList by cases hevent : messageOf event <;> simp [hevent]]
    exact conserved_of_stepped hstep hnext (h.conserved (hstep.running hnext))
  channel error hmem := by
    rcases hstep.mem_channel hmem with hbefore | rfl
    · exact List.mem_append_left _ (h.channel error hbefore)
    · exact List.mem_append_right _ List.mem_cons_self
  stopped error hstop := by
    rcases hstep.streamError hstop with hbefore | hmem
    · exact List.mem_append_left _ (h.stopped error hbefore)
    · exact List.mem_append_left _ (h.channel error hmem)
  dead error hmem := by
    by_contra hnext
    obtain ⟨halive, hevent⟩ := hstep.alive (eq_true_of_ne_false hnext)
    rcases List.mem_append.1 hmem with hmem | hmem
    · rw [h.dead error hmem] at halive
      cases halive
    · exact hevent error (List.mem_singleton.1 hmem).symm

theorem traced_of_run {events : List Event}
    (hrun : run (Publisher.step config serialize) .init events = .ok publisher) :
    Traced config serialize events publisher := by
  apply run_invariant_of_ok (Traced config serialize) traced_init _ hrun
  intro before publisher event next htraced hnext
  exact htraced.stepped (stepped_of_step hnext)

/-! ## From the error to the end -/

/-- What holds once the error has been sent: `lost` is what was waiting then. -/
structure Settling (config : ConfigRedisPublisher)
    (serialize : GeyserMessage → Option (List UInt8)) (sent lost : List GeyserMessage)
    (publisher : Publisher) : Prop where
  dead : publisher.alive = false
  running : (∀ stop, publisher.phase ≠ .stopped stop) →
    Conserved config serialize sent publisher ∧ waiting publisher = lost ∧
      ∃ error, .error error ∈ publisher.channel
  stopped : ∀ error, publisher.phase = .stopped (.streamError error) →
    publisher.stream.map some ++ commands config serialize lost =
      commands config serialize sent

theorem Settling.stepped {sent lost : List GeyserMessage}
    (h : Settling config serialize sent lost publisher)
    (hstep : Stepped config serialize publisher event next) :
    Settling config serialize sent lost next := by
  have hkept (hevent : messageOf event = none) (hnext : ∀ stop, next.phase ≠ .stopped stop) :
      Conserved config serialize sent next := by
    have hconserved := conserved_of_stepped hstep hnext
      (h.running (hstep.running hnext)).1
    rwa [hevent, Option.toList_none, List.append_nil] at hconserved
  cases hstep with
  | sent channel phase stream result => cases h.dead
  | dropped channel phase stream => cases h.dead
  | received alive message channel stream =>
      obtain ⟨-, hwaiting, error, hmem⟩ := h.running (by simp)
      exact ⟨h.dead, fun hnext => ⟨hkept rfl hnext, hwaiting, error,
        List.mem_of_ne_of_mem (by simp) hmem⟩, fun _ hstop => by cases hstop⟩
  | collected alive message channel messages stream =>
      obtain ⟨-, hwaiting, error, hmem⟩ := h.running (by simp)
      refine ⟨h.dead, fun hnext => ⟨hkept rfl hnext, ?_, error,
        List.mem_of_ne_of_mem (by simp) hmem⟩, fun _ hstop => by cases hstop⟩
      rw [← hwaiting, waiting, batch, List.append_assoc]
      rfl
  | built alive messages pipe stream hpipe =>
      -- The error is still in the channel, so the batch is not complete.
      obtain ⟨-, -, error, hmem⟩ := h.running (by simp)
      cases hmem
  | accepted alive channel pipe stream =>
      obtain ⟨-, hwaiting, hmem⟩ := h.running (by simp)
      exact ⟨h.dead, fun hnext => ⟨hkept rfl hnext, hwaiting, hmem⟩,
        fun _ hstop => by cases hstop⟩
  | failed alive error channel phase stream hphase =>
      refine ⟨h.dead, fun hnext => absurd rfl (hnext _), fun _ _ => ?_⟩
      have hrunning (stop : Stop) : phase ≠ .stopped stop := by
        rintro rfl
        rcases hphase with hphase | ⟨messages, hphase⟩ <;> cases hphase
      obtain ⟨hconserved, rfl, -⟩ := h.running hrunning
      have hpipe : pipeOf phase = [] := by
        rcases hphase with rfl | ⟨messages, rfl⟩ <;> rfl
      rwa [Conserved, hpipe, List.append_nil] at hconserved
  | left alive channel phase stream stream' event stop hevent hnot hrunning =>
      refine ⟨h.dead, fun hnext => absurd rfl (hnext _), fun error hstop => ?_⟩
      cases hstop
      exact absurd rfl (hnot error)

theorem settling_of_run {sent lost : List GeyserMessage} {events : List Event}
    {final : Publisher} (h : Settling config serialize sent lost publisher)
    (hrun : run (Publisher.step config serialize) publisher events = .ok final) :
    Settling config serialize sent lost final := by
  apply run_invariant_of_ok (fun _ => Settling config serialize sent lost) h _ hrun
  intro before publisher event next hsettling hnext
  exact hsettling.stepped (stepped_of_step hnext)

/-- Sending the error, unless the loop has been left for another reason. -/
theorem settling_of_sent {events : List Event} {error : String}
    (h : Traced config serialize events publisher)
    (hstep : Stepped config serialize publisher (.sent (.error error)) next) :
    Settling config serialize (events.filterMap messageOf) (waiting publisher) next := by
  cases hstep with
  | sent channel phase stream =>
      refine ⟨rfl, fun hnext => ⟨?_, ?_, error, List.mem_append_right _ List.mem_cons_self⟩,
        fun error' hstop => ?_⟩
      · have hconserved := conserved_of_stepped (.sent channel phase stream (.error error))
          hnext (h.conserved hnext)
        have hnone : messageOf (.sent (.error error)) = none := rfl
        rwa [hnone, Option.toList_none, List.append_nil] at hconserved
      · rw [waiting, waiting, List.filterMap_append]
        exact congrArg (batch phase ++ ·) (List.append_nil _)
      · cases h.dead error' (h.stopped error' hstop)
  | left _ _ _ _ _ _ _ hevent => exact absurd rfl (hevent _)

/-- The loop stops with a stream error.  Then the error has been sent, and what was
sent before it is in the stream, once each and in order, exactly when nothing was
waiting at that moment, in the channel or in the batch that is collected. -/
theorem published_iff {events : List Event} {error : String} {final : Publisher}
    (hrun : run (Publisher.step config serialize) .init events = .ok final)
    (hstop : final.phase = .stopped (.streamError error)) :
    (∃ front back, events = front ++ .sent (.error error) :: back) ∧
    ∀ front error' back, events = front ++ .sent (.error error') :: back →
      ∃ publisher, run (Publisher.step config serialize) .init front = .ok publisher ∧
        (final.stream.map some = commands config serialize (front.filterMap messageOf) ↔
          waiting publisher = []) := by
  constructor
  · exact List.append_of_mem ((traced_of_run hrun).stopped error hstop)
  · rintro front error' back rfl
    rw [List.append_cons] at hrun
    obtain ⟨next, hnext, hback⟩ := exists_run_of_append hrun
    obtain ⟨publisher, hfront, hlast⟩ := exists_run_of_append hnext
    rw [run_singleton] at hlast
    have hsettling := settling_of_run
      (settling_of_sent (traced_of_run hfront) (stepped_of_step hlast)) hback
    refine ⟨publisher, hfront, ?_⟩
    rw [← hsettling.stopped error hstop, List.self_eq_append_right, commands,
      List.map_eq_nil_iff]

/-! ## An error between two batches, and one within a batch -/

def localConfig : ConfigRedisPublisher where
  streamKey := "solfees:events"
  streamMaxlen := 600
  streamFieldKey := "message"

/-- The encoding of a status; no block is sent here. -/
def statusBytes : GeyserMessage → Option (List UInt8)
  | .status slot commitment =>
      some ([0, 0, 0, 0] ++ (List.range 8).map (fun i => UInt8.ofNat (slot / 256 ^ i)) ++
        [match commitment with
          | .processed => 0
          | .confirmed => 1
          | .finalized => 2, 0, 0, 0])
  | .slot _ => none

def betweenBatches : List Event :=
  [.sent (.ok (.status 5 .processed)), .taken, .taken, .accepted,
    .sent (.error "stream finished"), .taken]

def withinBatch : List Event :=
  [.sent (.ok (.status 5 .processed)), .taken, .sent (.error "stream finished"), .taken]

theorem published_iff_betweenBatches :
    ∃ final, run (Publisher.step localConfig statusBytes) .init betweenBatches =
        .ok final ∧
      final.stream.map some =
        commands localConfig statusBytes [.status 5 .processed] := by
  obtain ⟨final, hrun, hstop⟩ : ∃ final,
      run (Publisher.step localConfig statusBytes) .init betweenBatches = .ok final ∧
        final.phase = .stopped (.streamError "stream finished") :=
    ⟨_, rfl, rfl⟩
  obtain ⟨-, hiff⟩ := published_iff hrun hstop
  obtain ⟨publisher, hfront, hpublished⟩ :=
    hiff (betweenBatches.take 4) "stream finished" [.taken] rfl
  obtain rfl := Except.ok.inj hfront
  exact ⟨final, hrun, hpublished.2 rfl⟩

/-- The batch is discarded with the error, and the message is not published. -/
theorem batch_discarded :
    ∃ final, run (Publisher.step localConfig statusBytes) .init withinBatch = .ok final ∧
      final.phase = .stopped (.streamError "stream finished") ∧ final.stream = [] ∧
      final.stream.map some ≠
        commands localConfig statusBytes (withinBatch.filterMap messageOf) :=
  ⟨_, rfl, rfl, rfl, by decide⟩

end Solfees.StreamError
