import Solfees.Core.Interleaving
import Solfees.Redis.Forwarding
import Solfees.Redis.Transport

/-!
# What the stream delivers

The stream is an interleaving of what its publishers were sent.  The consumer handles
its entries in order, none twice, and misses an entry only if Redis forgot it before the
consumer asked for it.  So it misses nothing as long as it is never further behind than
the publishers let the stream grow.
-/

namespace Solfees.Transport

open Solfees.Interleaving
open Solfees.Message
open Solfees.PublishLoop
open Solfees.Run
open Solfees.StreamError (commands commands_append messageOf pipeOf)
open Solfees.Subscribe
open Solfees.Trimming

variable {config : ConfigRedisPublisher} {serialize : GeyserMessage → Option (List UInt8)}
  {deserialize : List UInt8 → Option GeyserMessage} {publishers : ℕ}
  {events : List RelayEvent} {relay next : Relay}

/-! ## What a publisher appends -/

theorem stream_of_onRecv {publisher after : Publisher} (h : publisher.onRecv = some after) :
    after.stream = publisher.stream := by
  rw [Publisher.onRecv.eq_def] at h
  split at h
  · rw [← Option.some.inj h]
  · rw [← Option.some.inj h]
  · split at h
    · cases h
    · rw [← Option.some.inj h]

theorem stream_onTryRecv (publisher : Publisher) (messages : List GeyserMessage) :
    (publisher.onTryRecv config serialize messages).stream = publisher.stream := by
  rw [Publisher.onTryRecv.eq_def]
  split
  · rfl
  · rfl
  · split <;> rfl

/-- A step appends the pipeline that is being sent, or nothing. -/
theorem stream_of_step {publisher after : Publisher} {event : PublishLoop.Event}
    (hstep : publisher.step config serialize event = .ok after) :
    after.stream = publisher.stream ++ executed publisher event ∧
      (executed publisher event = [] ∨
        executed publisher event = pipeOf publisher.phase) := by
  have hquiet (hexecuted : executed publisher event = [])
      (hstream : after.stream = publisher.stream) :
      after.stream = publisher.stream ++ executed publisher event ∧
        (executed publisher event = [] ∨
          executed publisher event = pipeOf publisher.phase) := by
    rw [hexecuted, hstream, List.append_nil]
    exact ⟨rfl, Or.inl rfl⟩
  obtain ⟨alive, channel, phase, stream⟩ := publisher
  cases event with
  | sent result =>
      rw [Publisher.step] at hstep
      split at hstep
      · exact hquiet rfl (by rw [← Except.ok.inj hstep])
      · cases hstep
  | dropped =>
      rw [Publisher.step] at hstep
      split at hstep
      · exact hquiet rfl (by rw [← Except.ok.inj hstep])
      · cases hstep
  | taken =>
      cases phase with
      | receiving => exact hquiet rfl (stream_of_onRecv (eq_some_of_elim_eq_ok hstep))
      | collecting messages =>
          refine hquiet rfl ?_
          rw [← Except.ok.inj hstep, stream_onTryRecv]
      | sending pipe => cases hstep
      | stopped stop => cases hstep
  | accepted =>
      cases phase with
      | sending pipe =>
          rw [← Except.ok.inj hstep]
          exact ⟨rfl, Or.inr rfl⟩
      | _ => cases hstep
  | rejected applied =>
      cases phase with
      | sending pipe =>
          rw [← Except.ok.inj hstep]
          cases applied with
          | true => exact ⟨rfl, Or.inr rfl⟩
          | false => exact ⟨rfl, Or.inl rfl⟩
      | _ => cases hstep
  | signal signal =>
      cases phase with
      | receiving => exact hquiet rfl (by rw [← Except.ok.inj hstep])
      | _ => cases hstep
  | tasksFinished =>
      cases phase with
      | receiving => exact hquiet rfl (by rw [← Except.ok.inj hstep])
      | _ => cases hstep

theorem executed_of_stopped {publisher : Publisher} {stop : Stop}
    (hstop : publisher.phase = .stopped stop) (event : PublishLoop.Event) :
    executed publisher event = [] := by
  obtain ⟨alive, channel, phase, stream⟩ := publisher
  obtain rfl : phase = .stopped stop := hstop
  cases event with
  | rejected applied => cases applied <;> rfl
  | _ => rfl

/-- A publisher has appended the commands of the first messages that it was sent. -/
theorem published_of_run {publisher : Publisher} {events : List PublishLoop.Event}
    (hrun : run (Publisher.step config serialize) .init events = .ok publisher) :
    publisher.stream.map some <+:
      commands config serialize (events.filterMap messageOf) := by
  refine run_invariant_of_reached (fun events (publisher : Publisher) =>
    publisher.stream.map some <+: commands config serialize (events.filterMap messageOf))
    List.prefix_rfl ?_ hrun
  intro before publisher event after hbefore hprefix hstep
  have hgrown : commands config serialize (before.filterMap messageOf) <+:
      commands config serialize ((before ++ [event]).filterMap messageOf) := by
    rw [List.filterMap_append, commands_append]
    exact List.prefix_append _ _
  refine List.IsPrefix.trans ?_ hgrown
  obtain ⟨hstream, hexecuted⟩ := stream_of_step hstep
  rw [hstream]
  by_cases hstopped : ∃ stop, publisher.phase = .stopped stop
  · obtain ⟨stop, hstop⟩ := hstopped
    rw [executed_of_stopped hstop, List.append_nil]
    exact hprefix
  · have hconserved :=
      (StreamError.traced_of_run hbefore).conserved (not_exists.1 hstopped)
    rw [StreamError.Conserved] at hconserved
    rw [← hconserved]
    refine List.IsPrefix.trans ?_ (List.prefix_append _ _)
    rw [List.map_append, List.map_append, List.prefix_append_right_inj]
    rcases hexecuted with hnone | hpipe
    · rw [hnone]
      exact List.nil_prefix
    · rw [hpipe]

/-! ## One step -/

/-- What a step does. -/
inductive Relayed (config : ConfigRedisPublisher)
    (serialize : GeyserMessage → Option (List UInt8))
    (deserialize : List UInt8 → Option GeyserMessage) (relay : Relay) :
    RelayEvent → Relay → Prop
  | publisher {number : ℕ} {event : PublishLoop.Event} {now trimmed : ℕ}
      {publisher after : Publisher} (hpublisher : relay.publishers[number]? = some publisher)
      (hstep : publisher.step config serialize event = .ok after) :
      Relayed config serialize deserialize relay (.publisher number event now trimmed)
        { relay with
          publishers := relay.publishers.set number after
          stream := execute config.streamKey relay.stream now trimmed
            (executed publisher event) }
  | polled (hrunning : relay.consumer.running = true) :
      Relayed config serialize deserialize relay .polled
        (relay.onReply config deserialize (xread relay.stream relay.consumer.latestId)
          (xreadReply config.streamKey (xread relay.stream relay.consumer.latestId)))
  | pollFailed {error : String} (hrunning : relay.consumer.running = true) :
      Relayed config serialize deserialize relay (.pollFailed error)
        (relay.onReply config deserialize [] (.error error))

theorem relayed_of_step {event : RelayEvent}
    (hstep : relay.step config serialize deserialize event = .ok next) :
    Relayed config serialize deserialize relay event next := by
  cases event with
  | publisher number event now trimmed =>
      rw [Relay.step] at hstep
      cases hpublisher : relay.publishers[number]? with
      | none =>
          rw [hpublisher] at hstep
          cases hstep
      | some publisher =>
          rw [hpublisher] at hstep
          cases hafter : publisher.step config serialize event with
          | error fault =>
              simp only [hafter] at hstep
              cases hstep
          | ok after =>
              simp only [hafter] at hstep
              obtain rfl := Except.ok.inj hstep
              exact .publisher hpublisher hafter
  | polled =>
      rw [Relay.step] at hstep
      split at hstep
      next hrunning =>
        obtain rfl := Except.ok.inj hstep
        exact .polled hrunning
      next => cases hstep
  | pollFailed error =>
      rw [Relay.step] at hstep
      split at hstep
      next hrunning =>
        obtain rfl := Except.ok.inj hstep
        exact .pollFailed hrunning
      next => cases hstep

/-- A publisher of the run has made a run of its own. -/
theorem publisher_of_run
    (hrun : runRelay config serialize deserialize publishers events = .ok relay)
    {number : ℕ} {publisher : Publisher}
    (hpublisher : relay.publishers[number]? = some publisher) :
    run (Publisher.step config serialize) .init (eventsOf number events) = .ok publisher := by
  refine run_invariant_of_ok (fun events (relay : Relay) => ∀ publisher,
    relay.publishers[number]? = some publisher →
      run (Publisher.step config serialize) .init (eventsOf number events) = .ok publisher)
    ?_ ?_ hrun publisher hpublisher
  · intro publisher hpublisher
    rw [List.eq_of_mem_replicate (List.mem_of_getElem? hpublisher)]
    rfl
  · intro before relay event next hbefore hstep publisher hpublisher
    rw [eventsOf, List.filterMap_append, ← eventsOf]
    cases relayed_of_step hstep with
    | @publisher other event now trimmed old after hold hafter =>
        by_cases hother : other = number
        · subst hother
          have hbound := (List.getElem?_eq_some_iff.1 hold).1
          obtain rfl : after = publisher :=
            Option.some.inj ((List.getElem?_set_self hbound).symm.trans hpublisher)
          simp only [List.filterMap_cons, List.filterMap_nil, if_pos]
          exact (run_concat_of_ok (hbefore old hold) event).trans hafter
        · rw [List.getElem?_set_ne hother] at hpublisher
          simp only [List.filterMap_cons, List.filterMap_nil, if_neg hother, List.append_nil]
          exact hbefore publisher hpublisher
    | polled hrunning =>
        simpa using hbefore publisher hpublisher
    | pollFailed hrunning =>
        simpa using hbefore publisher hpublisher

/-- What the publishers send are the commands of messages. -/
theorem mem_executed_of_run
    (hrun : runRelay config serialize deserialize publishers events = .ok relay)
    {number : ℕ} {publisher after : Publisher} {event : PublishLoop.Event}
    (hpublisher : relay.publishers[number]? = some publisher)
    (hstep : publisher.step config serialize event = .ok after) {command : Xadd}
    (hmem : command ∈ executed publisher event) :
    ∃ message, xadd config serialize message = some command := by
  have hafter := (run_concat_of_ok (publisher_of_run hrun hpublisher) event).trans hstep
  have hcommand : command ∈ after.stream := by
    rw [(stream_of_step hstep).1]
    exact List.mem_append_right _ hmem
  obtain ⟨message, -, hxadd⟩ := List.mem_map.1
    ((published_of_run hafter).subset (List.mem_map_of_mem hcommand))
  exact ⟨message, hxadd⟩

/-! ## The stream -/

theorem foldl_add (now : ℕ) (pipe : List Xadd) (stream : RedisStream) {retained : ℕ}
    (hretains : stream.Retains retained) :
    (pipe.foldl (add now) stream).entries.map Prod.snd =
        stream.entries.map Prod.snd ++ pipe ∧
      stream.Grows (pipe.foldl (add now) stream) ∧
      (pipe.foldl (add now) stream).Retains retained := by
  induction pipe generalizing stream with
  | nil => exact ⟨(List.append_nil _).symm, .refl stream, hretains⟩
  | cons command pipe ih =>
      obtain ⟨hentries, hgrows, hkept⟩ :=
        ih (add now stream command) (hretains.push (EntryId.lt_next now stream.lastId))
      refine ⟨?_, (stream.grows_push _ command _).trans hgrows, hkept⟩
      rw [List.foldl_cons, hentries, add, TrimmedLog.push, List.map_append, List.append_assoc]
      rfl

/-- The commands of a configuration all name its stream and its length. -/
theorem execute_eq (stream : RedisStream) (now trimmed : ℕ) {pipe : List Xadd}
    (hpipe : ∀ command ∈ pipe, ∃ message, xadd config serialize message = some command) :
    execute config.streamKey stream now trimmed pipe =
      if pipe = [] then stream
      else (pipe.foldl (add now) stream).trim trimmed config.streamMaxlen.toNat := by
  have hcommand (command : Xadd) (hmem : command ∈ pipe) :
      command.streamKey = config.streamKey ∧ command.streamMaxlen = config.streamMaxlen := by
    obtain ⟨message, hxadd⟩ := hpipe command hmem
    obtain ⟨payload, -, rfl⟩ := Option.map_eq_some_iff.1 hxadd
    exact ⟨rfl, rfl⟩
  have hkeys : pipe.filter (fun command => command.streamKey = config.streamKey) = pipe :=
    List.filter_eq_self.2 fun command hmem => decide_eq_true (hcommand command hmem).1
  have hlengths : pipe.map (fun command => command.streamMaxlen.toNat) =
      List.replicate pipe.length config.streamMaxlen.toNat := by
    refine List.eq_replicate_iff.2 ⟨List.length_map .., fun retained hmem => ?_⟩
    obtain ⟨command, hcommand', rfl⟩ := List.mem_map.1 hmem
    rw [(hcommand command hcommand').2]
  rw [execute, hkeys, hlengths]
  cases pipe with
  | nil => rfl
  | cons command pipe =>
      rw [List.min?_replicate_of_pos (List.length_pos_iff.2 (List.cons_ne_nil _ _)),
        if_neg (List.cons_ne_nil _ _)]

/-- A transaction appends its commands. -/
theorem execute_spec {stream : RedisStream}
    (hretains : stream.Retains config.streamMaxlen.toNat) (now trimmed : ℕ)
    {pipe : List Xadd}
    (hpipe : ∀ command ∈ pipe, ∃ message, xadd config serialize message = some command) :
    (execute config.streamKey stream now trimmed pipe).entries.map Prod.snd =
        stream.entries.map Prod.snd ++ pipe ∧
      stream.Grows (execute config.streamKey stream now trimmed pipe) ∧
      (execute config.streamKey stream now trimmed pipe).Retains
        config.streamMaxlen.toNat := by
  rw [execute_eq stream now trimmed hpipe]
  split
  next hnone =>
    rw [hnone, List.append_nil]
    exact ⟨rfl, .refl stream, hretains⟩
  next =>
    obtain ⟨hentries, hgrows, hkept⟩ := foldl_add now pipe stream hretains
    exact ⟨hentries, hgrows.trans (TrimmedLog.grows_trim _ _ _), hkept.trim trimmed⟩

/-- The stream keeps as many entries as the publishers ask for. -/
theorem retains_of_run
    (hrun : runRelay config serialize deserialize publishers events = .ok relay) :
    relay.stream.Retains config.streamMaxlen.toNat := by
  refine run_invariant_of_reached (fun _ (relay : Relay) =>
    relay.stream.Retains config.streamMaxlen.toNat) (TrimmedLog.retains_empty _) ?_ hrun
  intro before relay event next hbefore hretains hstep
  cases relayed_of_step hstep with
  | publisher hpublisher hafter =>
      exact (execute_spec hretains _ _ fun _ =>
        mem_executed_of_run hbefore hpublisher hafter).2.2
  | polled hrunning => exact hretains
  | pollFailed hrunning => exact hretains

theorem grows_of_step
    (hrun : runRelay config serialize deserialize publishers events = .ok relay)
    {event : RelayEvent} (hstep : relay.step config serialize deserialize event = .ok next) :
    relay.stream.Grows next.stream := by
  cases relayed_of_step hstep with
  | publisher hpublisher hafter =>
      exact (execute_spec (retains_of_run hrun) _ _ fun _ =>
        mem_executed_of_run hrun hpublisher hafter).2.1
  | polled hrunning => exact .refl _
  | pollFailed hrunning => exact .refl _

/-- The stream interleaves what its publishers have appended. -/
theorem woven_of_run
    (hrun : runRelay config serialize deserialize publishers events = .ok relay) :
    Interleaves (relay.publishers.map Publisher.stream)
      (relay.stream.entries.map Prod.snd) := by
  refine run_invariant_of_reached (fun _ (relay : Relay) => Interleaves
    (relay.publishers.map Publisher.stream) (relay.stream.entries.map Prod.snd)) ?_ ?_ hrun
  · refine .done fun rest hrest => ?_
    obtain ⟨publisher, hpublisher, rfl⟩ := List.mem_map.1 hrest
    rw [List.eq_of_mem_replicate hpublisher]
    rfl
  · intro before relay event next hbefore hwoven hstep
    cases relayed_of_step hstep with
    | @publisher number event now trimmed publisher after hpublisher hafter =>
        rw [(execute_spec (retains_of_run hbefore) now trimmed fun _ =>
          mem_executed_of_run hbefore hpublisher hafter).1, List.map_set,
          (stream_of_step hafter).1]
        exact hwoven.append_list (by rw [List.getElem?_map, hpublisher]; rfl) _
    | polled hrunning => exact hwoven
    | pollFailed hrunning => exact hwoven

/-! ## The consumer -/

/-- Every entry is the command of a message. -/
theorem exists_message_of_mem
    (hrun : runRelay config serialize deserialize publishers events = .ok relay)
    {entry : EntryId × Xadd} (hentry : entry ∈ relay.stream.entries) :
    ∃ message, xadd config serialize message = some entry.2 := by
  obtain ⟨stream, hstream, hmem⟩ :=
    (woven_of_run hrun).exists_writer (List.mem_map_of_mem hentry)
  obtain ⟨publisher, hpublisher, rfl⟩ := List.mem_map.1 hstream
  obtain ⟨number, hnumber⟩ := List.mem_iff_getElem?.1 hpublisher
  have hcommand := (published_of_run (publisher_of_run hrun hnumber)).subset
    (List.mem_map_of_mem hmem)
  obtain ⟨message, -, hxadd⟩ := List.mem_map.1 hcommand
  exact ⟨message, hxadd⟩

/-- What is written can be read. -/
def RoundTrips (serialize : GeyserMessage → Option (List UInt8))
    (deserialize : List UInt8 → Option GeyserMessage) : Prop :=
  ∀ message payload, serialize message = some payload → deserialize payload = some message

theorem deserialize_of_xadd (hcodec : RoundTrips serialize deserialize)
    {message : GeyserMessage} {command : Xadd}
    (hxadd : xadd config serialize message = some command) :
    deserialize command.payload = some message ∧
      command.streamFieldKey = config.streamFieldKey := by
  obtain ⟨payload, hpayload, rfl⟩ := Option.map_eq_some_iff.1 hxadd
  exact ⟨hcodec message payload hpayload, rfl⟩

theorem messagesIn_cons {entry : EntryId × Xadd} {message : GeyserMessage}
    (hmessage : deserialize entry.2.payload = some message)
    (entries : List (EntryId × Xadd)) :
    messagesIn deserialize (entry :: entries) = message :: messagesIn deserialize entries :=
  List.filterMap_cons_some (f := fun entry : EntryId × Xadd => deserialize entry.2.payload)
    hmessage

theorem messagesIn_append (front back : List (EntryId × Xadd)) :
    messagesIn deserialize (front ++ back) =
      messagesIn deserialize front ++ messagesIn deserialize back :=
  List.filterMap_append

/-- The consumer can read the entries. -/
theorem decodes_of_commands (hcodec : RoundTrips serialize deserialize)
    {entries : List (EntryId × Xadd)}
    (hentries : ∀ entry ∈ entries, ∃ message, xadd config serialize message = some entry.2) :
    List.Forall₂ (Decodes config.streamFieldKey deserialize) (entries.map streamId)
      (messagesIn deserialize entries) := by
  induction entries with
  | nil => exact .nil
  | cons entry entries ih =>
      obtain ⟨message, hxadd⟩ := hentries entry List.mem_cons_self
      obtain ⟨hdecoded, hkey⟩ := deserialize_of_xadd hcodec hxadd
      rw [messagesIn_cons hdecoded, List.map_cons]
      refine .cons ⟨entry.2.payload, ?_, hdecoded⟩
        (ih fun other hother => hentries other (List.mem_cons_of_mem _ hother))
      rw [streamId, hkey]
      exact List.lookup_cons_self

theorem mem_of_mem_xread {stream : RedisStream} {latestId : String}
    {entry : EntryId × Xadd} (h : entry ∈ xread stream latestId) : entry ∈ stream.entries :=
  List.mem_of_mem_drop (List.mem_filter.1 (List.mem_of_mem_take h)).1

/-- The consumer goes on after the last entry that it handles. -/
theorem latestId_of_foldl {streamFieldKey : String} {ids : List StreamId}
    {received : List GeyserMessage}
    (hids : List.Forall₂ (Decodes streamFieldKey deserialize) ids received)
    {consumer : Consumer} (hrunning : consumer.running = true) :
    (ids.foldl (Consumer.onStreamId streamFieldKey deserialize) consumer).latestId =
      (ids.getLast?.map StreamId.id).getD consumer.latestId := by
  induction hids generalizing consumer with
  | nil => rfl
  | @cons streamId message ids received hdecodes _ ih =>
      have hfirst := Forwarding.onStreamId_decodes hrunning hdecodes
      rw [List.foldl_cons, ih (by rw [hfirst]), hfirst]
      cases ids with
      | nil => rfl
      | cons other ids =>
          rw [List.getLast?_cons_cons]
          obtain ⟨last, hlast⟩ := Option.isSome_iff_exists.1
            (List.getLast?_isSome.2 (List.cons_ne_nil other ids))
          rw [hlast]
          rfl

/-- The errors of failed polls; the consumer stops at the first. -/
def failures (events : List RelayEvent) : List String :=
  events.filterMap fun event =>
    match event with
    | .pollFailed error => some error
    | _ => none

theorem failures_concat (events : List RelayEvent) (event : RelayEvent) :
    failures (events ++ [event]) = failures events ++
      match event with
      | .pollFailed error => [error]
      | _ => [] := by
  rw [failures, List.filterMap_append]
  cases event <;> rfl

/-- The consumer has handled the entries, and stopped if a poll failed. -/
structure Fed (deserialize : List UInt8 → Option GeyserMessage)
    (entries : List (EntryId × Xadd)) (failures : List String) (consumer : Consumer) :
    Prop where
  deduplication : consumer.deduplication =
    stateAfter Deduplication.deduplicate .init (messagesIn deserialize entries)
  tx : consumer.tx =
    (outputs Deduplication.deduplicate .init (messagesIn deserialize entries)).map .ok ++
      failures.map .error
  running : consumer.running = true ↔ failures = []

/-- The consumer handles a reply. -/
theorem Fed.polled {entries : List (EntryId × Xadd)} {failures : List String}
    {consumer : Consumer} (h : Fed deserialize entries failures consumer)
    (hrunning : consumer.running = true) {streamFieldKey streamKey : String}
    {more : List (EntryId × Xadd)}
    (hmore : List.Forall₂ (Decodes streamFieldKey deserialize) (more.map streamId)
      (messagesIn deserialize more)) :
    Fed deserialize (entries ++ more) failures
        (consumer.onReply streamFieldKey deserialize (xreadReply streamKey more)) ∧
      (consumer.onReply streamFieldKey deserialize (xreadReply streamKey more)).latestId =
        (more.getLast?.map fun entry => entry.1.render).getD consumer.latestId := by
  have hfailures := h.running.1 hrunning
  rw [Consumer.onReply.eq_def, if_pos hrunning, xreadReply]
  by_cases hnone : more = []
  · subst hnone
    rw [List.append_nil]
    exact ⟨h, rfl⟩
  · rw [if_neg hnone]
    simp only [List.getLast?_singleton]
    obtain ⟨latestId, hbatch⟩ := Forwarding.foldl_onStreamId hmore consumer hrunning
    refine ⟨⟨?_, ?_, ?_⟩, ?_⟩
    · rw [hbatch, h.deduplication, messagesIn_append, stateAfter, stateAfter, stateAfter,
        List.foldl_append]
    · rw [hbatch, h.deduplication, h.tx, hfailures, messagesIn_append, outputs_append]
      simp
    · rw [hbatch]
      simpa using hfailures
    · rw [latestId_of_foldl hmore hrunning, List.getLast?_map, Option.map_map]
      rfl

/-- A failed poll stops the consumer. -/
theorem Fed.failed {entries : List (EntryId × Xadd)} {failures : List String}
    {consumer : Consumer} (h : Fed deserialize entries failures consumer)
    (hrunning : consumer.running = true) (streamFieldKey error : String) :
    Fed deserialize entries (failures ++ [error])
        (consumer.onReply streamFieldKey deserialize (.error error)) ∧
      (consumer.onReply streamFieldKey deserialize (.error error)).latestId =
        consumer.latestId := by
  rw [Consumer.onReply.eq_def, if_pos hrunning]
  refine ⟨⟨h.deduplication, ?_, by simp⟩, rfl⟩
  change consumer.tx ++ [.error error] = _
  rw [h.tx, List.map_append, List.append_assoc]
  rfl

/-- What the consumer makes of the stream, as a reader. -/
def Relay.reader (relay : Relay) : Reader EntryId Xadd where
  cursor := EntryId.parse relay.consumer.latestId
  got := relay.delivered

theorem reader_onReply (relay : Relay) (entries : List (EntryId × Xadd)) (reply : XreadReply) :
    (relay.onReply config deserialize entries reply).reader =
      ⟨EntryId.parse (relay.consumer.onReply config.streamFieldKey deserialize reply).latestId,
        relay.delivered ++ entries⟩ := rfl

/-- The reader after an event: a poll reads, all else leaves it. -/
def Relay.readerAfter (relay : Relay) : RelayEvent → Reader EntryId Xadd
  | .polled => relay.reader.take (relay.stream.read 5 relay.reader.cursor)
  | _ => relay.reader

theorem parse_getD (entries : List (EntryId × Xadd)) (latestId : String) :
    EntryId.parse ((entries.getLast?.map fun entry => entry.1.render).getD latestId) =
      (entries.getLast?.map Prod.fst).getD (EntryId.parse latestId) := by
  cases entries.getLast? with
  | none => rfl
  | some entry => exact EntryId.parse_render entry.1

/-- The consumer has handled what it got, and stands at a position of the stream. -/
structure Served (deserialize : List UInt8 → Option GeyserMessage)
    (events : List RelayEvent) (relay : Relay) (position : ℕ) : Prop where
  fed : Fed deserialize relay.delivered (failures events) relay.consumer
  reader : Reader.At relay.stream position relay.reader

/-- What a step does to the reader. -/
theorem reader_of_relayed (hcodec : RoundTrips serialize deserialize)
    (hrun : runRelay config serialize deserialize publishers events = .ok relay)
    (hfed : Fed deserialize relay.delivered (failures events) relay.consumer)
    {event : RelayEvent} (hstep : relay.step config serialize deserialize event = .ok next) :
    Fed deserialize next.delivered (failures (events ++ [event])) next.consumer ∧
      next.reader = relay.readerAfter event := by
  rw [failures_concat]
  cases relayed_of_step hstep with
  | publisher hpublisher hafter =>
      rw [List.append_nil]
      exact ⟨hfed, rfl⟩
  | polled hrunning =>
      have hdecodes : List.Forall₂ (Decodes config.streamFieldKey deserialize)
          ((xread relay.stream relay.consumer.latestId).map streamId)
          (messagesIn deserialize (xread relay.stream relay.consumer.latestId)) :=
        decodes_of_commands hcodec fun entry hentry =>
          exists_message_of_mem hrun (mem_of_mem_xread hentry)
      obtain ⟨hfed', hlatest⟩ := hfed.polled hrunning hdecodes
      rw [List.append_nil]
      refine ⟨hfed', ?_⟩
      rw [reader_onReply, hlatest, parse_getD]
      rfl
  | @pollFailed error hrunning =>
      obtain ⟨hfed', hlatest⟩ := hfed.failed hrunning config.streamFieldKey error
      rw [reader_onReply, hlatest, List.append_nil]
      refine ⟨?_, rfl⟩
      change Fed deserialize (relay.delivered ++ []) _ _
      rw [List.append_nil]
      exact hfed'

/-- The stream, what it has delivered, and the consumer fit together. -/
theorem served_of_run (hcodec : RoundTrips serialize deserialize)
    (hrun : runRelay config serialize deserialize publishers events = .ok relay) :
    ∃ position, Served deserialize events relay position := by
  refine run_invariant_of_reached (fun events (relay : Relay) =>
    ∃ position, Served deserialize events relay position) ?_ ?_ hrun
  · refine ⟨0, ⟨rfl, rfl, by simp [failures, Relay.init, Consumer.init]⟩, ?_⟩
    rw [Relay.reader]
    change Reader.At _ 0 ⟨EntryId.parse "0", []⟩
    rw [EntryId.parse_zero]
    exact Reader.at_init _
  · intro before relay event next hbefore hserved hstep
    obtain ⟨position, hfed, hat⟩ := hserved
    obtain ⟨hfed', hreader⟩ := reader_of_relayed hcodec hbefore hfed hstep
    have hgrows := grows_of_step hbefore hstep
    cases event with
    | polled =>
        by_cases hmore : relay.stream.read 5 relay.reader.cursor = []
        · rw [Relay.readerAfter, hmore] at hreader
          exact ⟨position, hfed', hreader ▸ hat.take_nil.grow hgrows⟩
        · rw [Relay.readerAfter] at hreader
          exact ⟨_, hfed', hreader ▸ (hat.take hmore).grow hgrows⟩
    | publisher number event now trimmed =>
        exact ⟨position, hfed', hreader ▸ hat.grow hgrows⟩
    | pollFailed error => exact ⟨position, hfed', hreader ▸ hat.grow hgrows⟩

/-! ## From the publishers to the consumer -/

/-- The commands of messages can be read back. -/
theorem messages_of_commands (hcodec : RoundTrips serialize deserialize)
    {stream : List Xadd} {sent : List GeyserMessage}
    (h : stream.map some = commands config serialize sent) :
    stream.filterMap (fun command => deserialize command.payload) = sent := by
  induction stream generalizing sent with
  | nil => exact (List.map_eq_nil_iff.1 h.symm).symm
  | cons command stream ih =>
      cases sent with
      | nil => cases h
      | cons message sent =>
          obtain ⟨hxadd, hrest⟩ := List.cons.inj h
          have hdecoded := (deserialize_of_xadd hcodec hxadd.symm).1
          simp only [List.filterMap_cons, hdecoded, ih hrest]

/-- The messages of a publisher's commands are the first of those that it was sent. -/
theorem messages_of_published (hcodec : RoundTrips serialize deserialize)
    {stream : List Xadd} {sent : List GeyserMessage}
    (h : stream.map some <+: commands config serialize sent) :
    stream.filterMap (fun command => deserialize command.payload) <+: sent := by
  have hfirst := List.prefix_iff_eq_take.1 h
  rw [commands, ← List.map_take] at hfirst
  rw [messages_of_commands hcodec hfirst]
  exact List.take_prefix _ _

/-- The messages that the publishers have put into the stream. -/
def Relay.published (deserialize : List UInt8 → Option GeyserMessage) (relay : Relay) :
    List (List GeyserMessage) :=
  relay.publishers.map fun publisher =>
    publisher.stream.filterMap fun command => deserialize command.payload

theorem interleaves_published
    (hrun : runRelay config serialize deserialize publishers events = .ok relay) :
    Interleaves (relay.published deserialize)
      (messagesIn deserialize relay.stream.entries) := by
  have hwoven := (woven_of_run hrun).filterMap fun command : Xadd =>
    deserialize command.payload
  rw [List.filterMap_map, List.map_map] at hwoven
  exact hwoven

theorem published_first (hcodec : RoundTrips serialize deserialize)
    (hrun : runRelay config serialize deserialize publishers events = .ok relay)
    {number : ℕ} {first : List GeyserMessage}
    (hfirst : (relay.published deserialize)[number]? = some first) :
    first <+: sentTo number events := by
  rw [Relay.published, List.getElem?_map, Option.map_eq_some_iff] at hfirst
  obtain ⟨publisher, hpublisher, rfl⟩ := hfirst
  exact messages_of_published hcodec (published_of_run (publisher_of_run hrun hpublisher))

/-- A publisher that waits for the next message has published all that it was sent. -/
theorem published_all (hcodec : RoundTrips serialize deserialize)
    (hrun : runRelay config serialize deserialize publishers events = .ok relay)
    {number : ℕ} {publisher : Publisher} (hpublisher : relay.publishers[number]? = some publisher)
    (hphase : publisher.phase = .receiving) (hchannel : publisher.channel = []) :
    publisher.stream.filterMap (fun command => deserialize command.payload) =
      sentTo number events := by
  have hgoing : ∀ stop, publisher.phase ≠ .stopped stop := by
    intro stop hstop
    rw [hphase] at hstop
    cases hstop
  have hconserved :=
    (StreamError.traced_of_run (publisher_of_run hrun hpublisher)).conserved hgoing
  rw [StreamError.Conserved, StreamError.waiting, hphase, hchannel] at hconserved
  refine messages_of_commands hcodec (Eq.trans ?_ hconserved)
  simp [pipeOf, StreamError.batch, commands]

theorem length_publishers_of_run
    (hrun : runRelay config serialize deserialize publishers events = .ok relay) :
    relay.publishers.length = publishers := by
  refine run_invariant_of_ok (fun _ (relay : Relay) => relay.publishers.length = publishers)
    (List.length_replicate ..) ?_ hrun
  intro before relay event next hbefore hstep
  cases relayed_of_step hstep with
  | publisher hpublisher hafter => rw [List.length_set, hbefore]
  | polled hrunning => exact hbefore
  | pollFailed hrunning => exact hbefore

/-- **What the stream delivers.**  Whatever the order in which publishers, Redis and the
consumer go on, the stream interleaves the first messages that each publisher was sent.
The consumer gets a part of it in order, sends on what its deduplication lets through, and
as long as its receiver is there it stops only if a poll fails.  What it has passed over
without getting it was trimmed. -/
theorem stream_delivers (hcodec : RoundTrips serialize deserialize)
    (hrun : runRelay config serialize deserialize publishers events = .ok relay) :
    (∃ published, Interleaves published (messagesIn deserialize relay.stream.entries) ∧
      ∀ number first, published[number]? = some first → first <+: sentTo number events) ∧
    relay.delivered.Sublist relay.stream.entries ∧
    (∀ entry ∈ relay.stream.entries, entry.1 ≤ EntryId.parse relay.consumer.latestId →
      entry ∉ relay.delivered → entry ∈ relay.stream.entries.take relay.stream.trimmed) ∧
    relay.consumer.tx = (outputs Deduplication.deduplicate .init
      (messagesIn deserialize relay.delivered)).map .ok ++ (failures events).map .error ∧
    (relay.consumer.running = true ↔ failures events = []) := by
  obtain ⟨position, hfed, hat⟩ := served_of_run hcodec hrun
  exact ⟨⟨_, interleaves_published hrun, fun _ _ => published_first hcodec hrun⟩,
    hat.sublist.trans (List.take_sublist _ _), hat.forgotten, hfed.tx, hfed.running⟩

def twoStatuses : List GeyserMessage := [.status 5 .processed, .status 5 .confirmed]

/-- The bytes of the two statuses. -/
def writeStatus (message : GeyserMessage) : Option (List UInt8) :=
  if message ∈ twoStatuses then StreamError.statusBytes message else none

def readStatus (bytes : List UInt8) : Option GeyserMessage :=
  twoStatuses.find? fun message => writeStatus message = some bytes

theorem roundTrips_status : RoundTrips writeStatus readStatus := by
  intro message payload h
  rw [writeStatus] at h
  split at h
  next hmem =>
    rcases List.mem_pair.1 hmem with rfl | rfl <;> obtain rfl := Option.some.inj h <;> decide
  next => cases h

/-- A publisher gets a message and appends it. -/
def publish (number : ℕ) (message : GeyserMessage) (now trimmed : ℕ) : List RelayEvent :=
  [.publisher number (.sent (.ok message)) now 0, .publisher number .taken now 0,
    .publisher number .taken now 0, .publisher number .accepted now trimmed]

/-- Two publishers append a status, and one of them the next. -/
def bothPublish : List RelayEvent :=
  publish 0 (.status 5 .processed) 10 0 ++ [.polled] ++
    publish 1 (.status 5 .processed) 10 0 ++ publish 0 (.status 5 .confirmed) 11 0 ++ [.polled]

theorem stream_delivers_bothPublish :
    ∃ relay, runRelay StreamError.localConfig writeStatus readStatus 2 bothPublish = .ok relay ∧
      relay.delivered.Sublist relay.stream.entries ∧
      relay.consumer.tx = (twoStatuses.map .ok : List (Except String GeyserMessage)) := by
  have hview : (runRelay StreamError.localConfig writeStatus readStatus 2 bothPublish).toOption.map
      (fun relay => messagesIn readStatus relay.delivered) =
        some [.status 5 .processed, .status 5 .processed, .status 5 .confirmed] := by
    decide +kernel
  obtain ⟨relay, hrun, hview⟩ := exists_ok_of_view hview
  obtain ⟨-, hdelivered, -, htx, -⟩ := stream_delivers roundTrips_status hrun
  refine ⟨relay, hrun, hdelivered, ?_⟩
  rw [htx, hview]
  decide

/-! ## Nothing is lost -/

/-- A poll would return something, but not the next entry: that one is trimmed. -/
def Relay.Outrun (relay : Relay) : Prop :=
  relay.stream.read 5 relay.reader.cursor ≠ [] ∧
    ∃ entry ∈ relay.stream.entries.take relay.stream.trimmed, relay.reader.cursor < entry.1

/-- At some poll the consumer was outrun. -/
def PolledOutrun (config : ConfigRedisPublisher)
    (serialize : GeyserMessage → Option (List UInt8))
    (deserialize : List UInt8 → Option GeyserMessage) (publishers : ℕ)
    (events : List RelayEvent) : Prop :=
  ∃ before after middle, events = before ++ .polled :: after ∧
    runRelay config serialize deserialize publishers before = .ok middle ∧ middle.Outrun

theorem polledOutrun_concat_iff
    (hrun : runRelay config serialize deserialize publishers events = .ok relay)
    (event : RelayEvent) :
    PolledOutrun config serialize deserialize publishers (events ++ [event]) ↔
      PolledOutrun config serialize deserialize publishers events ∨
        event = .polled ∧ relay.Outrun := by
  constructor
  · rintro ⟨before, after, middle, hsplit, hmiddle, houtrun⟩
    rcases concat_eq_append_cons_iff.1 hsplit with ⟨rfl, rfl, -⟩ | ⟨front, rfl, -⟩
    · obtain rfl := Except.ok.inj (hrun.symm.trans hmiddle)
      exact Or.inr ⟨rfl, houtrun⟩
    · exact Or.inl ⟨before, front, middle, rfl, hmiddle, houtrun⟩
  · rintro (⟨before, after, middle, rfl, hmiddle, houtrun⟩ | ⟨rfl, houtrun⟩)
    · exact ⟨before, after ++ [event], middle, by simp, hmiddle, houtrun⟩
    · exact ⟨events, [], relay, rfl, hrun, houtrun⟩

/-- A poll loses something exactly if the consumer is outrun. -/
theorem lossless_polled_iff {position : ℕ}
    (hat : Reader.At relay.stream position relay.reader)
    (htrimmed : relay.stream.trimmed ≤ relay.stream.entries.length) :
    Reader.Lossless relay.stream (relay.readerAfter .polled) ↔
      Reader.Lossless relay.stream relay.reader ∧ ¬ relay.Outrun := by
  rw [Relay.Outrun, hat.exists_forgotten_iff htrimmed, not_and, not_not, Relay.readerAfter]
  by_cases hmore : relay.stream.read 5 relay.reader.cursor = []
  · rw [hmore, hat.take_nil.lossless_iff, hat.lossless_iff, Reader.take, List.append_nil]
    simp
  · rw [hat.lossless_take_iff hmore]
    exact and_congr_right fun _ => ⟨fun h _ => h, fun h => h hmore⟩

theorem lossless_iff_of_run (hcodec : RoundTrips serialize deserialize)
    (hrun : runRelay config serialize deserialize publishers events = .ok relay) :
    Reader.Lossless relay.stream relay.reader ↔
      ¬ PolledOutrun config serialize deserialize publishers events := by
  refine run_invariant_of_reached (fun events (relay : Relay) =>
    Reader.Lossless relay.stream relay.reader ↔
      ¬ PolledOutrun config serialize deserialize publishers events) ?_ ?_ hrun
  · refine iff_of_true (fun entry hentry => nomatch hentry) ?_
    rintro ⟨before, after, middle, hsplit, -⟩
    exact absurd hsplit (by simp)
  · intro before relay event next hbefore hlossless hstep
    obtain ⟨position, hfed, hat⟩ := served_of_run hcodec hbefore
    obtain ⟨position', -, hat'⟩ :=
      served_of_run hcodec ((run_concat_of_ok hbefore event).trans hstep)
    obtain ⟨-, hreader⟩ := reader_of_relayed hcodec hbefore hfed hstep
    have htrimmed := (retains_of_run hbefore).trimmed_le_length
    have hgrows := grows_of_step hbefore hstep
    rw [polledOutrun_concat_iff hbefore, not_or, ← hlossless, hreader]
    cases event with
    | polled =>
        have hstream : next.stream = relay.stream := by
          cases relayed_of_step hstep
          rfl
        rw [hstream, lossless_polled_iff hat htrimmed]
        simp
    | publisher number event now trimmed =>
        change Reader.Lossless next.stream relay.reader ↔ _
        rw [hat.lossless_grow hgrows]
        exact (and_iff_left fun h => nomatch h.1).symm
    | pollFailed error =>
        change Reader.Lossless next.stream relay.reader ↔ _
        rw [hat.lossless_grow hgrows]
        exact (and_iff_left fun h => nomatch h.1).symm

/-- A consumer that is not further behind than the stream is long is not outrun. -/
theorem not_outrun_of_behind (hcodec : RoundTrips serialize deserialize)
    (hrun : runRelay config serialize deserialize publishers events = .ok relay)
    (hbehind : (relay.stream.entries.filter fun entry =>
      relay.reader.cursor < entry.1).length ≤ config.streamMaxlen.toNat) :
    ¬ relay.Outrun := by
  obtain ⟨position, -, hat⟩ := served_of_run hcodec hrun
  have hretains := retains_of_run hrun
  rintro ⟨-, hforgotten⟩
  refine (hat.exists_forgotten_iff hretains.trimmed_le_length).1 hforgotten
    (hretains.trimmed_le ?_)
  change (Reader.unread relay.stream relay.reader).length ≤ _ at hbehind
  rw [hat.unread_eq, List.length_drop] at hbehind
  omega

/-- **When nothing is lost.**  The consumer has got every entry up to its latest id if and
only if it was outrun at none of its polls; and it never is if it is never further
behind than `stream_maxlen` entries. -/
theorem nothing_lost_iff (hcodec : RoundTrips serialize deserialize)
    (hrun : runRelay config serialize deserialize publishers events = .ok relay) :
    (Reader.Lossless relay.stream relay.reader ↔
      ¬ PolledOutrun config serialize deserialize publishers events) ∧
    ((∀ before after middle, events = before ++ .polled :: after →
      runRelay config serialize deserialize publishers before = .ok middle →
        (middle.stream.entries.filter fun entry =>
          middle.reader.cursor < entry.1).length ≤ config.streamMaxlen.toNat) →
      Reader.Lossless relay.stream relay.reader) := by
  refine ⟨lossless_iff_of_run hcodec hrun, fun hbehind => ?_⟩
  rw [lossless_iff_of_run hcodec hrun]
  rintro ⟨before, after, middle, hsplit, hmiddle, houtrun⟩
  exact not_outrun_of_behind hcodec hmiddle (hbehind before after middle hsplit hmiddle)
    houtrun

/-- A publisher that lets the stream hold one entry. -/
def shortConfig : ConfigRedisPublisher :=
  { StreamError.localConfig with streamMaxlen := 1 }

/-- The first status is trimmed before the consumer polls. -/
def polledLate : List RelayEvent :=
  publish 0 (.status 5 .processed) 10 0 ++ publish 0 (.status 5 .confirmed) 11 1

theorem nothing_lost_iff_polledLate :
    ∃ relay, runRelay shortConfig writeStatus readStatus 1 (polledLate ++ [.polled]) =
        .ok relay ∧ ¬ Reader.Lossless relay.stream relay.reader := by
  have hbefore : (runRelay shortConfig writeStatus readStatus 1 polledLate).toOption.map
      (fun relay => (relay.stream.read 5 relay.reader.cursor).isEmpty ||
        !(relay.stream.entries.take relay.stream.trimmed).any fun entry =>
          relay.reader.cursor < entry.1) = some false := by
    decide +kernel
  have hafter : (runRelay shortConfig writeStatus readStatus 1
      (polledLate ++ [.polled])).toOption.map (fun relay => relay.consumer.running) =
        some true := by
    decide +kernel
  obtain ⟨middle, hmiddle, houtrun⟩ := exists_ok_of_view hbefore
  obtain ⟨relay, hrun, -⟩ := exists_ok_of_view hafter
  refine ⟨relay, hrun, fun hlossless => ?_⟩
  refine (nothing_lost_iff roundTrips_status hrun).1.1 hlossless
    ⟨polledLate, [], middle, rfl, hmiddle, ?_⟩
  rw [Bool.or_eq_false_iff, Bool.not_eq_false', List.any_eq_true] at houtrun
  obtain ⟨hmore, entry, hentry, hforgotten⟩ := houtrun
  refine ⟨fun hnone => ?_, entry, hentry, of_decide_eq_true hforgotten⟩
  rw [hnone] at hmore
  cases hmore

end Solfees.Transport
