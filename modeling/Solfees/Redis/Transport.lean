import Solfees.Core.TrimmedLog
import Solfees.Redis.StreamError
import Solfees.Redis.Subscribe

/-!
# The stream in Redis

Any number of publishers append to one stream, and the consumer polls it.  Redis gives
an entry an id after all others, forgets the oldest entries when `XADD` says so, and
answers `XREAD` with the first entries after an id.  The processes are configured with
one name for the stream and one for its field.
-/

namespace Solfees.Transport

open Solfees.Message
open Solfees.PublishLoop
open Solfees.Run
open Solfees.Subscribe
open Solfees.Trimming

/-- The milliseconds of an entry and a sequence number. -/
abbrev EntryId := ℕ ×ₗ ℕ

namespace EntryId

/-- The text of an id. -/
def render (id : EntryId) : String :=
  (ofLex id).1.repr ++ "-" ++ (ofLex id).2.repr

/-- The id that a command names; a sequence number that is missing is 0. -/
def parse (text : String) : EntryId :=
  let time := text.toList.takeWhile (· ≠ '-')
  let sequence := (text.toList.dropWhile (· ≠ '-')).drop 1
  toLex (Nat.ofDigitChars 10 time 0, Nat.ofDigitChars 10 sequence 0)

theorem parse_render (id : EntryId) : parse id.render = id := by
  obtain ⟨time, sequence⟩ := id
  have htime : ∀ char ∈ time.repr.toList, decide (char ≠ '-') = true := by
    intro char hchar
    rw [Nat.toList_repr] at hchar
    rw [decide_eq_true_iff]
    rintro rfl
    exact absurd (Nat.isDigit_of_mem_toDigits (by decide) (by decide) hchar) (by decide)
  have htext : (render (time, sequence)).toList =
      time.repr.toList ++ '-' :: sequence.repr.toList := by
    change (time.repr ++ "-" ++ sequence.repr).toList = _
    rw [String.toList_append, String.toList_append, List.append_assoc]
    rfl
  rw [parse, htext, List.takeWhile_append_of_pos htime, List.dropWhile_append_of_pos htime,
    List.takeWhile_cons_of_neg (by decide), List.dropWhile_cons_of_neg (by decide),
    List.append_nil, List.drop_one, List.tail_cons, Nat.toList_repr, Nat.toList_repr,
    Nat.ofDigitChars_toDigits (by decide) (by decide),
    Nat.ofDigitChars_toDigits (by decide) (by decide)]
  rfl

theorem parse_zero : parse "0" = ⊥ := rfl

/-- The id that `*` stands for: the time, or after the last one. -/
def next (now : ℕ) (last : EntryId) : EntryId :=
  if (ofLex last).1 < now then toLex (now, 0)
  else toLex ((ofLex last).1, (ofLex last).2 + 1)

theorem lt_next (now : ℕ) (last : EntryId) : last < next now last := by
  rw [next]
  split
  next htime => exact Prod.Lex.lt_iff.2 (Or.inl htime)
  next => exact Prod.Lex.lt_iff.2 (Or.inr ⟨rfl, Nat.lt_succ_self _⟩)

end EntryId

/-! ## Commands -/

abbrev RedisStream := TrimmedLog EntryId Xadd

/-- `XADD` without its trimming. -/
def add (now : ℕ) (stream : RedisStream) (command : Xadd) : RedisStream :=
  stream.push (EntryId.next now stream.lastId) command (EntryId.lt_next now stream.lastId)

/-- A transaction of `XADD`s, as the stream of this name sees it.  With `MAXLEN ~` Redis
decides how much it trims, but keeps as many entries as the commands say.  Nobody sees the
stream before the last of them. -/
def execute (streamKey : String) (stream : RedisStream) (now trimmed : ℕ)
    (pipe : List Xadd) : RedisStream :=
  let commands := pipe.filter fun command => command.streamKey = streamKey
  match (commands.map fun command => command.streamMaxlen.toNat).min? with
  | none => stream
  | some retained => (commands.foldl (add now) stream).trim trimmed retained

/-- `XREAD COUNT 5 STREAMS stream_key latest_id`. -/
def xread (stream : RedisStream) (latestId : String) : List (EntryId × Xadd) :=
  stream.read 5 (EntryId.parse latestId)

/-- An entry as `XREAD` returns it. -/
def streamId (entry : EntryId × Xadd) : StreamId where
  id := entry.1.render
  map := [(entry.2.streamFieldKey, .bulkString entry.2.payload)]

/-- The reply; a stream without new entries is not in it. -/
def xreadReply (streamKey : String) (entries : List (EntryId × Xadd)) : XreadReply :=
  .ok (if entries = [] then [] else [⟨streamKey, entries.map streamId⟩])

/-! ## The processes -/

/-- The publishers, the stream, what it has delivered to the consumer, and the
consumer. -/
structure Relay where
  publishers : List Publisher
  stream : RedisStream
  delivered : List (EntryId × Xadd)
  consumer : Consumer

/-- Something happens to a publisher, at a time and with so much to trim, or the consumer
gets the reply to a poll. -/
inductive RelayEvent
  | publisher (number : ℕ) (event : PublishLoop.Event) (now trimmed : ℕ)
  | polled
  | pollFailed (error : String)

/-- The commands that Redis runs at an event of a publisher. -/
def executed (publisher : Publisher) (event : PublishLoop.Event) : List Xadd :=
  match event, publisher.phase with
  | .accepted, .sending pipe => pipe
  | .rejected true, .sending pipe => pipe
  | _, _ => []

namespace Relay

/-- The publishers and the consumer start with an empty stream. -/
def init (publishers : ℕ) : Relay where
  publishers := List.replicate publishers .init
  stream := .empty
  delivered := []
  consumer := .init

variable (config : ConfigRedisPublisher) (serialize : GeyserMessage → Option (List UInt8))
  (deserialize : List UInt8 → Option GeyserMessage)

/-- The consumer gets a reply. -/
def onReply (relay : Relay) (entries : List (EntryId × Xadd)) (reply : XreadReply) :
    Relay :=
  { relay with
    delivered := relay.delivered ++ entries
    consumer := relay.consumer.onReply config.streamFieldKey deserialize reply }

/-- One step; what cannot happen is refused. -/
def step (relay : Relay) (event : RelayEvent) :
    Except RelayEvent Relay :=
  match event with
  | .publisher number publisherEvent now trimmed =>
      match relay.publishers[number]? with
      | none => .error event
      | some publisher =>
          match publisher.step config serialize publisherEvent with
          | .error _ => .error event
          | .ok next =>
              .ok { relay with
                publishers := relay.publishers.set number next
                stream := execute config.streamKey relay.stream now trimmed
                  (executed publisher publisherEvent) }
  | .polled =>
      if relay.consumer.running then
        let entries := xread relay.stream relay.consumer.latestId
        .ok (relay.onReply config deserialize entries
          (xreadReply config.streamKey entries))
      else .error event
  | .pollFailed error =>
      if relay.consumer.running then
        .ok (relay.onReply config deserialize [] (.error error))
      else .error event

end Relay

/-- The processes after the events. -/
def runRelay (config : ConfigRedisPublisher)
    (serialize : GeyserMessage → Option (List UInt8))
    (deserialize : List UInt8 → Option GeyserMessage) (publishers : ℕ)
    (events : List RelayEvent) : Except RelayEvent Relay :=
  run (Relay.step config serialize deserialize) (.init publishers) events

/-- The events of one publisher. -/
def eventsOf (number : ℕ) (events : List RelayEvent) : List PublishLoop.Event :=
  events.filterMap fun event =>
    match event with
    | .publisher other event _ _ => if other = number then some event else none
    | _ => none

/-- The messages that the gRPC stream of a publisher has sent it. -/
def sentTo (number : ℕ) (events : List RelayEvent) : List GeyserMessage :=
  (eventsOf number events).filterMap StreamError.messageOf

/-- The messages of entries. -/
def messagesIn (deserialize : List UInt8 → Option GeyserMessage)
    (entries : List (EntryId × Xadd)) : List GeyserMessage :=
  entries.filterMap fun entry => deserialize entry.2.payload

end Solfees.Transport
