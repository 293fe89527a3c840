import Solfees.Core.Recency
import Solfees.Core.Run
import Solfees.Geyser.Message

/-!
# The Redis consumer

`redis::subscribe` reads the stream in batches, decodes each payload, and drops
what it has already forwarded: a message below the finalized tip, or a second
message of one kind for a slot still in the LRU cache.
-/

namespace Solfees.Subscribe

open Solfees.Message
open Solfees.Recency

def lruCapacity : ℕ := 8192

structure SeenSlot where
  slot : Bool
  processed : Bool
  confirmed : Bool
  finalized : Bool
  deriving DecidableEq, Repr

namespace SeenSlot

/-- `SeenSlot::default`. -/
def fresh : SeenSlot := ⟨false, false, false, false⟩

/-- The flag of a kind of message; a block has no commitment. -/
def seen (entry : SeenSlot) : Option CommitmentLevel → Bool
  | some .processed => entry.processed
  | some .confirmed => entry.confirmed
  | some .finalized => entry.finalized
  | none => entry.slot

/-- `*seen = true`. -/
def markSeen (entry : SeenSlot) : Option CommitmentLevel → SeenSlot
  | some .processed => { entry with processed := true }
  | some .confirmed => { entry with confirmed := true }
  | some .finalized => { entry with finalized := true }
  | none => { entry with slot := true }

end SeenSlot

/-- The variables of `subscribe` that decide on a message. -/
structure Deduplication where
  finalizedSlotTip : Slot
  lru : LruCache lruCapacity Slot SeenSlot

namespace Deduplication

def init : Deduplication where
  finalizedSlotTip := 0
  lru := .empty

/-- The deduplication block of `subscribe`: the message is forwarded, or the
loop continues with the next one.  Marking a flag that is set writes nothing
new, so the mark is made in both cases. -/
def deduplicate (state : Deduplication) (message : GeyserMessage) :
    Deduplication × Option GeyserMessage :=
  let slot := message.slotOf
  let commitment := message.commitmentOf
  if slot < state.finalizedSlotTip then (state, none)
  else
    let finalizedSlotTip :=
      if commitment = some .finalized then slot else state.finalizedSlotTip
    let entry := (state.lru.peek slot).getD .fresh
    let lru := state.lru.getOrInsertMut slot .fresh (·.markSeen commitment)
    (⟨finalizedSlotTip, lru⟩, if entry.seen commitment then none else some message)

end Deduplication

/-! ## The loop over the replies of `XREAD` -/

inductive RedisValue
  | bulkString (payload : List UInt8)
  | other
  deriving DecidableEq, Repr

structure StreamId where
  id : String
  map : List (String × RedisValue)
  deriving DecidableEq, Repr

structure StreamKey where
  key : String
  ids : List StreamId
  deriving DecidableEq, Repr

/-- What one `XREAD` returns: the stream keys, or the text of an error. -/
abbrev XreadReply := Except String (List StreamKey)

/-- The state of the task that `subscribe` spawns; `tx` holds what it has sent.
The receiver stays open. -/
structure Consumer where
  deduplication : Deduplication
  latestId : String
  running : Bool
  tx : List (Except String GeyserMessage)

namespace Consumer

def init : Consumer where
  deduplication := .init
  latestId := "0"
  running := true
  tx := []

section Loop

variable (streamFieldKey : String)
  (deserialize : List UInt8 → Option GeyserMessage)

/-- One entry of the stream. -/
def onStreamId (consumer : Consumer) (streamId : StreamId) : Consumer :=
  if consumer.running then
    let consumer := { consumer with latestId := streamId.id }
    match streamId.map.lookup streamFieldKey with
    | some (.bulkString payload) =>
        match deserialize payload with
        | some message =>
            let next := consumer.deduplication.deduplicate message
            { consumer with
              deduplication := next.1
              tx := consumer.tx ++ next.2.toList.map .ok }
        | none =>
            { consumer with
              tx := consumer.tx ++ [.error "failed to decode payload"] }
    | _ =>
        { consumer with
          running := false
          tx := consumer.tx ++ [.error "failed to get payload from StreamId"] }
  else consumer

/-- One turn of the loop: only the last stream key of a reply is read. -/
def onReply (consumer : Consumer) (reply : XreadReply) : Consumer :=
  if consumer.running then
    match reply with
    | .error error =>
        { consumer with
          running := false
          tx := consumer.tx ++ [.error error] }
    | .ok streamKeys =>
        match streamKeys.getLast? with
        | none => consumer
        | some streamKey =>
            streamKey.ids.foldl (onStreamId streamFieldKey deserialize) consumer
  else consumer

/-- The task after it has received the replies. -/
def subscribe (replies : List XreadReply) : Consumer :=
  replies.foldl (onReply streamFieldKey deserialize) init

end Loop

end Consumer

/-! ## Replies that carry a sequence of messages -/

section Carries

variable (streamFieldKey : String)
  (deserialize : List UInt8 → Option GeyserMessage)

/-- The payload of an entry decodes to a message. -/
def Decodes (streamId : StreamId) (message : GeyserMessage) : Prop :=
  ∃ payload, streamId.map.lookup streamFieldKey = some (.bulkString payload) ∧
    deserialize payload = some message

/-- The replies deliver the messages in order, in batches of any size, some
polls finding nothing. -/
inductive Carries : List XreadReply → List GeyserMessage → Prop
  | done : Carries [] []
  | idle {replies : List XreadReply} {messages : List GeyserMessage}
      (hrest : Carries replies messages) : Carries (.ok [] :: replies) messages
  | batch {replies : List XreadReply} {messages : List GeyserMessage}
      {streamKey : StreamKey} {received : List GeyserMessage}
      (hids : List.Forall₂ (Decodes streamFieldKey deserialize) streamKey.ids received)
      (hrest : Carries replies messages) :
      Carries (.ok [streamKey] :: replies) (received ++ messages)

end Carries

end Solfees.Subscribe
