import Solfees.Core.Interleaving
import Solfees.Redis.Forwarding

/-!
# Redundant publishers

Several publishers may append the same messages to one stream, some of them
stopping early.  What the consumer forwards depends on the past only through
the messages that occurred in it, so the repetitions change nothing.
-/

namespace Solfees.Publishers

open Solfees.Forwarding
open Solfees.Interleaving
open Solfees.Message
open Solfees.Run
open Solfees.Subscribe

/-- The decision on a message reads from the past only what occurred in it. -/
theorem keep_congr {past past' : List GeyserMessage} (message : GeyserMessage)
    (hsame : ∀ earlier, earlier ∈ past ↔ earlier ∈ past') :
    keep past message = keep past' message := by
  have hkinds (kind : Slot × Option CommitmentLevel) :
      kind ∈ past.map kindOf ↔ kind ∈ past'.map kindOf := by
    simp only [List.mem_map, hsame]
  rw [Bool.eq_iff_iff, keep_iff, keep_iff, atTip_iff, atTip_iff, hkinds]
  simp only [mem_finalizedSlots, hsame]

theorem keep_of_mem {past : List GeyserMessage} {message : GeyserMessage}
    (h : message ∈ past) : keep past message = false := by
  rw [← Bool.not_eq_true, keep_iff]
  exact fun hkeep => hkeep.2 (List.mem_map_of_mem h)

/-- The consumer forwards from any interleaving of publishers, each appending
a front part of the messages and one of them all, what it forwards from the
messages alone. -/
theorem publishers_transparent {messages : List GeyserMessage}
    (hfew : (messages.map GeyserMessage.slotOf).toFinset.card ≤ lruCapacity)
    {publishers : List (List GeyserMessage)}
    (hfront : ∀ published ∈ publishers, published <+: messages)
    (hfull : messages ∈ publishers) {stream : List GeyserMessage}
    (hstream : Interleaves publishers stream) {streamFieldKey : String}
    {deserialize : List UInt8 → Option GeyserMessage}
    {replies alone : List XreadReply}
    (hreplies : Carries streamFieldKey deserialize replies stream)
    (halone : Carries streamFieldKey deserialize alone messages) :
    (Consumer.subscribe streamFieldKey deserialize replies).tx =
      (Consumer.subscribe streamFieldKey deserialize alone).tx := by
  have hstutters := stutters_of_interleaves hfront hfull hstream
  have hslots : (stream.map GeyserMessage.slotOf).toFinset ⊆
      (messages.map GeyserMessage.slotOf).toFinset := by
    intro slot hslot
    rw [List.mem_toFinset, List.mem_map] at hslot ⊢
    obtain ⟨message, hmessage, heq⟩ := hslot
    exact ⟨message, (hstutters.mem_log hmessage).resolve_left List.not_mem_nil, heq⟩
  have hstreamFew := (Finset.card_le_card hslots).trans hfew
  rw [subscribe_tx (spaced_of_few hstreamFew) hreplies,
    subscribe_tx (spaced_of_few hfew) halone]
  congr 1
  exact select_of_interleaves (fun _ _ message hsame => keep_congr message hsame)
    (fun _ _ => keep_of_mem) hfront hfull hstream

/-- A block and its status from one publisher, the block again from a second
one that stops there. -/
theorem publishers_transparent_sample :
    (Consumer.subscribe "payload" sampleMessage [sampleReply [0, 0, 1]]).tx =
      (Consumer.subscribe "payload" sampleMessage [sampleReply [0, 1]]).tx := by
  have hstream : Interleaves (A := GeyserMessage)
      [[.slot (.bare 5 4 1 1), .status 5 .processed], [.slot (.bare 5 4 1 1)]]
      [.slot (.bare 5 4 1 1), .slot (.bare 5 4 1 1), .status 5 .processed] :=
    .append 0 _ _ rfl (.append 1 _ _ rfl (.append 0 _ _ rfl (.done (by simp))))
  have hreplies : Carries "payload" sampleMessage [sampleReply [0, 0, 1]]
      ([.slot (.bare 5 4 1 1), .slot (.bare 5 4 1 1), .status 5 .processed] ++ []) :=
    .batch (by simp [Decodes, sampleMessage, List.lookup]) .done
  have halone : Carries "payload" sampleMessage [sampleReply [0, 1]]
      ([.slot (.bare 5 4 1 1), .status 5 .processed] ++ []) :=
    .batch (by simp [Decodes, sampleMessage, List.lookup]) .done
  exact publishers_transparent (by decide) (by decide) (by decide) hstream hreplies
    halone

end Solfees.Publishers
