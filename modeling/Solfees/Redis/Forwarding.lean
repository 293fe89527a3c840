import Solfees.Redis.Subscribe

/-!
# What the consumer forwards

The consumer decides with a tip and a bounded cache.  As long as a slot comes
back before the cache has dropped it, the decision is a function of the history
alone: the first message of its kind for a slot not below any finalized one.
-/

namespace Solfees.Forwarding

open Solfees.Message
open Solfees.Recency
open Solfees.Run
open Solfees.Subscribe

/-- The slot and the kind of a message; a block has no commitment. -/
def kindOf (message : GeyserMessage) : Slot × Option CommitmentLevel :=
  (message.slotOf, message.commitmentOf)

/-- The message arrives at or above the greatest finalized slot so far. -/
def atTip (before : List GeyserMessage) (message : GeyserMessage) : Bool :=
  (finalizedSlots before).all fun finalized => decide (finalized ≤ message.slotOf)

/-- The message is at the tip, and the first of its slot and kind. -/
def keep (before : List GeyserMessage) (message : GeyserMessage) : Bool :=
  atTip before message && decide (kindOf message ∉ before.map kindOf)

/-- The slots of the messages that arrived at the tip. -/
def arrivedSlots (messages : List GeyserMessage) : List Slot :=
  (select atTip messages).map GeyserMessage.slotOf

/-- A message at the tip whose slot arrived before comes after fewer than 8192
other slots. -/
def spaced (before : List GeyserMessage) (message : GeyserMessage) : Prop :=
  atTip before message = true →
    ∀ front since, arrivedSlots before = front ++ message.slotOf :: since →
      message.slotOf ∉ since → since.toFinset.card < lruCapacity

/-! ## The history -/

theorem atTip_iff {before : List GeyserMessage} {message : GeyserMessage} :
    atTip before message = true ↔
      ∀ finalized ∈ finalizedSlots before, finalized ≤ message.slotOf := by
  simp [atTip]

/-- An arrival at the tip stays one when part of the past is left out. -/
theorem atTip_of_subset {before before' : List GeyserMessage}
    {message message' : GeyserMessage} (hsub : before ⊆ before')
    (hslot : message.slotOf = message'.slotOf) (h : atTip before' message' = true) :
    atTip before message = true := by
  rw [atTip_iff] at h ⊢
  intro finalized hfinalized
  rw [hslot]
  rw [mem_finalizedSlots] at hfinalized
  exact h finalized (mem_finalizedSlots.2 (hsub hfinalized))

theorem arrivedSlots_concat (before : List GeyserMessage) (message : GeyserMessage) :
    arrivedSlots (before ++ [message]) =
      arrivedSlots before ++ if atTip before message then [message.slotOf] else [] := by
  rw [arrivedSlots, select_concat, List.map_append, ← arrivedSlots]
  split <;> rfl

/-- For a message at the tip, an earlier one of its kind was at the tip too. -/
theorem kindOf_mem_arrived_iff {before : List GeyserMessage}
    {message : GeyserMessage} (htip : atTip before message = true) :
    kindOf message ∈ (select atTip before).map kindOf ↔
      kindOf message ∈ before.map kindOf := by
  simp only [List.mem_map]
  constructor
  · rintro ⟨earlier, hearlier, hkind⟩
    exact ⟨earlier, (select_sublist atTip before).subset hearlier, hkind⟩
  · rintro ⟨earlier, hearlier, hkind⟩
    refine ⟨earlier, (mem_select atTip).2 ?_, hkind⟩
    obtain ⟨front, back, rfl⟩ := List.append_of_mem hearlier
    exact ⟨front, back, rfl, atTip_of_subset (List.subset_append_left _ _)
      (congrArg Prod.fst hkind) htip⟩

/-! ## The invariant of the consumer -/

/-- The flags of a slot after the given arrivals. -/
def seenIn (arrived : List GeyserMessage) (slot : Slot) : SeenSlot where
  slot := decide ((slot, none) ∈ arrived.map kindOf)
  processed := decide ((slot, some .processed) ∈ arrived.map kindOf)
  confirmed := decide ((slot, some .confirmed) ∈ arrived.map kindOf)
  finalized := decide ((slot, some .finalized) ∈ arrived.map kindOf)

theorem seen_seenIn (arrived : List GeyserMessage) (slot : Slot)
    (commitment : Option CommitmentLevel) :
    (seenIn arrived slot).seen commitment =
      decide ((slot, commitment) ∈ arrived.map kindOf) := by
  rcases commitment with _ | (_ | _ | _) <;> rfl

theorem seenIn_eq_fresh {arrived : List GeyserMessage} {slot : Slot}
    (h : slot ∉ arrived.map GeyserMessage.slotOf) :
    seenIn arrived slot = .fresh := by
  have hkind (commitment : Option CommitmentLevel) :
      (slot, commitment) ∉ arrived.map kindOf := by
    rw [List.mem_map]
    rintro ⟨message, hmem, hmessage⟩
    exact h (List.mem_map.2 ⟨message, hmem, congrArg Prod.fst hmessage⟩)
  simp [seenIn, SeenSlot.fresh, hkind]

/-- One more arrival sets one flag. -/
theorem seenIn_concat (arrived : List GeyserMessage) (message : GeyserMessage) :
    seenIn (arrived ++ [message]) =
      Function.update (seenIn arrived) message.slotOf
        ((seenIn arrived message.slotOf).markSeen message.commitmentOf) := by
  funext slot
  by_cases hslot : slot = message.slotOf
  · subst hslot
    rw [Function.update_self]
    cases hkind : message.commitmentOf with
    | none => simp [seenIn, SeenSlot.markSeen, kindOf, hkind]
    | some commitment =>
        cases commitment <;> simp [seenIn, SeenSlot.markSeen, kindOf, hkind]
  · rw [Function.update_of_ne hslot]
    simp [seenIn, kindOf, hslot]

/-- The tip after a message. -/
theorem lt_tip_concat_iff {before : List GeyserMessage} {tip : Slot}
    (h : ∀ slot, slot < tip ↔ ∃ finalized ∈ finalizedSlots before, slot < finalized)
    (message : GeyserMessage) (slot : Slot) :
    slot < (if message.commitmentOf = some .finalized
        then max tip message.slotOf else tip) ↔
      ∃ finalized ∈ finalizedSlots (before ++ [message]), slot < finalized := by
  rw [finalizedSlots_concat]
  by_cases hmessage : message.commitmentOf = some .finalized
  · rw [if_pos hmessage, if_pos hmessage, lt_max_iff, h]
    simp only [List.mem_append, List.mem_singleton, or_and_right, exists_or,
      exists_eq_left]
  · rw [if_neg hmessage, if_neg hmessage, List.append_nil, h]

/-- The consumer after the messages `before`: its tip is the greatest finalized
slot, and its cache the most recent arrivals. -/
structure Remembers (before : List GeyserMessage) (state : Deduplication) :
    Prop where
  tip : ∀ slot, slot < state.finalizedSlotTip ↔
    ∃ finalized ∈ finalizedSlots before, slot < finalized
  cache : Tracks state.lru (recency (arrivedSlots before))
    (seenIn (select atTip before))

namespace Remembers

variable {before : List GeyserMessage} {state : Deduplication}

theorem init : Remembers [] .init where
  tip slot := by simp [Deduplication.init, finalizedSlots]
  cache := tracks_empty _

theorem lt_tip_iff (h : Remembers before state) (message : GeyserMessage) :
    message.slotOf < state.finalizedSlotTip ↔ atTip before message = false := by
  rw [h.tip, ← Bool.not_eq_true, atTip_iff]
  simp only [not_forall, not_le, exists_prop]

/-- The cache still knows what it saw of the slot. -/
theorem peek_getD (h : Remembers before state) {message : GeyserMessage}
    (htip : atTip before message = true) (hspaced : spaced before message) :
    (state.lru.peek message.slotOf).getD .fresh =
      seenIn (select atTip before) message.slotOf := by
  apply h.cache.peek_getD
  · intro hrecent
    rw [mem_recency] at hrecent
    obtain ⟨front, since, hsplit, hsince⟩ := exists_last_use hrecent
    rw [hsplit]
    exact mem_take_recency hsince (hspaced htip front since hsplit hsince)
  · intro hrecent
    rw [mem_recency] at hrecent
    exact seenIn_eq_fresh hrecent

/-- One message: the consumer forwards what the history says, and remembers
it. -/
theorem step (h : Remembers before state) {message : GeyserMessage}
    (hspaced : spaced before message) :
    (state.deduplicate message).2 =
        (if keep before message then some message else none) ∧
      Remembers (before ++ [message]) (state.deduplicate message).1 := by
  cases htip : atTip before message with
  | false =>
      have hlow := (h.lt_tip_iff message).2 htip
      rw [Deduplication.deduplicate, if_pos hlow]
      refine ⟨by simp [keep, htip], fun slot => ?_, ?_⟩
      · rw [← lt_tip_concat_iff h.tip, max_eq_left hlow.le, ite_self]
      · rw [arrivedSlots_concat, select_concat, htip]
        simpa using h.cache
  | true =>
      have hlow : ¬ message.slotOf < state.finalizedSlotTip := by
        rw [h.lt_tip_iff, htip]
        exact Bool.true_eq_false.mp
      have hread := h.peek_getD htip hspaced
      rw [Deduplication.deduplicate, if_neg hlow]
      simp only [hread, seen_seenIn]
      refine ⟨?_, fun slot => ?_, ?_⟩
      · have hkind := kindOf_mem_arrived_iff htip
        by_cases hseen : kindOf message ∈ before.map kindOf
        · rw [if_pos (by simpa [kindOf] using hkind.2 hseen)]
          simp [keep, hseen]
        · rw [if_neg (by simpa [kindOf] using mt hkind.1 hseen)]
          simp [keep, htip, hseen]
      · rw [← lt_tip_concat_iff h.tip, max_eq_right (not_lt.1 hlow)]
      · rw [arrivedSlots_concat, select_concat, htip, if_pos rfl, if_pos rfl,
          recency_concat, seenIn_concat]
        exact h.cache.getOrInsertMut (nodup_recency _) _ hread

end Remembers

/-- The decisions of the consumer on a spaced sequence. -/
theorem outputs_deduplicate {messages : List GeyserMessage}
    (hspaced : Admitted spaced messages) :
    outputs Deduplication.deduplicate .init messages = select keep messages :=
  outputs_eq_select keep Remembers.init
    (fun _ _ _ hadmitted h => h.step hadmitted.last) hspaced

/-- Few slots in all are always spaced. -/
theorem spaced_of_few {messages : List GeyserMessage}
    (hfew : (messages.map GeyserMessage.slotOf).toFinset.card ≤ lruCapacity) :
    Admitted spaced messages := by
  intro before message after hsplit _ front since harrived hsince
  have hsub : since.toFinset ⊆
      (messages.map GeyserMessage.slotOf).toFinset.erase message.slotOf := by
    intro slot hslot
    rw [List.mem_toFinset] at hslot
    have harrivedSlot : slot ∈ arrivedSlots before := by
      rw [harrived]
      simp [hslot]
    rw [Finset.mem_erase, List.mem_toFinset, hsplit]
    refine ⟨fun heq => hsince (heq ▸ hslot), ?_⟩
    rw [List.map_append, List.mem_append]
    exact Or.inl (((select_sublist atTip before).map _).subset harrivedSlot)
  have hmem : message.slotOf ∈ (messages.map GeyserMessage.slotOf).toFinset := by
    simp [hsplit]
  calc since.toFinset.card
      ≤ ((messages.map GeyserMessage.slotOf).toFinset.erase message.slotOf).card :=
        Finset.card_le_card hsub
    _ < (messages.map GeyserMessage.slotOf).toFinset.card :=
        Finset.card_erase_lt_of_mem hmem
    _ ≤ lruCapacity := hfew

/-! ## The loop of the consumer -/

section Loop

variable {streamFieldKey : String} {deserialize : List UInt8 → Option GeyserMessage}

theorem onStreamId_decodes {consumer : Consumer} (hrunning : consumer.running = true)
    {streamId : StreamId} {message : GeyserMessage}
    (hdecodes : Decodes streamFieldKey deserialize streamId message) :
    consumer.onStreamId streamFieldKey deserialize streamId = {
      deduplication := (consumer.deduplication.deduplicate message).1
      latestId := streamId.id
      running := true
      tx := consumer.tx ++
        (consumer.deduplication.deduplicate message).2.toList.map .ok } := by
  obtain ⟨payload, hlookup, hmessage⟩ := hdecodes
  simp [Consumer.onStreamId, hrunning, hlookup, hmessage]

/-- A batch of decodable entries goes through the deduplication in order. -/
theorem foldl_onStreamId {ids : List StreamId} {received : List GeyserMessage}
    (hids : List.Forall₂ (Decodes streamFieldKey deserialize) ids received)
    (consumer : Consumer) (hrunning : consumer.running = true) :
    ∃ latestId,
      ids.foldl (Consumer.onStreamId streamFieldKey deserialize) consumer = {
        deduplication := stateAfter Deduplication.deduplicate
          consumer.deduplication received
        latestId := latestId
        running := true
        tx := consumer.tx ++ (outputs Deduplication.deduplicate
          consumer.deduplication received).map .ok } := by
  induction hids generalizing consumer with
  | nil =>
      refine ⟨consumer.latestId, ?_⟩
      simp [stateAfter, outputs, ← hrunning]
  | cons hdecodes _ ih =>
      have hfirst := onStreamId_decodes hrunning hdecodes
      obtain ⟨latestId, hrest⟩ :=
        ih (consumer.onStreamId streamFieldKey deserialize _) (by rw [hfirst])
      refine ⟨latestId, ?_⟩
      rw [List.foldl_cons, hrest, hfirst]
      simp [stateAfter, outputs]

/-- Replies that carry messages: the task keeps running and sends what the
deduplication lets through. -/
theorem foldl_onReply {replies : List XreadReply} {messages : List GeyserMessage}
    (hcarries : Carries streamFieldKey deserialize replies messages)
    (consumer : Consumer) (hrunning : consumer.running = true) :
    (replies.foldl (Consumer.onReply streamFieldKey deserialize) consumer).tx =
      consumer.tx ++ (outputs Deduplication.deduplicate
        consumer.deduplication messages).map .ok := by
  induction hcarries generalizing consumer with
  | done => simp [outputs]
  | idle _ ih =>
      rw [List.foldl_cons, Consumer.onReply, if_pos hrunning]
      exact ih consumer hrunning
  | batch hids _ ih =>
      obtain ⟨latestId, hbatch⟩ := foldl_onStreamId hids consumer hrunning
      rw [List.foldl_cons, Consumer.onReply, if_pos hrunning]
      simp only [List.getLast?_singleton, hbatch]
      rw [ih _ rfl, outputs_append]
      simp

/-- What `subscribe` sends for a stream of decodable, spaced messages. -/
theorem subscribe_tx {messages : List GeyserMessage}
    (hspaced : Admitted spaced messages) {replies : List XreadReply}
    (hcarries : Carries streamFieldKey deserialize replies messages) :
    (Consumer.subscribe streamFieldKey deserialize replies).tx =
      (select keep messages).map .ok := by
  rw [Consumer.subscribe, foldl_onReply hcarries .init rfl]
  rw [Consumer.init, outputs_deduplicate hspaced]
  exact List.nil_append _

end Loop

/-! ## What the forwarded messages are -/

theorem keep_iff {before : List GeyserMessage} {message : GeyserMessage} :
    keep before message = true ↔
      atTip before message = true ∧ kindOf message ∉ before.map kindOf := by
  rw [keep, Bool.and_eq_true, decide_eq_true_eq]

theorem kindOf_mem_of_select {messages : List GeyserMessage}
    {kind : Slot × Option CommitmentLevel}
    (h : kind ∈ (select keep messages).map kindOf) :
    kind ∈ messages.map kindOf :=
  ((select_sublist keep messages).map kindOf).subset h

/-- No slot and kind is forwarded twice. -/
theorem nodup_forwarded (messages : List GeyserMessage) :
    ((select keep messages).map kindOf).Nodup := by
  induction messages using List.reverseRecOn with
  | nil => exact List.nodup_nil
  | append_singleton messages message ih =>
      rw [select_concat, List.map_append]
      split
      · rename_i hkeep
        have hnew := (keep_iff.1 hkeep).2
        rw [List.map_singleton, List.nodup_append]
        refine ⟨ih, List.nodup_singleton _, ?_⟩
        rintro kind hkind last hlast rfl
        rw [List.mem_singleton.1 hlast] at hkind
        exact hnew (kindOf_mem_of_select hkind)
      · simpa using ih

/-- A slot and kind that has arrived at the tip has been forwarded. -/
theorem forwarded_of_atTip {before : List GeyserMessage} {message : GeyserMessage}
    (htip : atTip before message = true)
    (hmem : kindOf message ∈ before.map kindOf) :
    kindOf message ∈ (select keep before).map kindOf := by
  induction before using List.reverseRecOn with
  | nil => simp at hmem
  | append_singleton before last ih =>
      rw [select_concat, List.map_append, List.mem_append]
      by_cases hbefore : kindOf message ∈ before.map kindOf
      · exact Or.inl (ih (atTip_of_subset (List.subset_append_left _ _) rfl htip) hbefore)
      · right
        have hlast : kindOf message = kindOf last := by
          simpa [hbefore] using hmem
        have hkeep : keep before last = true := by
          refine keep_iff.2 ⟨?_, hlast ▸ hbefore⟩
          exact atTip_of_subset (List.subset_append_left _ _)
            (congrArg Prod.fst hlast).symm htip
        simp [hkeep, hlast]

/-- The forwarded finalized slots go up. -/
theorem increasing_forwarded (messages : List GeyserMessage) :
    (finalizedSlots (select keep messages)).Pairwise (· < ·) := by
  induction messages using List.reverseRecOn with
  | nil => exact List.Pairwise.nil
  | append_singleton messages message ih =>
      rw [select_concat]
      split
      · rename_i hkeep
        obtain ⟨htip, hnew⟩ := keep_iff.1 hkeep
        rw [finalizedSlots_concat]
        split
        · rename_i hfinalized
          rw [List.pairwise_append]
          refine ⟨ih, List.pairwise_singleton _ _, ?_⟩
          intro earlier hearlier last hlast
          rw [List.mem_singleton.1 hlast]
          rw [mem_finalizedSlots] at hearlier
          have hmem := (select_sublist keep messages).subset hearlier
          refine lt_of_le_of_ne
            (atTip_iff.1 htip earlier (mem_finalizedSlots.2 hmem)) ?_
          rintro rfl
          refine hnew (List.mem_map.2 ⟨_, hmem, ?_⟩)
          rw [kindOf, kindOf, hfinalized]
          rfl
        · simpa using ih
      · simpa using ih

/-- What `subscribe` forwards is, in order, every message that is the first of
its slot and kind and not below a slot finalized before.  So nothing is
delivered twice, nothing at the tip is lost, and the finalized slots go up. -/
theorem subscribe_forwards_first_at_tip {messages : List GeyserMessage}
    (hspaced : Admitted spaced messages) {streamFieldKey : String}
    {deserialize : List UInt8 → Option GeyserMessage} {replies : List XreadReply}
    (hcarries : Carries streamFieldKey deserialize replies messages) :
    (Consumer.subscribe streamFieldKey deserialize replies).tx =
        (select keep messages).map .ok ∧
      ((select keep messages).map kindOf).Nodup ∧
      (∀ before message after, messages = before ++ message :: after →
        atTip before message = true →
        kindOf message ∈ (select keep (before ++ [message])).map kindOf) ∧
      (finalizedSlots (select keep messages)).Pairwise (· < ·) := by
  refine ⟨subscribe_tx hspaced hcarries, nodup_forwarded messages, ?_,
    increasing_forwarded messages⟩
  intro before message after _ htip
  rw [select_concat, List.map_append, List.mem_append]
  by_cases hmem : kindOf message ∈ before.map kindOf
  · exact Or.inl (forwarded_of_atTip htip hmem)
  · exact Or.inr (by simp [keep_iff.2 ⟨htip, hmem⟩])

/-! ## A small stream -/

/-- The numbering of messages that the streams below use as their payloads. -/
def sampleMessage : List UInt8 → Option GeyserMessage
  | [0] => some (.slot (.bare 5 4 1 1))
  | [1] => some (.status 5 .processed)
  | [2] => some (.status 6 .finalized)
  | _ => none

/-- A reply with one entry for each number. -/
def sampleReply (numbers : List UInt8) : XreadReply :=
  .ok [⟨"stream", numbers.map fun number =>
    ⟨"1-0", [("payload", .bulkString [number])]⟩⟩]

/-- A block and its repetition, a finalized slot, and a status below it: the block and the
finalized slot are forwarded, once each. -/
theorem subscribe_forwards_first_at_tip_sample :
    (Consumer.subscribe "payload" sampleMessage
        [sampleReply [0, 0], .ok [], sampleReply [2, 1]]).tx =
      [.ok (.slot (.bare 5 4 1 1)), .ok (.status 6 .finalized)] := by
  have hcarries : Carries "payload" sampleMessage
      [sampleReply [0, 0], .ok [], sampleReply [2, 1]]
      (([.slot (.bare 5 4 1 1), .slot (.bare 5 4 1 1)] : List GeyserMessage) ++
        (([.status 6 .finalized, .status 5 .processed] : List GeyserMessage) ++ [])) := by
    refine .batch ?_ (.idle (.batch ?_ .done)) <;>
      simp [Decodes, sampleMessage, List.lookup]
  have hselect : select keep (([.slot (.bare 5 4 1 1), .slot (.bare 5 4 1 1)] :
      List GeyserMessage) ++ ([.status 6 .finalized, .status 5 .processed] ++ [])) =
        [.slot (.bare 5 4 1 1), .status 6 .finalized] := by
    decide
  rw [(subscribe_forwards_first_at_tip (spaced_of_few (by decide)) hcarries).1, hselect]
  rfl

end Solfees.Forwarding
