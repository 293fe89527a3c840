import Solfees.Rpc.SlotOrder

/-!
# Nested commitment pointers

The levels of each slot arrive in order and the slots of each level go up, but
the block of a slot may arrive anywhere between its statuses.  A status whose
block is not there yet is dropped and never made up for, so a pointer follows
only the statuses that came after their block, and the three pointers are nested
exactly when each level is carried by such a status of the level below.
-/

namespace Solfees.NestedPointers

open Solfees.Draining
open Solfees.Eviction
open Solfees.Json
open Solfees.LatestBlockhash
open Solfees.Message
open Solfees.MessageJournal
open Solfees.Run
open Solfees.SlotOrder
open Solfees.UpdateLoop
open Solfees.WellOrdered

/-- Each slot has at most one block, at any point, and at most one status of each
level, in the order of the levels and none skipped; the slots of each level go
up. -/
def leveled (before : List GeyserMessage) : GeyserMessage → Prop
  | .slot block => ¬ HasBlock before block.slot
  | .status slot .processed => Above before .processed slot
  | .status slot .confirmed =>
      .status slot .processed ∈ before ∧ Above before .confirmed slot
  | .status slot .finalized =>
      .status slot .confirmed ∈ before ∧ Above before .finalized slot

/-- A status of the slot came after the block of the slot. -/
def Applied (messages : List GeyserMessage) (commitment : CommitmentLevel)
    (slot : Slot) : Prop :=
  ∃ before after, messages = before ++ .status slot commitment :: after ∧
    HasBlock before slot

/-- A confirmed or finalized status that comes after its block is carried by a
status of the level below, for its slot or a greater one, that came after its
own block. -/
def carried (before : List GeyserMessage) : GeyserMessage → Prop
  | .slot _ => True
  | .status _ .processed => True
  | .status slot .confirmed => HasBlock before slot → 0 < slot →
      ∃ other, slot ≤ other ∧ Applied before .processed other
  | .status slot .finalized => HasBlock before slot → 0 < slot →
      ∃ other, slot ≤ other ∧ Applied before .confirmed other

/-- The pointers are nested. -/
structure Nested (storage : LatestBlockhashStorage) : Prop where
  finalized : storage.slotFinalized ≤ storage.slotConfirmed
  confirmed : storage.slotConfirmed ≤ storage.slotProcessed

/-! ## Facts about the sequences alone -/

theorem above_of_leveled {before : List GeyserMessage} {slot : Slot}
    {commitment : CommitmentLevel} (h : leveled before (.status slot commitment)) :
    Above before commitment slot := by
  cases commitment with
  | processed => exact h
  | confirmed => exact h.2
  | finalized => exact h.2

/-- A finalized slot has been through every level. -/
theorem status_of_finalized {messages : List GeyserMessage}
    (h : Admitted leveled messages) {slot : Slot}
    (hmem : .status slot .finalized ∈ messages) (commitment : CommitmentLevel) :
    .status slot commitment ∈ messages := by
  obtain ⟨before, hpre, hconfirmed, -⟩ := exists_admitted h hmem
  have hconfirmed := hpre.subset hconfirmed
  cases commitment with
  | finalized => exact hmem
  | confirmed => exact hconfirmed
  | processed =>
      obtain ⟨before, hpre, hprocessed, -⟩ := exists_admitted h hconfirmed
      exact hpre.subset hprocessed

/-- No message reaches a slot that is finalized already. -/
theorem notMem_finalized_of_leveled {before : List GeyserMessage}
    {slot : Slot} {commitment : CommitmentLevel}
    (h : Admitted leveled (before ++ [GeyserMessage.status slot commitment])) :
    .status slot .finalized ∉ before := by
  intro hmem
  exact lt_irrefl slot (above_of_leveled h.last slot
    (status_of_finalized h.append_left hmem commitment))

theorem applied_concat_iff {before : List GeyserMessage} {message : GeyserMessage}
    {commitment : CommitmentLevel} {slot : Slot} :
    Applied (before ++ [message]) commitment slot ↔
      Applied before commitment slot ∨
        (message = .status slot commitment ∧ HasBlock before slot) := by
  constructor
  · rintro ⟨front, back, hsplit, hblock⟩
    rcases concat_eq_append_cons_iff.1 hsplit with ⟨rfl, rfl, -⟩ | ⟨rest, hrest, -⟩
    · exact Or.inr ⟨rfl, hblock⟩
    · exact Or.inl ⟨front, rest, hrest, hblock⟩
  · rintro (⟨front, back, rfl, hblock⟩ | ⟨rfl, hblock⟩)
    · exact ⟨front, back ++ [message], by simp, hblock⟩
    · exact ⟨before, [], rfl, hblock⟩

theorem Applied.mem {messages : List GeyserMessage} {commitment : CommitmentLevel}
    {slot : Slot} (h : Applied messages commitment slot) :
    .status slot commitment ∈ messages := by
  obtain ⟨before, after, rfl, -⟩ := h
  simp

/-! ## The store along such a sequence -/

/-- The store after the messages `before`: its counter is exact, and what has
been evicted lies below a finalized entry. -/
structure LeveledStore (before : List GeyserMessage)
    (storage : LatestBlockhashStorage) : Prop where
  bound : storage.finalizedTotal ≤ finalizedMax
  entries : storage.finalizedTotal = finalizedEntries storage
  block : ∀ slot ∈ storage.slots, HasBlock before slot
  finalized : ∀ slot value, storage.slots[slot]? = some value →
    value.commitment = .finalized → .status slot .finalized ∈ before
  evicted : ∀ slot, HasBlock before slot → slot ∉ storage.slots →
    ∃ kept value, storage.slots[kept]? = some value ∧
      value.commitment = .finalized ∧ slot < kept

namespace LeveledStore

variable {before : List GeyserMessage} {storage : LatestBlockhashStorage}

theorem empty : LeveledStore [] .empty where
  bound := Nat.zero_le _
  entries := by
    rw [finalizedEntries, LatestBlockhashStorage.empty, countWhere_empty]
  block slot h := by simp [LatestBlockhashStorage.empty] at h
  finalized slot value h := by simp [LatestBlockhashStorage.empty] at h
  evicted slot h := by simp [HasBlock] at h

/-- A slot without a finalized status has no finalized entry. -/
theorem hit_eq_zero (h : LeveledStore before storage) {slot : Slot}
    (hnot : .status slot .finalized ∉ before) :
    hit isFinalized storage.slots[slot]? = 0 := by
  cases hget : storage.slots[slot]? with
  | none => rfl
  | some value =>
      have hvalue : value.commitment ≠ .finalized :=
        fun hv => hnot (h.finalized slot value hget hv)
      simp [isFinalized, hvalue]

/-- A status finds its block exactly when the block came first. -/
theorem mem_iff_hasBlock (h : LeveledStore before storage) {slot : Slot}
    {commitment : CommitmentLevel}
    (hleveled : Admitted leveled (before ++ [GeyserMessage.status slot commitment])) :
    slot ∈ storage.slots ↔ HasBlock before slot := by
  refine ⟨h.block slot, fun hblock => ?_⟩
  by_contra hslot
  obtain ⟨kept, value, hget, hvalue, hlt⟩ := h.evicted slot hblock hslot
  have hkept := status_of_finalized hleveled.append_left
    (h.finalized kept value hget hvalue) commitment
  exact lt_asymm hlt (above_of_leveled hleveled.last kept hkept)

theorem push (h : LeveledStore before storage) {block : Block}
    (hnew : ¬ HasBlock before block.slot) :
    LeveledStore (before ++ [GeyserMessage.slot block])
      (storage.pushBlock block.slot block.height block.hash) := by
  have hslot : block.slot ∉ storage.slots := fun hmem => hnew (h.block _ hmem)
  refine ⟨h.bound, ?_, ?_, ?_, ?_⟩
  · have hpush := pushBlock_entries storage block.slot block.height block.hash
    rw [(notMem_iff _ _).1 hslot, hit_none, Nat.add_zero] at hpush
    rw [hpush]
    exact h.entries
  · intro slot hmem
    rw [hasBlock_concat_slot]
    rcases mem_insert.1 hmem with rfl | hmem
    · exact Or.inr rfl
    · exact Or.inl (h.block slot hmem)
  · intro slot value hget hvalue
    rw [status_mem_concat_slot]
    rcases getElem?_pushBlock hget with ⟨-, rfl⟩ | ⟨-, hget⟩
    · simp at hvalue
    · exact h.finalized slot value hget hvalue
  · intro slot hblock hnot
    rw [LatestBlockhashStorage.pushBlock, mem_insert, not_or] at hnot
    have hblock := (hasBlock_concat_slot.1 hblock).resolve_right (Ne.symm hnot.1)
    obtain ⟨kept, value, hget, hvalue, hlt⟩ := h.evicted slot hblock hnot.2
    refine ⟨kept, value, ?_, hvalue, hlt⟩
    rw [LatestBlockhashStorage.pushBlock, getElem?_insert, if_neg]
    · exact hget
    · rintro rfl
      exact hslot (mem_of_getElem? hget)

variable {target : Slot} {commitment : CommitmentLevel}

/-- Recording a status keeps the finalized entries and adds one at most. -/
theorem record_finalized (h : LeveledStore before storage) {slot : Slot}
    {value : LatestBlockhashSlot}
    (hget : (storage.recordCommitment target commitment).slots[slot]? = some value)
    (hvalue : value.commitment = .finalized) :
    .status slot .finalized ∈ before ++ [GeyserMessage.status target commitment] := by
  rw [status_mem_concat_status]
  rcases getElem?_recordCommitment hget with ⟨rfl, old, -, rfl⟩ | ⟨-, hget⟩
  · exact Or.inr ⟨rfl, hvalue.symm⟩
  · exact Or.inl (h.finalized slot value hget hvalue)

/-- A finalized entry of another slot survives the recording of a status. -/
theorem record_getElem? (h : LeveledStore before storage)
    (hnot : .status target .finalized ∉ before) (commitment : CommitmentLevel)
    {kept : Slot} {value : LatestBlockhashSlot}
    (hget : storage.slots[kept]? = some value) (hvalue : value.commitment = .finalized) :
    (storage.recordCommitment target commitment).slots[kept]? = some value := by
  rw [recordCommitment_slots, getElem?_modify, if_neg]
  · exact hget
  · rintro rfl
    exact hnot (h.finalized _ value hget hvalue)

theorem status (h : LeveledStore before storage)
    (hnot : .status target .finalized ∉ before) {after : LatestBlockhashStorage}
    (hevicted : Evicted (storage.recordCommitment target commitment) after) :
    LeveledStore (before ++ [GeyserMessage.status target commitment]) after := by
  have hentries : after.finalizedTotal = finalizedEntries after := by
    have hrecord := recordCommitment_entries storage target commitment
    rw [h.hit_eq_zero hnot, h.entries] at hrecord
    have := hevicted.entries
    omega
  refine ⟨hevicted.total.trans_le (min_le_left _ _), hentries, ?_, ?_, ?_⟩
  · intro slot hmem
    rw [hasBlock_concat_status]
    exact h.block slot ((mem_recordCommitment_slots _ _ _ _).1 (hevicted.upper.mem hmem))
  · intro slot value hget hvalue
    exact h.record_finalized (hevicted.upper.sub slot value hget) hvalue
  · intro slot hblock hslot
    rw [hasBlock_concat_status] at hblock
    by_cases hlow :
        (storage.recordCommitment target commitment).finalizedTotal ≤ finalizedMax
    · -- nothing is evicted
      obtain rfl := hevicted.unchanged hlow
      rw [mem_recordCommitment_slots] at hslot
      obtain ⟨kept, value, hget, hvalue, hlt⟩ := h.evicted slot hblock hslot
      exact ⟨kept, value, h.record_getElem? hnot commitment hget hvalue, hvalue, hlt⟩
    · -- the counter stays at its bound, so a finalized entry is left
      have hpos : 0 < finalizedEntries after := by
        rw [← hentries, hevicted.total, min_eq_left (not_le.1 hlow).le]
        exact Nat.succ_pos _
      obtain ⟨kept, value, hget, hvalue⟩ := exists_of_countWhere_pos hpos
      have hvalue : value.commitment = .finalized := by simpa [isFinalized] using hvalue
      have habove := fun low hlow hgone =>
        hevicted.upper.above low hlow hgone kept (mem_of_getElem? hget)
      by_cases hin : slot ∈ storage.slots
      · rw [← mem_recordCommitment_slots storage target commitment] at hin
        exact ⟨kept, value, hget, hvalue, habove slot hin hslot⟩
      · obtain ⟨old, oldValue, hold, holdValue, hlt⟩ := h.evicted slot hblock hin
        have hold := h.record_getElem? hnot commitment hold holdValue
        by_cases hleft : old ∈ after.slots
        · rw [← hevicted.upper.getElem?_of_mem hleft] at hold
          exact ⟨old, oldValue, hold, holdValue, hlt⟩
        · exact ⟨kept, value, hget, hvalue,
            hlt.trans (habove old (mem_of_getElem? hold) hleft)⟩

end LeveledStore

/-! ## The pointers along such a sequence -/

/-- Each pointer is the greatest slot with a status of its level that came after
its block, or 0. -/
def PointersApplied (before : List GeyserMessage) (storage : LatestBlockhashStorage) :
    Prop :=
  ∀ commitment slot, 0 < slot → (slot ≤ storage.slotAt commitment ↔
    ∃ other, slot ≤ other ∧ Applied before commitment other)

theorem slotAt_recordCommitment (storage : LatestBlockhashStorage) (target : Slot)
    (level commitment : CommitmentLevel) :
    (storage.recordCommitment target level).slotAt commitment =
      if target ∈ storage.slots ∧ level = commitment then
        if commitment = .processed then max (storage.slotAt commitment) target
        else target
      else storage.slotAt commitment := by
  cases commitment with
  | processed => exact recordCommitment_slotProcessed storage target level
  | confirmed => exact recordCommitment_slotConfirmed storage target level
  | finalized => exact recordCommitment_slotFinalized storage target level

theorem slotAt_of_evicted {storage after : LatestBlockhashStorage}
    (h : Evicted storage after) (commitment : CommitmentLevel) :
    after.slotAt commitment = storage.slotAt commitment := by
  cases commitment with
  | processed => exact h.slotProcessed
  | confirmed => exact h.slotConfirmed
  | finalized => exact h.slotFinalized

namespace PointersApplied

variable {before : List GeyserMessage} {storage : LatestBlockhashStorage}

theorem empty : PointersApplied [] .empty := by
  intro commitment slot hpos
  have hzero : LatestBlockhashStorage.empty.slotAt commitment = 0 := by
    cases commitment <;> rfl
  rw [hzero]
  refine iff_of_false (not_le.2 hpos) ?_
  rintro ⟨other, -, happlied⟩
  simpa using happlied.mem

theorem le_slotAt_iff (h : PointersApplied before storage)
    (commitment : CommitmentLevel) (slot : Slot) :
    slot ≤ storage.slotAt commitment ↔
      (0 < slot → ∃ other, slot ≤ other ∧ Applied before commitment other) := by
  rcases Nat.eq_zero_or_pos slot with rfl | hpos
  · exact iff_of_true (Nat.zero_le _) fun hpos => absurd hpos (lt_irrefl 0)
  · rw [h commitment slot hpos]
    exact ⟨fun hother _ => hother, fun hother => hother hpos⟩

variable {target : Slot} {level : CommitmentLevel}

/-- A pointer is below the slot of a new status of its level. -/
theorem slotAt_le (h : PointersApplied before storage)
    (habove : Above before level target) : storage.slotAt level ≤ target := by
  rcases Nat.eq_zero_or_pos (storage.slotAt level) with hzero | hpos
  · rw [hzero]
    exact Nat.zero_le target
  · obtain ⟨other, hle, happlied⟩ := (h level _ hpos).1 le_rfl
    exact hle.trans (habove other happlied.mem).le

/-- A status of a stored block moves the pointer of its level up to its slot, and
no other pointer. -/
theorem slotAt_status (h : PointersApplied before storage)
    (habove : Above before level target) {after : LatestBlockhashStorage}
    (hevicted : Evicted (storage.recordCommitment target level) after)
    (commitment : CommitmentLevel) :
    after.slotAt commitment =
      if target ∈ storage.slots ∧ level = commitment
      then max (storage.slotAt commitment) target else storage.slotAt commitment := by
  rw [slotAt_of_evicted hevicted, slotAt_recordCommitment]
  by_cases hset : target ∈ storage.slots ∧ level = commitment
  · rw [if_pos hset, if_pos hset]
    obtain ⟨-, rfl⟩ := hset
    rw [max_eq_right (h.slotAt_le habove), ite_self]
  · rw [if_neg hset, if_neg hset]

theorem push (h : PointersApplied before storage) (block : Block) :
    PointersApplied (before ++ [GeyserMessage.slot block])
      (storage.pushBlock block.slot block.height block.hash) := by
  intro commitment slot hpos
  have hsame : (storage.pushBlock block.slot block.height block.hash).slotAt
      commitment = storage.slotAt commitment := by
    cases commitment <;> rfl
  simp only [hsame, applied_concat_iff, reduceCtorEq, false_and, or_false]
  exact h commitment slot hpos

theorem status (h : PointersApplied before storage)
    (hstore : LeveledStore before storage)
    (hleveled : Admitted leveled (before ++ [GeyserMessage.status target level]))
    {after : LatestBlockhashStorage}
    (hevicted : Evicted (storage.recordCommitment target level) after) :
    PointersApplied (before ++ [GeyserMessage.status target level]) after := by
  intro commitment slot hpos
  have hblock := hstore.mem_iff_hasBlock hleveled
  rw [h.slotAt_status (above_of_leveled hleveled.last) hevicted]
  simp only [applied_concat_iff, GeyserMessage.status.injEq]
  by_cases hset : target ∈ storage.slots ∧ level = commitment
  · obtain ⟨hmem, rfl⟩ := hset
    rw [if_pos ⟨hmem, rfl⟩, le_max_iff, h level slot hpos]
    constructor
    · rintro (⟨other, hle, happlied⟩ | hle)
      · exact ⟨other, hle, Or.inl happlied⟩
      · exact ⟨target, hle, Or.inr ⟨⟨rfl, rfl⟩, hblock.1 hmem⟩⟩
    · rintro ⟨other, hle, happlied | ⟨⟨rfl, -⟩, -⟩⟩
      · exact Or.inl ⟨other, hle, happlied⟩
      · exact Or.inr hle
  · rw [if_neg hset, h commitment slot hpos]
    constructor
    · rintro ⟨other, hle, happlied⟩
      exact ⟨other, hle, Or.inl happlied⟩
    · rintro ⟨other, hle, happlied | ⟨⟨rfl, rfl⟩, hother⟩⟩
      · exact ⟨other, hle, happlied⟩
      · exact absurd ⟨hblock.2 hother, rfl⟩ hset

end PointersApplied

/-! ## When the pointers are nested -/

section Step

variable {before : List GeyserMessage} {state next : LoopState}
  {message : GeyserMessage}

theorem leveled_step (hleveled : Admitted leveled (before ++ [message]))
    (hstore : LeveledStore before state.latestBlockhashStorage)
    (hpointers : PointersApplied before state.latestBlockhashStorage)
    (hstepped : Stepped state message next) :
    LeveledStore (before ++ [message]) next.latestBlockhashStorage ∧
      PointersApplied (before ++ [message]) next.latestBlockhashStorage := by
  cases hstepped with
  | slot block => exact ⟨hstore.push hleveled.last, hpointers.push block⟩
  | status target level hevicted =>
      exact ⟨hstore.status (notMem_finalized_of_leveled hleveled) hevicted,
        hpointers.status hstore hleveled hevicted⟩

/-- Nested pointers stay nested with a message exactly when it is carried. -/
theorem nested_next_iff (hleveled : Admitted leveled (before ++ [message]))
    (hstore : LeveledStore before state.latestBlockhashStorage)
    (hpointers : PointersApplied before state.latestBlockhashStorage)
    (hstepped : Stepped state message next)
    (hnested : Nested state.latestBlockhashStorage) :
    Nested next.latestBlockhashStorage ↔ carried before message := by
  cases hstepped with
  | slot block => exact iff_of_true ⟨hnested.finalized, hnested.confirmed⟩ trivial
  | @status target level storage hevicted =>
      have hblock := hstore.mem_iff_hasBlock hleveled
      have hslotAt :=
        hpointers.slotAt_status (above_of_leveled hleveled.last) hevicted
      have hprocessed : storage.slotProcessed = _ := hslotAt .processed
      have hconfirmed : storage.slotConfirmed = _ := hslotAt .confirmed
      have hfinalized : storage.slotFinalized = _ := hslotAt .finalized
      have hle := hpointers.le_slotAt_iff
      cases level with
      | processed =>
          simp only [reduceCtorEq, and_false, if_false] at hconfirmed hfinalized
          refine iff_of_true ⟨?_, ?_⟩ trivial
          · rw [hfinalized, hconfirmed]
            exact hnested.finalized
          · rw [hconfirmed, hprocessed]
            exact hnested.confirmed.trans (le_ite_max _ _)
      | confirmed =>
          simp only [reduceCtorEq, and_false, and_true, if_false]
            at hprocessed hconfirmed hfinalized
          have hraised : storage.slotConfirmed ≤ storage.slotProcessed ↔
              (target ∈ state.latestBlockhashStorage.slots →
                target ≤ state.latestBlockhashStorage.slotAt .processed) := by
            rw [hconfirmed, hprocessed]
            exact ite_max_le_iff hnested.confirmed target
          rw [carried, ← hblock, ← hle .processed target]
          constructor
          · exact fun hnext => hraised.1 hnext.confirmed
          · intro hcarried
            refine ⟨?_, hraised.2 hcarried⟩
            rw [hfinalized, hconfirmed]
            exact hnested.finalized.trans (le_ite_max _ _)
      | finalized =>
          simp only [reduceCtorEq, and_false, and_true, if_false]
            at hprocessed hconfirmed hfinalized
          have hraised : storage.slotFinalized ≤ storage.slotConfirmed ↔
              (target ∈ state.latestBlockhashStorage.slots →
                target ≤ state.latestBlockhashStorage.slotAt .confirmed) := by
            rw [hfinalized, hconfirmed]
            exact ite_max_le_iff hnested.finalized target
          rw [carried, ← hblock, ← hle .confirmed target]
          constructor
          · exact fun hnext => hraised.1 hnext.finalized
          · intro hcarried
            refine ⟨hraised.2 hcarried, ?_⟩
            rw [hconfirmed, hprocessed]
            exact hnested.confirmed

end Step

/-- The store and its pointers after such a sequence. -/
theorem leveled_of_run {messages : List GeyserMessage}
    (hleveled : Admitted leveled messages) {state : LoopState}
    (hrun : LoopState.runUpdateLoop messages = .ok state) :
    LeveledStore messages state.latestBlockhashStorage ∧
      PointersApplied messages state.latestBlockhashStorage :=
  (invariant_of_run
    (fun before state => LeveledStore before state.latestBlockhashStorage ∧
      PointersApplied before state.latestBlockhashStorage)
    ⟨LeveledStore.empty, PointersApplied.empty⟩
    (fun _ _ _ _ hadmitted _ hinv hstepped =>
      leveled_step hadmitted hinv.1 hinv.2 hstepped) hleveled hrun).2

/-- The pointers are nested in every state of such a run, and with them the
answers of `getSlot`, exactly when every status is carried. -/
theorem pointers_nested_iff {messages : List GeyserMessage}
    (hleveled : Admitted leveled messages) :
    (∀ before state, before <+: messages → LoopState.runUpdateLoop before = .ok state →
        Nested state.latestBlockhashStorage ∧
        ∀ commitment jsonrpc id, state.onRequest (.slot jsonrpc id commitment none) =
          .ok (createSuccess jsonrpc id
            (.slot (state.latestBlockhashStorage.slotAt commitment)))) ↔
      Admitted carried messages := by
  constructor
  · rintro hnested before message after rfl
    have hpre : before ++ [message] <+: before ++ message :: after := ⟨after, by simp⟩
    obtain ⟨state, hrun, -⟩ := runUpdateLoop_ok before
    obtain ⟨next, hnext, -⟩ := runUpdateLoop_ok (before ++ [message])
    obtain ⟨hstore, hpointers⟩ := leveled_of_run hleveled.append_left hrun
    rw [← nested_next_iff (hleveled.of_isPrefix hpre) hstore hpointers
      (stepped_of_run hrun hnext) (hnested before state (List.prefix_append _ _) hrun).1]
    exact (hnested _ next hpre hnext).1
  · intro hcarried before state hpre hrun
    refine ⟨?_, fun commitment jsonrpc id => onRequest_slot state commitment jsonrpc id⟩
    replace hleveled := hleveled.of_isPrefix hpre
    replace hcarried := hcarried.of_isPrefix hpre
    clear hpre
    induction before using List.reverseRecOn generalizing state with
    | nil =>
        obtain rfl := Except.ok.inj hrun
        exact ⟨le_rfl, le_rfl⟩
    | append_singleton before message ih =>
        obtain ⟨previous, hprevious, -⟩ := runUpdateLoop_ok before
        obtain ⟨hstore, hpointers⟩ := leveled_of_run hleveled.append_left hprevious
        exact (nested_next_iff hleveled hstore hpointers (stepped_of_run hprevious hrun)
          (ih previous hprevious hleveled.append_left hcarried.append_left)).2
          hcarried.last

/-- The block of slot 5 arrives before its statuses, that of slot 6 after its
processed one; slot 7 carries slot 6. -/
def carriedRun : List GeyserMessage :=
  [.slot (.bare 5 4 1 1), .status 5 .processed, .status 6 .processed,
    .slot (.bare 6 5 2 2), .slot (.bare 7 6 3 3), .status 7 .processed,
    .status 6 .confirmed]

theorem pointers_nested_iff_carriedRun :
    ∃ state, LoopState.runUpdateLoop carriedRun = .ok state ∧
      Nested state.latestBlockhashStorage := by
  have hleveled : Admitted leveled carriedRun := by
    change Admitted leveled ([] ++ [_] ++ [_] ++ [_] ++ [_] ++ [_] ++ [_] ++ [_])
    refine (((((((admitted_nil _).concat ?_).concat ?_).concat ?_).concat ?_).concat
      ?_).concat ?_).concat ?_
    all_goals simp [leveled, HasBlock, Above, Block.bare]
  have hcarried : Admitted carried carriedRun := by
    change Admitted carried ([] ++ [_] ++ [_] ++ [_] ++ [_] ++ [_] ++ [_] ++ [_])
    refine (((((((admitted_nil _).concat ?_).concat ?_).concat ?_).concat ?_).concat
      ?_).concat ?_).concat ?_
    iterate 6 exact trivial
    intro _ _
    exact ⟨7, by decide, _, [], rfl, .bare 7 6 3 3, by simp, rfl⟩
  obtain ⟨state, hrun, -⟩ := runUpdateLoop_ok carriedRun
  exact ⟨state, hrun, ((pointers_nested_iff hleveled).2 hcarried carriedRun state
    (List.prefix_refl _) hrun).1⟩

/-- The block of slot 5 arrives between its processed and its confirmed
status. -/
def lateBlock : List GeyserMessage :=
  [.status 5 .processed, .slot (.bare 5 4 1 1), .status 5 .confirmed]

/-- The processed status is dropped, so the confirmed pointer passes the
processed one. -/
theorem pointers_not_nested :
    Admitted leveled lateBlock ∧
    (LoopState.runUpdateLoop lateBlock).map (fun state =>
        (state.latestBlockhashStorage.slotConfirmed,
          state.latestBlockhashStorage.slotProcessed)) = .ok (5, 0) := by
  refine ⟨?_, by decide⟩
  change Admitted leveled ([] ++ [_] ++ [_] ++ [_])
  refine (((admitted_nil _).concat ?_).concat ?_).concat ?_
  all_goals simp [leveled, HasBlock, Above, Block.bare]

end Solfees.NestedPointers
