import Solfees.Rpc.Eviction

/-!
# Well-ordered message sequences

A slot lives through its block and then its commitments in order, and the
confirmed and the finalized slots each go up.  Along such a sequence no message
reaches a finalized entry, eviction only takes slots below the remaining
finalized ones, and the finalized pointer stays in the store.
-/

namespace Solfees.WellOrdered

open Std (ExtTreeMap)
open Solfees.Draining
open Solfees.Eviction
open Solfees.LatestBlockhash
open Solfees.Message
open Solfees.Run
open Solfees.UpdateLoop

/-- A block of the slot has been received. -/
def HasBlock (before : List GeyserMessage) (slot : Slot) : Prop :=
  ∃ block, .slot block ∈ before ∧ block.slot = slot

/-- Every status of a level so far was for a smaller slot. -/
def Above (before : List GeyserMessage) (commitment : CommitmentLevel)
    (slot : Slot) : Prop :=
  ∀ earlier, .status earlier commitment ∈ before → earlier < slot

/-- Each slot has one block first, then at most one status of each level, in
the order of the levels; the confirmed and the finalized slots go up. -/
def ordered (before : List GeyserMessage) : GeyserMessage → Prop
  | .slot block => ¬ HasBlock before block.slot
  | .status slot .processed =>
      HasBlock before slot ∧ ∀ commitment, .status slot commitment ∉ before
  | .status slot .confirmed =>
      HasBlock before slot ∧ .status slot .finalized ∉ before ∧
        Above before .confirmed slot
  | .status slot .finalized => HasBlock before slot ∧ Above before .finalized slot

/-- `ordered`, and no level of a slot is skipped. -/
def wellOrdered (before : List GeyserMessage) : GeyserMessage → Prop
  | .slot block => ¬ HasBlock before block.slot
  | .status slot .processed =>
      HasBlock before slot ∧ .status slot .processed ∉ before
  | .status slot .confirmed =>
      HasBlock before slot ∧ .status slot .processed ∈ before ∧
        Above before .confirmed slot
  | .status slot .finalized =>
      HasBlock before slot ∧ .status slot .confirmed ∈ before ∧
        Above before .finalized slot

/-! ## Facts about the sequences alone -/

theorem HasBlock.concat {before : List GeyserMessage} {slot : Slot}
    (h : HasBlock before slot) (message : GeyserMessage) :
    HasBlock (before ++ [message]) slot := by
  obtain ⟨block, hmem, heq⟩ := h
  exact ⟨block, List.mem_append_left _ hmem, heq⟩

theorem hasBlock_concat_status {before : List GeyserMessage} {slot target : Slot}
    {commitment : CommitmentLevel} :
    HasBlock (before ++ [GeyserMessage.status target commitment]) slot ↔
      HasBlock before slot := by
  simp [HasBlock]

theorem hasBlock_concat_slot {before : List GeyserMessage} {slot : Slot}
    {block : Block} :
    HasBlock (before ++ [GeyserMessage.slot block]) slot ↔
      HasBlock before slot ∨ block.slot = slot := by
  constructor
  · rintro ⟨other, hmem, rfl⟩
    rcases List.mem_append.1 hmem with hmem | hmem
    · exact Or.inl ⟨other, hmem, rfl⟩
    · rw [List.mem_singleton, GeyserMessage.slot.injEq] at hmem
      exact Or.inr (by rw [hmem])
  · rintro (h | rfl)
    · exact h.concat _
    · exact ⟨block, by simp, rfl⟩

theorem status_mem_concat_slot {before : List GeyserMessage} {slot : Slot}
    {commitment : CommitmentLevel} {block : Block} :
    .status slot commitment ∈ before ++ [GeyserMessage.slot block] ↔
      .status slot commitment ∈ before := by
  simp

theorem status_mem_concat_status {before : List GeyserMessage}
    {slot target : Slot} {commitment level : CommitmentLevel} :
    .status slot commitment ∈ before ++ [GeyserMessage.status target level] ↔
      .status slot commitment ∈ before ∨ (slot = target ∧ commitment = level) := by
  simp

/-- A message of the sequence was admitted by a part of what precedes. -/
theorem exists_admitted {admits : List GeyserMessage → GeyserMessage → Prop}
    {messages : List GeyserMessage} (h : Admitted admits messages)
    {message : GeyserMessage} (hmem : message ∈ messages) :
    ∃ before, before <+: messages ∧ admits before message := by
  obtain ⟨before, after, rfl⟩ := List.append_of_mem hmem
  exact ⟨before, List.prefix_append _ _, h before message after rfl⟩

theorem hasBlock_of_isPrefix {before messages : List GeyserMessage} {slot : Slot}
    (hpre : before <+: messages) (h : HasBlock before slot) :
    HasBlock messages slot := by
  obtain ⟨block, hmem, heq⟩ := h
  exact ⟨block, hpre.subset hmem, heq⟩

/-- In an ordered sequence a status follows the block of its slot. -/
theorem hasBlock_of_status {messages : List GeyserMessage}
    (h : Admitted ordered messages) {slot : Slot} {commitment : CommitmentLevel}
    (hmem : .status slot commitment ∈ messages) : HasBlock messages slot := by
  obtain ⟨before, hpre, hadmits⟩ := exists_admitted h hmem
  cases commitment with
  | processed => exact hasBlock_of_isPrefix hpre hadmits.1
  | confirmed => exact hasBlock_of_isPrefix hpre hadmits.1
  | finalized => exact hasBlock_of_isPrefix hpre hadmits.1

theorem processed_of_confirmed {messages : List GeyserMessage}
    (h : Admitted wellOrdered messages) {slot : Slot}
    (hmem : .status slot .confirmed ∈ messages) :
    .status slot .processed ∈ messages := by
  obtain ⟨before, hpre, hadmits⟩ := exists_admitted h hmem
  exact hpre.subset hadmits.2.1

theorem confirmed_of_finalized {messages : List GeyserMessage}
    (h : Admitted wellOrdered messages) {slot : Slot}
    (hmem : .status slot .finalized ∈ messages) :
    .status slot .confirmed ∈ messages := by
  obtain ⟨before, hpre, hadmits⟩ := exists_admitted h hmem
  exact hpre.subset hadmits.2.1

/-- A sequence that skips no level is ordered. -/
theorem ordered_of_wellOrdered {messages : List GeyserMessage}
    (h : Admitted wellOrdered messages) : Admitted ordered messages := by
  intro before message after hsplit
  have hbefore : Admitted wellOrdered before :=
    h.of_isPrefix ⟨message :: after, hsplit.symm⟩
  have hadmits := h before message after hsplit
  cases message with
  | slot block => exact hadmits
  | status slot commitment =>
      cases commitment with
      | processed =>
          refine ⟨hadmits.1, fun commitment hmem => hadmits.2 ?_⟩
          cases commitment with
          | processed => exact hmem
          | confirmed => exact processed_of_confirmed hbefore hmem
          | finalized =>
              exact processed_of_confirmed hbefore
                (confirmed_of_finalized hbefore hmem)
      | confirmed =>
          refine ⟨hadmits.1, fun hmem => ?_, hadmits.2.2⟩
          exact lt_irrefl slot
            (hadmits.2.2 slot (confirmed_of_finalized hbefore hmem))
      | finalized => exact ⟨hadmits.1, hadmits.2.2⟩

/-! ## The store along an ordered sequence -/

/-- The store after the messages `before` of an ordered sequence. -/
structure OrderedStore (before : List GeyserMessage)
    (storage : LatestBlockhashStorage) : Prop where
  bound : storage.finalizedTotal ≤ finalizedMax
  entries : storage.finalizedTotal = finalizedEntries storage
  block : ∀ slot value, storage.slots[slot]? = some value →
    ∃ block, .slot block ∈ before ∧ block.slot = slot ∧
      value.hash = block.hash ∧ value.height = block.height
  finalized : ∀ slot value, storage.slots[slot]? = some value →
    (value.commitment = .finalized ↔ .status slot .finalized ∈ before)
  top : ∀ slot, .status slot .finalized ∈ before → slot ≤ storage.slotFinalized ∧
    .status storage.slotFinalized .finalized ∈ before ∧
    storage.slotFinalized ∈ storage.slots
  evicted : ∀ slot, HasBlock before slot → slot ∉ storage.slots →
    (∃ other, .status other .finalized ∈ before) ∧
    ∀ kept ∈ storage.slots, .status kept .finalized ∈ before → slot < kept

namespace OrderedStore

variable {before : List GeyserMessage} {storage : LatestBlockhashStorage}

theorem empty : OrderedStore [] .empty where
  bound := Nat.zero_le _
  entries := by
    rw [finalizedEntries, LatestBlockhashStorage.empty, countWhere_empty]
  block slot value h := by simp [LatestBlockhashStorage.empty] at h
  finalized slot value h := by simp [LatestBlockhashStorage.empty] at h
  top slot h := by simp at h
  evicted slot h := by simp [HasBlock] at h

/-- A slot that was evicted is below the finalized pointer. -/
theorem lt_slotFinalized (h : OrderedStore before storage) {slot : Slot}
    (hblock : HasBlock before slot) (hgone : slot ∉ storage.slots) :
    .status storage.slotFinalized .finalized ∈ before ∧ slot < storage.slotFinalized := by
  obtain ⟨⟨other, hother⟩, hlt⟩ := h.evicted slot hblock hgone
  obtain ⟨-, htop, hkept⟩ := h.top other hother
  exact ⟨htop, hlt _ hkept htop⟩

/-- A slot above the finalized ones has not been evicted. -/
theorem mem_of_above (h : OrderedStore before storage) {slot : Slot}
    (hblock : HasBlock before slot) (habove : Above before .finalized slot) :
    slot ∈ storage.slots := by
  by_contra hslot
  obtain ⟨htop, hlt⟩ := h.lt_slotFinalized hblock hslot
  exact lt_asymm hlt (habove _ htop)

/-- A finalized entry of a slot that gets one more message would break the
order of its statuses. -/
theorem hit_eq_zero (h : OrderedStore before storage) {slot : Slot}
    (hnot : .status slot .finalized ∉ before) :
    hit isFinalized storage.slots[slot]? = 0 := by
  cases hget : storage.slots[slot]? with
  | none => rfl
  | some value =>
      have hvalue : value.commitment ≠ .finalized := fun hv =>
        hnot ((h.finalized slot value hget).1 hv)
      simp [isFinalized, hvalue]

theorem push (h : OrderedStore before storage) {block : Block}
    (hstatus : ∀ commitment, .status block.slot commitment ∉ before) :
    OrderedStore (before ++ [GeyserMessage.slot block])
      (storage.pushBlock block.slot block.height block.hash) where
  bound := h.bound
  entries := by
    have hpush := pushBlock_entries storage block.slot block.height block.hash
    rw [h.hit_eq_zero (hstatus _), Nat.add_zero] at hpush
    rw [hpush]
    exact h.entries
  block slot value hget := by
    rcases getElem?_pushBlock hget with ⟨rfl, rfl⟩ | ⟨-, hget⟩
    · exact ⟨block, by simp, rfl, rfl, rfl⟩
    · obtain ⟨other, hmem, hother⟩ := h.block slot value hget
      exact ⟨other, List.mem_append_left _ hmem, hother⟩
  finalized slot value hget := by
    rw [status_mem_concat_slot]
    rcases getElem?_pushBlock hget with ⟨rfl, rfl⟩ | ⟨-, hget⟩
    · simp [hstatus]
    · exact h.finalized slot value hget
  top slot hmem := by
    rw [status_mem_concat_slot] at hmem
    obtain ⟨hle, htop, hkept⟩ := h.top slot hmem
    exact ⟨hle, status_mem_concat_slot.2 htop, mem_insert.2 (Or.inr hkept)⟩
  evicted slot hblock hslot := by
    rw [LatestBlockhashStorage.pushBlock, mem_insert, not_or] at hslot
    have hblock := (hasBlock_concat_slot.1 hblock).resolve_right (Ne.symm hslot.1)
    obtain ⟨⟨other, hother⟩, hlt⟩ := h.evicted slot hblock hslot.2
    refine ⟨⟨other, status_mem_concat_slot.2 hother⟩, ?_⟩
    intro kept hkept hfinalized
    rw [status_mem_concat_slot] at hfinalized
    rcases mem_insert.1 hkept with rfl | hkept
    · exact absurd hfinalized (hstatus _)
    · exact hlt kept hkept hfinalized

/-- What a status does to the entries, before eviction. -/
theorem record_block (h : OrderedStore before storage) {target : Slot}
    {commitment : CommitmentLevel} {slot : Slot} {value : LatestBlockhashSlot}
    (hget : (storage.recordCommitment target commitment).slots[slot]? =
      some value) :
    ∃ block, .slot block ∈ before ++ [GeyserMessage.status target commitment] ∧
      block.slot = slot ∧ value.hash = block.hash ∧
      value.height = block.height := by
  rcases getElem?_recordCommitment hget with ⟨-, old, hold, rfl⟩ | ⟨-, hget⟩
  · obtain ⟨block, hmem, hblock⟩ := h.block slot old hold
    exact ⟨block, List.mem_append_left _ hmem, hblock⟩
  · obtain ⟨block, hmem, hblock⟩ := h.block slot value hget
    exact ⟨block, List.mem_append_left _ hmem, hblock⟩

/-- A status below finalized marks its entry and evicts nothing. -/
theorem mark (h : OrderedStore before storage) {target : Slot}
    {commitment : CommitmentLevel} (hlevel : commitment ≠ .finalized)
    (hnot : .status target .finalized ∉ before) {after : LatestBlockhashStorage}
    (hevicted : Evicted (storage.recordCommitment target commitment) after) :
    OrderedStore (before ++ [GeyserMessage.status target commitment]) after := by
  obtain rfl := hevicted.eq_of_ne_finalized h.bound hlevel
  have htotal := recordCommitment_finalizedTotal storage target commitment
  rw [if_neg fun hboth => hlevel hboth.2] at htotal
  have hpointer := recordCommitment_slotFinalized storage target commitment
  rw [if_neg fun hboth => hlevel hboth.2] at hpointer
  have hstatus (slot : Slot) :
      .status slot .finalized ∈ before ++ [GeyserMessage.status target commitment] ↔
        .status slot .finalized ∈ before := by
    rw [status_mem_concat_status]
    exact or_iff_left fun hboth => hlevel hboth.2.symm
  refine ⟨htotal.le.trans h.bound, ?_, fun _ _ => h.record_block, ?_, ?_, ?_⟩
  · have hentries := recordCommitment_entries storage target commitment
    rw [h.hit_eq_zero hnot, htotal, h.entries] at hentries
    rw [htotal, h.entries]
    omega
  · intro slot value hget
    rw [hstatus]
    rcases getElem?_recordCommitment hget with ⟨rfl, old, -, rfl⟩ | ⟨-, hget⟩
    · exact iff_of_false hlevel hnot
    · exact h.finalized slot value hget
  · intro slot hslot
    rw [hstatus] at hslot
    rw [hpointer, hstatus, mem_recordCommitment_slots]
    exact h.top slot hslot
  · intro slot hblock hslot
    rw [hasBlock_concat_status] at hblock
    rw [mem_recordCommitment_slots] at hslot
    obtain ⟨⟨other, hother⟩, hlt⟩ := h.evicted slot hblock hslot
    refine ⟨⟨other, (hstatus other).2 hother⟩, ?_⟩
    intro kept hkept hfinalized
    rw [mem_recordCommitment_slots] at hkept
    rw [hstatus] at hfinalized
    exact hlt kept hkept hfinalized

/-- After a finalized status is recorded, the entries marked finalized are still those
of the finalized slots. -/
theorem record_finalized (h : OrderedStore before storage) {target slot : Slot}
    {value : LatestBlockhashSlot}
    (hget : (storage.recordCommitment target .finalized).slots[slot]? = some value) :
    value.commitment = .finalized ↔
      .status slot .finalized ∈ before ++ [GeyserMessage.status target .finalized] := by
  rw [status_mem_concat_status]
  rcases getElem?_recordCommitment hget with ⟨rfl, old, -, rfl⟩ | ⟨hne, hget⟩
  · simp
  · rw [h.finalized slot value hget]
    exact (or_iff_left fun hboth => hne hboth.1).symm

/-- The status of a new greatest slot is the last of the finalized ones. -/
theorem le_of_above {target slot : Slot} (habove : Above before .finalized target)
    (hslot : .status slot .finalized ∈
      before ++ [GeyserMessage.status target .finalized]) : slot ≤ target := by
  rcases status_mem_concat_status.1 hslot with hslot | ⟨rfl, -⟩
  · exact (habove slot hslot).le
  · exact le_rfl

/-- Eviction leaves some finalized entry, and the greatest finalized slot is not
below it. -/
theorem mem_of_finalized_left (h : OrderedStore before storage) {target : Slot}
    (htarget : target ∈ storage.slots) (habove : Above before .finalized target)
    {after : LatestBlockhashStorage}
    (hevicted : Evicted (storage.recordCommitment target .finalized) after)
    (hleft : 0 < finalizedEntries after) : target ∈ after.slots := by
  obtain ⟨kept, value, hget, hvalue⟩ := exists_of_countWhere_pos hleft
  have hrecord := hevicted.upper.sub kept value hget
  have hvalue : value.commitment = .finalized := by simpa [isFinalized] using hvalue
  apply hevicted.upper.mem_of_le (mem_of_getElem? hget)
  · rwa [mem_recordCommitment_slots]
  · exact le_of_above habove ((h.record_finalized hrecord).1 hvalue)

/-- A finalized status of a new greatest slot; eviction leaves that slot. -/
theorem finalize (h : OrderedStore before storage) {target : Slot}
    (hblock : HasBlock before target) (habove : Above before .finalized target)
    {after : LatestBlockhashStorage}
    (hevicted : Evicted (storage.recordCommitment target .finalized) after) :
    OrderedStore (before ++ [GeyserMessage.status target .finalized]) after := by
  have htarget : target ∈ storage.slots := h.mem_of_above hblock habove
  have hnot : .status target .finalized ∉ before := fun hmem =>
    lt_irrefl target (habove target hmem)
  have htotal := recordCommitment_finalizedTotal storage target .finalized
  rw [if_pos ⟨htarget, rfl⟩] at htotal
  have hpointer : after.slotFinalized = target := by
    rw [hevicted.slotFinalized, recordCommitment_slotFinalized,
      if_pos ⟨htarget, rfl⟩]
  have hentries : after.finalizedTotal = finalizedEntries after := by
    have hrecord := recordCommitment_entries storage target .finalized
    rw [h.hit_eq_zero hnot, h.entries] at hrecord
    have := hevicted.entries
    omega
  have hleft : 0 < finalizedEntries after := by
    rw [← hentries, hevicted.total, htotal]
    exact lt_min (Nat.succ_pos _) (Nat.succ_pos _)
  have hkept : target ∈ after.slots :=
    h.mem_of_finalized_left htarget habove hevicted hleft
  refine ⟨hevicted.total ▸ min_le_left _ _, hentries, ?_, ?_, ?_, ?_⟩
  · intro slot value hget
    exact h.record_block (hevicted.upper.sub slot value hget)
  · intro slot value hget
    exact h.record_finalized (hevicted.upper.sub slot value hget)
  · intro slot hslot
    rw [hpointer]
    exact ⟨le_of_above habove hslot, status_mem_concat_status.2 (Or.inr ⟨rfl, rfl⟩),
      hkept⟩
  · intro slot hblock hslot
    refine ⟨⟨target, status_mem_concat_status.2 (Or.inr ⟨rfl, rfl⟩)⟩, ?_⟩
    intro kept hkept hstatus
    rw [hasBlock_concat_status] at hblock
    by_cases hin : slot ∈ storage.slots
    · refine hevicted.upper.above slot ?_ hslot kept hkept
      rwa [mem_recordCommitment_slots]
    · obtain ⟨htop, hlt⟩ := h.lt_slotFinalized hblock hin
      rcases status_mem_concat_status.1 hstatus with hstatus | ⟨rfl, -⟩
      · refine (h.evicted slot hblock hin).2 kept ?_ hstatus
        have := hevicted.upper.mem hkept
        rwa [mem_recordCommitment_slots] at this
      · exact hlt.trans (habove _ htop)

end OrderedStore

/-- One message of an ordered sequence. -/
theorem orderedStore_step {before : List GeyserMessage} {state next : LoopState}
    {message : GeyserMessage} (hordered : Admitted ordered (before ++ [message]))
    (h : OrderedStore before state.latestBlockhashStorage)
    (hstepped : Stepped state message next) :
    OrderedStore (before ++ [message]) next.latestBlockhashStorage := by
  have hbefore : Admitted ordered before := hordered.append_left
  have hadmits := hordered.last
  cases hstepped with
  | slot block =>
      apply h.push
      exact fun commitment hmem => hadmits (hasBlock_of_status hbefore hmem)
  | status target commitment hevicted =>
      cases commitment with
      | processed => exact h.mark (by simp) (hadmits.2 _) hevicted
      | confirmed => exact h.mark (by simp) hadmits.2.1 hevicted
      | finalized => exact h.finalize hadmits.1 hadmits.2 hevicted

end Solfees.WellOrdered
