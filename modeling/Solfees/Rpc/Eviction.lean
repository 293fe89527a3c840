import Solfees.Rpc.UpdateLoop

/-!
# What a message does to the stores

One specification for each operation of the update loop: what recording a
commitment changes, what the eviction loop leaves, and that no message makes
the loop fail as long as the finalized counter is within its bound.
-/

namespace Solfees.Eviction

open Std (ExtTreeMap)
open Solfees.Draining
open Solfees.Fees
open Solfees.LatestBlockhash
open Solfees.Message
open Solfees.Run
open Solfees.UpdateLoop
open Solfees.Window

/-- The greatest value the finalized counter keeps. -/
def finalizedMax : ℕ := maxRecentBlockhashes + 10

theorem overfull_iff (total : ℕ) (slots : OrderedMap Slot LatestBlockhashSlot) :
    LatestBlockhashStorage.overfull total slots = true ↔ finalizedMax < total := by
  simp [LatestBlockhashStorage.overfull, finalizedMax]

def isFinalized (value : LatestBlockhashSlot) : Bool :=
  decide (value.commitment = .finalized)

/-- The number of stored blocks whose commitment is finalized. -/
def finalizedEntries (storage : LatestBlockhashStorage) : ℕ :=
  countWhere isFinalized storage.slots

/-! ## Recording a commitment -/

section Record

variable (storage : LatestBlockhashStorage) (slot : Slot)
  (commitment : CommitmentLevel)

/-- Recording a commitment marks the entry of its slot; where there is one, the
counter and the pointers follow. -/
theorem recordCommitment_eq :
    storage.recordCommitment slot commitment = {
      slots := storage.slots.modify slot fun value =>
        { value with commitment := commitment }
      finalizedTotal :=
        if slot ∈ storage.slots ∧ commitment = .finalized
        then storage.finalizedTotal + 1 else storage.finalizedTotal
      slotProcessed :=
        if slot ∈ storage.slots ∧ commitment = .processed
        then max storage.slotProcessed slot else storage.slotProcessed
      slotConfirmed :=
        if slot ∈ storage.slots ∧ commitment = .confirmed
        then slot else storage.slotConfirmed
      slotFinalized :=
        if slot ∈ storage.slots ∧ commitment = .finalized
        then slot else storage.slotFinalized } := by
  rw [LatestBlockhashStorage.recordCommitment]
  by_cases hslot : slot ∈ storage.slots
  · cases commitment with
    | processed =>
        rcases lt_or_ge storage.slotProcessed slot with hlt | hge
        · simp [hslot, hlt, max_eq_right hlt.le]
        · simp [hslot, not_lt.2 hge, max_eq_left hge]
    | confirmed => simp [hslot]
    | finalized => simp [hslot]
  · simp [hslot, modify_of_notMem hslot]

theorem recordCommitment_slots :
    (storage.recordCommitment slot commitment).slots =
      storage.slots.modify slot fun value =>
        { value with commitment := commitment } := by
  rw [recordCommitment_eq]

theorem mem_recordCommitment_slots (other : Slot) :
    other ∈ (storage.recordCommitment slot commitment).slots ↔
      other ∈ storage.slots := by
  rw [recordCommitment_slots, ExtTreeMap.mem_modify]

theorem recordCommitment_finalizedTotal :
    (storage.recordCommitment slot commitment).finalizedTotal =
      if slot ∈ storage.slots ∧ commitment = .finalized
      then storage.finalizedTotal + 1 else storage.finalizedTotal := by
  rw [recordCommitment_eq]

theorem recordCommitment_slotProcessed :
    (storage.recordCommitment slot commitment).slotProcessed =
      if slot ∈ storage.slots ∧ commitment = .processed
      then max storage.slotProcessed slot else storage.slotProcessed := by
  rw [recordCommitment_eq]

theorem recordCommitment_slotConfirmed :
    (storage.recordCommitment slot commitment).slotConfirmed =
      if slot ∈ storage.slots ∧ commitment = .confirmed
      then slot else storage.slotConfirmed := by
  rw [recordCommitment_eq]

theorem recordCommitment_slotFinalized :
    (storage.recordCommitment slot commitment).slotFinalized =
      if slot ∈ storage.slots ∧ commitment = .finalized
      then slot else storage.slotFinalized := by
  rw [recordCommitment_eq]

end Record

/-- A pointer that may be raised does not go down. -/
theorem le_ite_max {raised : Prop} [Decidable raised] (pointer slot : Slot) :
    pointer ≤ if raised then max pointer slot else pointer := by
  split
  · exact le_max_left pointer slot
  · exact le_rfl

/-- A pointer that may be raised stays at or below another one exactly when it is not
raised past it. -/
theorem ite_max_le_iff {raised : Prop} [Decidable raised] {pointer upper : Slot}
    (h : pointer ≤ upper) (slot : Slot) :
    (if raised then max pointer slot else pointer) ≤ upper ↔
      (raised → slot ≤ upper) := by
  split
  · rename_i hraised
    rw [max_le_iff]
    exact ⟨fun hle _ => hle.2, fun hle => ⟨h, hle hraised⟩⟩
  · rename_i hkept
    exact iff_of_true h fun hraised => absurd hraised hkept

/-- An entry after recording a commitment is the one of its slot, marked, or was there
before. -/
theorem getElem?_recordCommitment {storage : LatestBlockhashStorage} {slot other : Slot}
    {commitment : CommitmentLevel} {value : LatestBlockhashSlot}
    (hget : (storage.recordCommitment slot commitment).slots[other]? = some value) :
    (other = slot ∧ ∃ old, storage.slots[other]? = some old ∧
        value = { old with commitment := commitment }) ∨
      (other ≠ slot ∧ storage.slots[other]? = some value) := by
  rw [recordCommitment_slots, getElem?_modify] at hget
  split at hget
  · rename_i heq
    subst heq
    obtain ⟨old, hold, hvalue⟩ := Option.map_eq_some_iff.1 hget
    exact Or.inl ⟨rfl, old, hold, hvalue.symm⟩
  · rename_i hne
    exact Or.inr ⟨Ne.symm hne, hget⟩

/-- An entry after pushing a block is the one of the block, or was there before. -/
theorem getElem?_pushBlock {storage : LatestBlockhashStorage} {slot other : Slot}
    {height : Height} {hash : Hash} {value : LatestBlockhashSlot}
    (hget : (storage.pushBlock slot height hash).slots[other]? = some value) :
    (other = slot ∧ value = ⟨hash, height, .processed⟩) ∨
      (other ≠ slot ∧ storage.slots[other]? = some value) := by
  rw [LatestBlockhashStorage.pushBlock, getElem?_insert] at hget
  split at hget
  · rename_i heq
    exact Or.inl ⟨heq.symm, (Option.some.inj hget).symm⟩
  · rename_i hne
    exact Or.inr ⟨Ne.symm hne, hget⟩

/-! ## The eviction loop -/

/-- What the eviction loop may change: it forgets the smallest entries, brings
the counter back to its bound, and counts down once for each finalized entry. -/
structure Evicted (before after : LatestBlockhashStorage) : Prop where
  upper : IsUpper after.slots before.slots
  total : after.finalizedTotal = min finalizedMax before.finalizedTotal
  entries : after.finalizedTotal + finalizedEntries before =
    before.finalizedTotal + finalizedEntries after
  unchanged : before.finalizedTotal ≤ finalizedMax → after = before
  slotProcessed : after.slotProcessed = before.slotProcessed
  slotConfirmed : after.slotConfirmed = before.slotConfirmed
  slotFinalized : after.slotFinalized = before.slotFinalized

/-- What the eviction loop keeps while it looks for the finalized entry to count
down for. -/
structure Evicting (before : LatestBlockhashStorage) (total : ℕ)
    (slots : OrderedMap Slot LatestBlockhashSlot) : Prop where
  upper : IsUpper slots before.slots
  entries : total + finalizedEntries before =
    before.finalizedTotal + countWhere isFinalized slots
  total : total = before.finalizedTotal ∨ total = finalizedMax

namespace Evicting

variable {before : LatestBlockhashStorage} {total : ℕ}
  {slots : OrderedMap Slot LatestBlockhashSlot}

theorem start (before : LatestBlockhashStorage) :
    Evicting before before.finalizedTotal before.slots :=
  ⟨IsUpper.refl _, rfl, Or.inl rfl⟩

/-- While the loop goes on, it has not met a finalized entry, so there is one. -/
theorem ne_empty (h : Evicting before total slots)
    (hentry : before.finalizedTotal = finalizedMax + 1 → 0 < finalizedEntries before)
    (htotal : before.finalizedTotal ≤ finalizedMax + 1)
    (hgo : LatestBlockhashStorage.overfull total slots = true) : slots ≠ ∅ := by
  rintro rfl
  have hentries := h.entries
  rw [countWhere_empty] at hentries
  have hgo := (overfull_iff _ _).1 hgo
  rcases h.total with htop | htop
  · have := hentry (by omega)
    omega
  · omega

theorem pop (h : Evicting before total slots)
    (htotal : before.finalizedTotal ≤ finalizedMax + 1)
    (hgo : LatestBlockhashStorage.overfull total slots = true) {slot : Slot}
    {value : LatestBlockhashSlot} (hget : slots[slot]? = some value)
    (hmin : ∀ other ∈ slots, slot ≤ other) :
    Evicting before (LatestBlockhashStorage.forget total (slot, value))
      (slots.erase slot) := by
  have hgo := (overfull_iff _ _).1 hgo
  have htop := h.total
  have hentries := h.entries
  have herase := countWhere_of_agree_off isFinalized slots (slots.erase slot) slot
    fun other hother => by rw [getElem?_erase, if_neg (Ne.symm hother)]
  rw [getElem?_erase, if_pos rfl, hget] at herase
  refine ⟨h.upper.erase_min hmin, ?_, ?_⟩
  · by_cases hvalue : value.commitment = .finalized <;>
      simp [LatestBlockhashStorage.forget, isFinalized, hvalue] at herase ⊢ <;> omega
  · by_cases hvalue : value.commitment = .finalized <;>
      simp [LatestBlockhashStorage.forget, hvalue] <;> omega

end Evicting

/-- The eviction loop ends when the counter is at most one above its bound and,
if it is above, some entry is finalized. -/
theorem evict_spec {storage : LatestBlockhashStorage}
    (htotal : storage.finalizedTotal ≤ finalizedMax + 1)
    (hentry : storage.finalizedTotal = finalizedMax + 1 →
      0 < finalizedEntries storage) :
    ∃ after, storage.evict = .ok after ∧ Evicted storage after := by
  by_cases hlow : storage.finalizedTotal ≤ finalizedMax
  · refine ⟨storage, ?_, IsUpper.refl _, (min_eq_right hlow).symm, rfl,
      fun _ => rfl, rfl, rfl, rfl⟩
    rw [LatestBlockhashStorage.evict, drainWhile_unfold,
      if_neg fun hgo => absurd ((overfull_iff _ _).1 hgo) (not_lt.2 hlow)]
  · obtain ⟨total, slots, hrun, hevicting, hstop⟩ :=
      drainWhile_rule LatestBlockhashStorage.overfull LatestBlockhashStorage.forget
        (Evicting storage) (Evicting.start storage)
        (fun total slots h hgo => h.ne_empty hentry htotal hgo)
        (fun total slots slot value h hgo hget hmin => h.pop htotal hgo hget hmin)
    have hstop : total ≤ finalizedMax := by
      rw [← not_lt, ← overfull_iff total slots, hstop]
      exact Bool.false_ne_true
    have htop := hevicting.total
    refine ⟨{ storage with slots := slots, finalizedTotal := total }, ?_,
      hevicting.upper, ?_, hevicting.entries, fun h => absurd h hlow, rfl, rfl, rfl⟩
    · rw [LatestBlockhashStorage.evict, hrun]
    · show total = min finalizedMax storage.finalizedTotal
      omega

/-- Recording a commitment puts the counter at most one above its bound, and then
the entry just marked is finalized. -/
theorem recordCommitment_overfull {storage : LatestBlockhashStorage}
    (htotal : storage.finalizedTotal ≤ finalizedMax) (slot : Slot)
    (commitment : CommitmentLevel) :
    (storage.recordCommitment slot commitment).finalizedTotal ≤ finalizedMax + 1 ∧
      ((storage.recordCommitment slot commitment).finalizedTotal = finalizedMax + 1 →
        0 < finalizedEntries (storage.recordCommitment slot commitment)) := by
  rw [recordCommitment_finalizedTotal]
  constructor
  · split <;> omega
  · intro htop
    split at htop
    · rename_i hfinalized
      obtain ⟨value, hvalue⟩ := (mem_iff_exists _ _).1 hfinalized.1
      apply countWhere_pos (k := slot) (v := { value with commitment := commitment })
      · rw [recordCommitment_slots, getElem?_modify, if_pos rfl, hvalue]
        rfl
      · simp [isFinalized, hfinalized.2]
    · omega

/-- A commitment update returns whenever the counter is within its bound. -/
theorem updateCommitment_spec {storage : LatestBlockhashStorage}
    (htotal : storage.finalizedTotal ≤ finalizedMax) (slot : Slot)
    (commitment : CommitmentLevel) :
    ∃ after, storage.updateCommitment slot commitment = .ok after ∧
      Evicted (storage.recordCommitment slot commitment) after := by
  obtain ⟨hrange, hentry⟩ := recordCommitment_overfull htotal slot commitment
  exact evict_spec hrange hentry

/-- Only a finalized status can start the eviction. -/
theorem Evicted.eq_of_ne_finalized {storage after : LatestBlockhashStorage}
    (htotal : storage.finalizedTotal ≤ finalizedMax) {slot : Slot}
    {commitment : CommitmentLevel} (hlevel : commitment ≠ .finalized)
    (h : Evicted (storage.recordCommitment slot commitment) after) :
    after = storage.recordCommitment slot commitment := by
  apply h.unchanged
  rw [recordCommitment_finalizedTotal, if_neg fun hboth => hlevel hboth.2]
  exact htotal

/-! ## One message -/

/-- What the update loop keeps of a block. -/
def infoOf (block : Block) : StreamsSlotInfo :=
  StreamsSlotInfo.new block.leader block.slot block.hash block.time block.height
    block.transactions

/-- What a message does to the state of the update loop. -/
inductive Stepped (state : LoopState) : GeyserMessage → LoopState → Prop
  | slot (block : Block) : Stepped state (.slot block) {
      latestBlockhashStorage := state.latestBlockhashStorage.pushBlock
        block.slot block.height block.hash
      slotsInfo := keepGreatest maxNumRecentSlotInfo
        (state.slotsInfo.insert block.slot (infoOf block))
      streams := state.streams ++ [.slot (infoOf block)] }
  | status (slot : Slot) (commitment : CommitmentLevel)
      {storage : LatestBlockhashStorage}
      (hevicted : Evicted
        (state.latestBlockhashStorage.recordCommitment slot commitment) storage) :
      Stepped state (.status slot commitment) {
        latestBlockhashStorage := storage
        slotsInfo := state.slotsInfo.modify slot (.setCommitment commitment)
        streams := state.streams ++ [.status slot commitment] }

theorem Stepped.bound {state next : LoopState} {message : GeyserMessage}
    (htotal : state.latestBlockhashStorage.finalizedTotal ≤ finalizedMax)
    (h : Stepped state message next) :
    next.latestBlockhashStorage.finalizedTotal ≤ finalizedMax := by
  cases h with
  | slot block => exact htotal
  | status slot commitment hevicted =>
      exact hevicted.total.trans_le (min_le_left _ _)

/-- No message makes the update loop fail while the counter is within its
bound. -/
theorem onMessage_stepped {state : LoopState}
    (htotal : state.latestBlockhashStorage.finalizedTotal ≤ finalizedMax)
    (message : GeyserMessage) :
    ∃ next, state.onMessage message = .ok next ∧ Stepped state message next := by
  cases message with
  | slot block =>
      refine ⟨_, ?_, Stepped.slot block⟩
      rw [LoopState.onMessage]
      simp only [shrinkLoop_eq]
      rfl
  | status slot commitment =>
      obtain ⟨storage, hupdate, hevicted⟩ :=
        updateCommitment_spec htotal slot commitment
      refine ⟨_, ?_, Stepped.status slot commitment hevicted⟩
      rw [LoopState.onMessage, hupdate]
      rfl

theorem stepped_of_onMessage {state next : LoopState} {message : GeyserMessage}
    (htotal : state.latestBlockhashStorage.finalizedTotal ≤ finalizedMax)
    (hnext : state.onMessage message = .ok next) : Stepped state message next := by
  obtain ⟨next', hnext', hstepped⟩ := onMessage_stepped htotal message
  rwa [← Except.ok.inj (hnext'.symm.trans hnext)]

/-- The update loop survives every sequence of messages, and what its steps
preserve holds at the end. -/
theorem runUpdateLoop_invariant {admits : List GeyserMessage → GeyserMessage → Prop}
    (Inv : List GeyserMessage → LoopState → Prop) (hinit : Inv [] .init)
    (hstep : ∀ before state message next, Admitted admits (before ++ [message]) →
      state.latestBlockhashStorage.finalizedTotal ≤ finalizedMax →
      Inv before state → Stepped state message next → Inv (before ++ [message]) next)
    {messages : List GeyserMessage} (hadmitted : Admitted admits messages) :
    ∃ state, LoopState.runUpdateLoop messages = .ok state ∧
      state.latestBlockhashStorage.finalizedTotal ≤ finalizedMax ∧
      Inv messages state := by
  refine run_invariant
    (fun before (state : LoopState) =>
      state.latestBlockhashStorage.finalizedTotal ≤ finalizedMax ∧ Inv before state)
    ⟨Nat.zero_le _, hinit⟩ ?_ hadmitted
  rintro before state message hadmitted ⟨htotal, hinv⟩
  obtain ⟨next, hnext, hstepped⟩ := onMessage_stepped htotal message
  exact ⟨next, hnext, hstepped.bound htotal,
    hstep before state message next hadmitted htotal hinv hstepped⟩

/-- What the steps preserve holds in the state that a run has reached. -/
theorem invariant_of_run {admits : List GeyserMessage → GeyserMessage → Prop}
    (Inv : List GeyserMessage → LoopState → Prop) (hinit : Inv [] .init)
    (hstep : ∀ before state message next, Admitted admits (before ++ [message]) →
      state.latestBlockhashStorage.finalizedTotal ≤ finalizedMax →
      Inv before state → Stepped state message next → Inv (before ++ [message]) next)
    {messages : List GeyserMessage} (hadmitted : Admitted admits messages)
    {state : LoopState} (hrun : LoopState.runUpdateLoop messages = .ok state) :
    state.latestBlockhashStorage.finalizedTotal ≤ finalizedMax ∧ Inv messages state := by
  obtain ⟨final, hfinal, hinv⟩ := runUpdateLoop_invariant Inv hinit hstep hadmitted
  rwa [← Except.ok.inj (hfinal.symm.trans hrun)]

theorem runUpdateLoop_ok (messages : List GeyserMessage) :
    ∃ state, LoopState.runUpdateLoop messages = .ok state ∧
      state.latestBlockhashStorage.finalizedTotal ≤ finalizedMax := by
  obtain ⟨state, hrun, htotal, -⟩ := runUpdateLoop_invariant
    (fun _ _ => True) trivial (fun _ _ _ _ _ _ _ _ => trivial) (admitted_true messages)
  exact ⟨state, hrun, htotal⟩

/-! ## The finalized counter and the finalized entries -/

theorem pushBlock_entries (storage : LatestBlockhashStorage) (slot : Slot)
    (height : Height) (hash : Hash) :
    finalizedEntries (storage.pushBlock slot height hash) +
        hit isFinalized storage.slots[slot]? =
      finalizedEntries storage := by
  have hcount := countWhere_of_agree_off isFinalized storage.slots
    (storage.pushBlock slot height hash).slots slot fun a ha => by
      rw [LatestBlockhashStorage.pushBlock, getElem?_insert, if_neg (Ne.symm ha)]
  have hnew : hit isFinalized
      (storage.pushBlock slot height hash).slots[slot]? = 0 := by
    rw [LatestBlockhashStorage.pushBlock, getElem?_insert, if_pos rfl]
    rfl
  rw [hnew] at hcount
  exact hcount

theorem recordCommitment_entries (storage : LatestBlockhashStorage) (slot : Slot)
    (commitment : CommitmentLevel) :
    (storage.recordCommitment slot commitment).finalizedTotal +
        finalizedEntries storage =
      storage.finalizedTotal +
        finalizedEntries (storage.recordCommitment slot commitment) +
        hit isFinalized storage.slots[slot]? := by
  have hcount := countWhere_of_agree_off isFinalized storage.slots
    (storage.recordCommitment slot commitment).slots slot fun a ha => by
      rw [recordCommitment_slots, getElem?_modify, if_neg (Ne.symm ha)]
  rw [recordCommitment_slots, getElem?_modify, if_pos rfl,
    ← recordCommitment_slots] at hcount
  rw [recordCommitment_finalizedTotal]
  change finalizedEntries (storage.recordCommitment slot commitment) + _ =
    finalizedEntries storage + _ at hcount
  cases hget : storage.slots[slot]? with
  | none =>
      have hslot : slot ∉ storage.slots := (notMem_iff _ _).2 hget
      rw [hget] at hcount
      rw [if_neg fun h => hslot h.1]
      simp only [Option.map_none, hit_none] at hcount ⊢
      omega
  | some value =>
      have hslot : slot ∈ storage.slots := mem_of_getElem? hget
      rw [hget] at hcount
      by_cases hfinalized : commitment = .finalized <;>
        simp [isFinalized, hslot, hfinalized] at hcount ⊢ <;> omega

/-- The counter runs ahead of the finalized entries by one exactly when a
message reaches a slot whose entry is finalized. -/
theorem Stepped.entries {state next : LoopState} {message : GeyserMessage}
    (h : Stepped state message next) :
    next.latestBlockhashStorage.finalizedTotal +
        finalizedEntries state.latestBlockhashStorage =
      state.latestBlockhashStorage.finalizedTotal +
        finalizedEntries next.latestBlockhashStorage +
        hit isFinalized
          state.latestBlockhashStorage.slots[message.slotOf]? := by
  cases h with
  | slot block =>
      have hpush := pushBlock_entries state.latestBlockhashStorage block.slot
        block.height block.hash
      simp only [GeyserMessage.slotOf, LatestBlockhashStorage.pushBlock] at *
      omega
  | status slot commitment hevicted =>
      have hrecord := recordCommitment_entries state.latestBlockhashStorage slot
        commitment
      have hentries := hevicted.entries
      simp only [GeyserMessage.slotOf] at *
      omega

end Solfees.Eviction
