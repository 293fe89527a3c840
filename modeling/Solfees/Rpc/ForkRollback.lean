import Solfees.Rpc.Eviction
import Solfees.Rpc.Rollback

/-!
# Rollback across forks

The update loop drops the parent of a block and the rollback walk goes by slot
and height alone.  On a chain-consistent run the ancestors of a block form one
descent among possibly many, and the request returns the ancestor exactly when
no other descent of that length ends at a greater slot.
-/

namespace Solfees.ForkRollback

open Std (ExtTreeMap)
open Solfees.Descent
open Solfees.Draining
open Solfees.Eviction
open Solfees.Json
open Solfees.LatestBlockhash
open Solfees.Message
open Solfees.Rollback
open Solfees.Run
open Solfees.UpdateLoop

/-- The block most recently received for a slot. -/
def lastBlock (messages : List GeyserMessage) (slot : Slot) : Option Block :=
  messages.foldl (fun found message =>
    match message with
    | .slot block => if block.slot = slot then some block else found
    | .status _ _ => found) none

/-- A block has a smaller parent slot, and is one higher than every block
received for its parent slot. -/
def ChainConsistent (messages : List GeyserMessage) : Prop :=
  ∀ block, .slot block ∈ messages → block.parentSlot < block.slot ∧
    ∀ parent, .slot parent ∈ messages → parent.slot = block.parentSlot →
      block.height.toNat = parent.height.toNat + 1

/-- `lower` is the stored entry at the parent slot of the block received for
`upper`. -/
structure ParentBlock (messages : List GeyserMessage)
    (slots : OrderedMap Slot LatestBlockhashSlot)
    (upper lower : Slot × LatestBlockhashSlot) : Prop where
  stored : slots[lower.1]? = some lower.2
  parent : ∃ block, lastBlock messages upper.1 = some block ∧
    block.parentSlot = lower.1

/-! ## What the store holds in any run -/

theorem lastBlock_concat_slot (messages : List GeyserMessage) (block : Block)
    (slot : Slot) :
    lastBlock (messages ++ [GeyserMessage.slot block]) slot =
      if block.slot = slot then some block else lastBlock messages slot := by
  simp [lastBlock]

theorem lastBlock_concat_status (messages : List GeyserMessage) (target : Slot)
    (commitment : CommitmentLevel) (slot : Slot) :
    lastBlock (messages ++ [GeyserMessage.status target commitment]) slot =
      lastBlock messages slot := by
  simp [lastBlock]

theorem lastBlock_mem {messages : List GeyserMessage} {slot : Slot} {block : Block}
    (h : lastBlock messages slot = some block) :
    .slot block ∈ messages ∧ block.slot = slot := by
  induction messages using List.reverseRecOn with
  | nil => simp [lastBlock] at h
  | append_singleton messages message ih =>
      cases message with
      | status target commitment =>
          rw [lastBlock_concat_status] at h
          exact ⟨List.mem_append_left _ (ih h).1, (ih h).2⟩
      | slot last =>
          rw [lastBlock_concat_slot] at h
          split at h
          · rename_i hslot
            obtain rfl := Option.some.inj h
            exact ⟨by simp, hslot⟩
          · exact ⟨List.mem_append_left _ (ih h).1, (ih h).2⟩

/-- Every entry holds the hash and the height of the last block of its slot. -/
def StoredBlocks (before : List GeyserMessage) (storage : LatestBlockhashStorage) :
    Prop :=
  ∀ slot value, storage.slots[slot]? = some value →
    ∃ block, lastBlock before slot = some block ∧ value.hash = block.hash ∧
      value.height = block.height

variable {before : List GeyserMessage} {storage : LatestBlockhashStorage}

theorem StoredBlocks.push (h : StoredBlocks before storage) (block : Block) :
    StoredBlocks (before ++ [GeyserMessage.slot block])
      (storage.pushBlock block.slot block.height block.hash) := by
  intro slot value hget
  rw [lastBlock_concat_slot]
  rcases getElem?_pushBlock hget with ⟨rfl, rfl⟩ | ⟨hslot, hget⟩
  · exact ⟨block, if_pos rfl, rfl, rfl⟩
  · rw [if_neg (Ne.symm hslot)]
    exact h slot value hget

theorem StoredBlocks.update (h : StoredBlocks before storage) {target : Slot}
    {commitment : CommitmentLevel} {after : LatestBlockhashStorage}
    (hevicted : Evicted (storage.recordCommitment target commitment) after) :
    StoredBlocks (before ++ [GeyserMessage.status target commitment]) after := by
  intro slot value hget
  rw [lastBlock_concat_status]
  have hrecord := hevicted.upper.sub slot value hget
  rcases getElem?_recordCommitment hrecord with ⟨rfl, old, hold, rfl⟩ | ⟨-, hget⟩
  · exact h slot old hold
  · exact h slot value hget

theorem runUpdateLoop_storedBlocks (messages : List GeyserMessage) :
    ∃ state, LoopState.runUpdateLoop messages = .ok state ∧
      StoredBlocks messages state.latestBlockhashStorage := by
  obtain ⟨state, hrun, -, hstored⟩ := runUpdateLoop_invariant
    (fun before state => StoredBlocks before state.latestBlockhashStorage)
    (by
      intro slot value hget
      simp [LoopState.init, LatestBlockhashStorage.empty] at hget)
    (by
      intro before state message next _ _ hstored hstepped
      cases hstepped with
      | slot block => exact hstored.push block
      | status target commitment hevicted => exact hstored.update hevicted)
    (admitted_true messages)
  exact ⟨state, hrun, hstored⟩

/-! ## Ancestors and descents -/

/-- On a chain-consistent run the ancestors form a descent by slot and height. -/
theorem ancestors_descend {messages : List GeyserMessage}
    (hconsistent : ChainConsistent messages)
    (hstored : StoredBlocks messages storage) {rollback : ℕ}
    {upper lower : Slot × LatestBlockhashSlot}
    (hupper : storage.slots[upper.1]? = some upper.2)
    (h : Steps (ParentBlock messages storage.slots) rollback upper lower) :
    Steps (BelowBlock storage.slots) rollback upper lower := by
  induction h with
  | refl p => exact Steps.refl p
  | @head n p q r hparent _ ih =>
      refine Steps.head ⟨hparent.stored, ?_, ?_⟩ (ih hparent.stored)
      all_goals
        obtain ⟨block, hblock, hslot⟩ := hparent.parent
        obtain ⟨hmem, hblockSlot⟩ := lastBlock_mem hblock
        obtain ⟨hlt, hheights⟩ := hconsistent block hmem
      · rwa [← hslot, ← hblockSlot]
      · obtain ⟨parent, hparentBlock, -, hparentHeight⟩ := hstored _ _ hparent.stored
        obtain ⟨hparentMem, hparentSlot⟩ := lastBlock_mem hparentBlock
        obtain ⟨block', hblock', -, hheight⟩ := hstored _ _ hupper
        obtain rfl := Option.some.inj (hblock.symm.trans hblock')
        have hnext := hheights parent hparentMem (hparentSlot.trans hslot.symm)
        apply UInt64.toNat_inj.1
        rw [nextHeight, UInt64.toNat_add, UInt64.toNat_one, hheight, hparentHeight,
          ← hnext]
        exact Nat.mod_eq_of_lt (UInt64.toNat_lt _)

/-- A rollback to a stored ancestor returns that ancestor exactly when no descent
by slot and height ends above it. -/
theorem rollback_ancestor_iff {messages : List GeyserMessage}
    (hconsistent : ChainConsistent messages) {state : LoopState}
    (hrun : LoopState.runUpdateLoop messages = .ok state)
    {commitment : CommitmentLevel} {value : LatestBlockhashSlot}
    (hget : state.latestBlockhashStorage.slots[
      state.latestBlockhashStorage.slotAt commitment]? = some value)
    {rollback : ℕ} (hrollback : rollback ≤ maxRecentBlockhashes)
    {ancestor : Slot × LatestBlockhashSlot}
    (hancestor : Steps (ParentBlock messages state.latestBlockhashStorage.slots)
      rollback (state.latestBlockhashStorage.slotAt commitment, value) ancestor)
    (jsonrpc : Option JsonrpcVersion) (id : JsonrpcId) :
    (∃ lastValidBlockHeight,
        state.onRequest (.latestBlockhash jsonrpc id commitment rollback none) =
          .ok (createSuccess jsonrpc id (.latestBlockhash ancestor.1 ancestor.2.hash
            lastValidBlockHeight))) ↔
      ∀ rival, Steps (BelowBlock state.latestBlockhashStorage.slots) rollback
          (state.latestBlockhashStorage.slotAt commitment, value) rival →
        rival.1 ≤ ancestor.1 := by
  obtain ⟨state', hrun', hstored⟩ := runUpdateLoop_storedBlocks messages
  obtain rfl := Except.ok.inj (hrun'.symm.trans hrun)
  have hdescent := ancestors_descend hconsistent hstored hget hancestor
  rw [← greedy_iff_greatest nextHeight_injective hget hdescent]
  constructor
  · rintro ⟨lastValidBlockHeight, hanswer⟩
    obtain ⟨found, hgreedy, -⟩ :=
      exists_greedy nextHeight_injective hdescent le_rfl rfl
    rw [LoopState.onRequest, latestBlockhash_of_greedy hget hrollback hgreedy,
      latestBlockhashSuccess, createSuccess, createSuccess] at hanswer
    -- a descent is determined by the slot at its end
    have hkey : found.1 = ancestor.1 := by
      simpa using (RpcResult.latestBlockhash.inj
        (JsonrpcOutput.success.inj (Except.ok.inj hanswer)).2.1).1
    have hfound := hgreedy.mono fun _ _ => Nearest.toBelow
    rwa [← steps_below_ext hget hfound hdescent hkey]
  · intro hgreedy
    exact ⟨_, latestBlockhash_of_greedy hget hrollback hgreedy jsonrpc id⟩

/-! ## A sibling is returned -/

/-- Slots 2 and 3 are children of slot 1, and slot 4 is a child of slot 2. -/
def siblingFork : List GeyserMessage :=
  [.slot (.bare 1 0 1 1), .slot (.bare 2 1 2 2), .slot (.bare 3 1 2 3),
    .slot (.bare 4 2 3 4), .status 4 .confirmed]

theorem chainConsistent_siblingFork : ChainConsistent siblingFork := by
  intro block hblock
  simp only [siblingFork, List.mem_cons, GeyserMessage.slot.injEq, reduceCtorEq,
    List.not_mem_nil, or_false] at hblock
  rcases hblock with rfl | rfl | rfl | rfl <;>
    simp [siblingFork, Block.bare]

theorem siblingFork_storage {state : LoopState}
    (hrun : LoopState.runUpdateLoop siblingFork = .ok state) :
    state.latestBlockhashStorage.slotConfirmed = 4 ∧
      state.latestBlockhashStorage.slots[(4 : Slot)]? = some ⟨4, 3, .confirmed⟩ ∧
      state.latestBlockhashStorage.slots[(2 : Slot)]? = some ⟨2, 2, .processed⟩ ∧
      state.onRequest (.latestBlockhash none .null .confirmed 1 none) =
        .ok (createSuccess none .null (.latestBlockhash 3 3 302)) := by
  have hconfirmed : (LoopState.runUpdateLoop siblingFork).map
      (·.latestBlockhashStorage.slotConfirmed) = .ok 4 := by decide
  have hupper : (LoopState.runUpdateLoop siblingFork).map
      (·.latestBlockhashStorage.slots[(4 : Slot)]?) =
        .ok (some ⟨4, 3, .confirmed⟩) := by decide
  have hlower : (LoopState.runUpdateLoop siblingFork).map
      (·.latestBlockhashStorage.slots[(2 : Slot)]?) =
        .ok (some ⟨2, 2, .processed⟩) := by decide
  have hanswer : (LoopState.runUpdateLoop siblingFork >>= fun state =>
      state.onRequest (.latestBlockhash none .null .confirmed 1 none)) =
        .ok (createSuccess none .null (.latestBlockhash 3 3 302)) := by decide
  rw [hrun] at hconfirmed hupper hlower hanswer
  exact ⟨Except.ok.inj hconfirmed, Except.ok.inj hupper, Except.ok.inj hlower,
    hanswer⟩

theorem siblingFork_ancestor {state : LoopState}
    (hrun : LoopState.runUpdateLoop siblingFork = .ok state) :
    Steps (ParentBlock siblingFork state.latestBlockhashStorage.slots) 1
      (4, ⟨4, 3, .confirmed⟩) (2, ⟨2, 2, .processed⟩) := by
  obtain ⟨-, -, hlower, -⟩ := siblingFork_storage hrun
  exact Steps.head ⟨hlower, .bare 4 2 3 4, by decide, rfl⟩ (Steps.refl _)

/-- The parent of the confirmed block 4 is block 2, and a rollback by one
answers with block 3. -/
theorem rollback_returns_sibling :
    ChainConsistent siblingFork ∧
      ∃ state, LoopState.runUpdateLoop siblingFork = .ok state ∧
        state.latestBlockhashStorage.slots[
            state.latestBlockhashStorage.slotAt .confirmed]? =
          some ⟨4, 3, .confirmed⟩ ∧
        Steps (ParentBlock siblingFork state.latestBlockhashStorage.slots) 1
          (state.latestBlockhashStorage.slotAt .confirmed, ⟨4, 3, .confirmed⟩)
          (2, ⟨2, 2, .processed⟩) ∧
        ¬ ∃ lastValidBlockHeight,
          state.onRequest (.latestBlockhash none .null .confirmed 1 none) =
            .ok (createSuccess none .null
              (.latestBlockhash 2 2 lastValidBlockHeight)) := by
  obtain ⟨state, hrun, -⟩ := runUpdateLoop_ok siblingFork
  obtain ⟨hconfirmed, hupper, -, hanswer⟩ := siblingFork_storage hrun
  refine ⟨chainConsistent_siblingFork, state, hrun, ?_, ?_, ?_⟩
  · rwa [LatestBlockhashStorage.slotAt, hconfirmed]
  · rw [LatestBlockhashStorage.slotAt, hconfirmed]
    exact siblingFork_ancestor hrun
  · rintro ⟨lastValidBlockHeight, hother⟩
    rw [hanswer] at hother
    simp [createSuccess] at hother

theorem rollback_ancestor_iff_siblingFork :
    ∃ state, LoopState.runUpdateLoop siblingFork = .ok state ∧
      ((∃ lastValidBlockHeight,
          state.onRequest (.latestBlockhash none .null .confirmed 1 none) =
            .ok (createSuccess none .null
              (.latestBlockhash 2 2 lastValidBlockHeight))) ↔
        ∀ rival, Steps (BelowBlock state.latestBlockhashStorage.slots) 1
            (state.latestBlockhashStorage.slotAt .confirmed, ⟨4, 3, .confirmed⟩)
            rival →
          rival.1 ≤ 2) := by
  obtain ⟨state, hrun, -⟩ := runUpdateLoop_ok siblingFork
  obtain ⟨hconfirmed, hupper, -, -⟩ := siblingFork_storage hrun
  have hslot : state.latestBlockhashStorage.slotAt .confirmed = 4 := hconfirmed
  have hancestor := siblingFork_ancestor hrun
  rw [← hslot] at hupper hancestor
  exact ⟨state, hrun, rollback_ancestor_iff chainConsistent_siblingFork hrun hupper
    (by decide) hancestor none .null⟩

end Solfees.ForkRollback
