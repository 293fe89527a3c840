import Solfees.Rpc.Rollback
import Solfees.Rpc.WellOrdered

/-!
# Enough history for every rollback

Along an ordered sequence the store keeps the last finalized blocks, as many as
the counter allows.  When each finalized block is one higher than the one
before, these blocks form a descent, so the rollback walk gets through however
many fork blocks lie between them, and it ends at the right height.
-/

namespace Solfees.FinalizedRollback

open Solfees.Descent
open Solfees.Draining
open Solfees.Eviction
open Solfees.Json
open Solfees.LatestBlockhash
open Solfees.Message
open Solfees.Rollback
open Solfees.Run
open Solfees.UpdateLoop
open Solfees.WellOrdered

/-- Every block received for `next` is one higher than every block received for
`previous`. -/
def Consecutive (before : List GeyserMessage) (previous next : Slot) : Prop :=
  ∀ low high, .slot low ∈ before → low.slot = previous →
    .slot high ∈ before → high.slot = next →
    high.height.toNat = low.height.toNat + 1

/-- `ordered`, and a newly finalized block is one higher than the one finalized
before it. -/
def finalizedInSteps (before : List GeyserMessage) (message : GeyserMessage) :
    Prop :=
  ordered before message ∧
    ∀ slot, message = .status slot .finalized →
      ∀ previous ∈ (finalizedSlots before).getLast?,
        Consecutive before previous slot

/-! ## The finalized slots of a sequence -/

variable {before : List GeyserMessage} {storage : LatestBlockhashStorage}

/-- A message that is no new block of the two slots keeps their relation. -/
theorem Consecutive.concat {previous next : Slot} {message : GeyserMessage}
    (h : Consecutive before previous next)
    (hnew : ∀ block, message = .slot block →
      block.slot ≠ previous ∧ block.slot ≠ next) :
    Consecutive (before ++ [message]) previous next := by
  have hold {block : Block} {slot : Slot} (hne : message = .slot block →
      block.slot ≠ slot) (hmem : .slot block ∈ before ++ [message])
      (hslot : block.slot = slot) : .slot block ∈ before := by
    rcases List.mem_append.1 hmem with hmem | hmem
    · exact hmem
    · exact absurd hslot (hne (List.mem_singleton.1 hmem).symm)
  intro low high hlow hprevious hhigh hnext
  exact h low high (hold (fun heq => (hnew low heq).1) hlow hprevious) hprevious
    (hold (fun heq => (hnew high heq).2) hhigh hnext) hnext

/-! ## The finalized blocks of the store -/

/-- What the messages `before` and the counter say about finalized slots. -/
structure FinalizedHistory (before : List GeyserMessage)
    (storage : LatestBlockhashStorage) : Prop where
  increasing : (finalizedSlots before).Pairwise (· < ·)
  heights : (finalizedSlots before).IsChain (Consecutive before)
  total : storage.finalizedTotal = min finalizedMax (finalizedSlots before).length

theorem FinalizedHistory.empty : FinalizedHistory [] .empty where
  increasing := List.Pairwise.nil
  heights := List.IsChain.nil
  total := (Nat.min_zero _).symm

/-- A message that finalizes nothing, and the counter it leaves alone. -/
theorem FinalizedHistory.unchanged (h : FinalizedHistory before storage)
    {message : GeyserMessage} {after : LatestBlockhashStorage}
    (hslots : finalizedSlots (before ++ [message]) = finalizedSlots before)
    (hheights : (finalizedSlots before).IsChain (Consecutive (before ++ [message])))
    (htotal : after.finalizedTotal = storage.finalizedTotal) :
    FinalizedHistory (before ++ [message]) after where
  increasing := hslots ▸ h.increasing
  heights := hslots ▸ hheights
  total := by
    rw [hslots, htotal]
    exact h.total

/-- A further message of the sequence leaves the heights of the finalized slots as they
are: a new block has a slot that is not finalized yet. -/
theorem FinalizedHistory.heights_concat (h : FinalizedHistory before storage)
    (hbefore : Admitted ordered before) {message : GeyserMessage}
    (hadmits : ordered before message) :
    (finalizedSlots before).IsChain (Consecutive (before ++ [message])) := by
  apply h.heights.imp_of_mem_imp
  intro previous slot hprevious hslot hrel
  apply hrel.concat
  rintro block rfl
  rw [mem_finalizedSlots] at hprevious hslot
  constructor <;> rintro rfl
  · exact hadmits (hasBlock_of_status hbefore hprevious)
  · exact hadmits (hasBlock_of_status hbefore hslot)

/-- A finalized status, one higher than the last. -/
theorem FinalizedHistory.finalize (h : FinalizedHistory before storage)
    (hstore : OrderedStore before storage) {slot : Slot}
    (hblock : HasBlock before slot) (habove : Above before .finalized slot)
    (hchain : (finalizedSlots before).IsChain
      (Consecutive (before ++ [GeyserMessage.status slot .finalized])))
    (hheight : ∀ previous ∈ (finalizedSlots before).getLast?,
      Consecutive before previous slot) {after : LatestBlockhashStorage}
    (hevicted : Evicted (storage.recordCommitment slot .finalized) after) :
    FinalizedHistory (before ++ [GeyserMessage.status slot .finalized]) after := by
  have hslots := finalizedSlots_concat before (.status slot .finalized)
  rw [GeyserMessage.commitmentOf, if_pos rfl, GeyserMessage.slotOf] at hslots
  refine ⟨?_, ?_, ?_⟩
  · rw [hslots, List.pairwise_append]
    refine ⟨h.increasing, List.pairwise_singleton _ _, ?_⟩
    intro earlier hearlier last hlast
    rw [List.mem_singleton.1 hlast]
    exact habove earlier (mem_finalizedSlots.1 hearlier)
  · rw [hslots]
    refine hchain.append (List.IsChain.singleton slot) ?_
    intro previous hprevious last hlast
    obtain rfl : slot = last := Option.some.inj hlast
    refine (hheight previous hprevious).concat ?_
    simp
  · have htarget := hstore.mem_of_above hblock habove
    have hlength := h.total
    rw [hslots, List.length_append, List.length_singleton, hevicted.total,
      recordCommitment_finalizedTotal, if_pos ⟨htarget, rfl⟩]
    omega

theorem finalizedHistory_step {state next : LoopState} {message : GeyserMessage}
    (hadmitted : Admitted finalizedInSteps (before ++ [message]))
    (hstore : OrderedStore before state.latestBlockhashStorage)
    (h : FinalizedHistory before state.latestBlockhashStorage)
    (hstepped : Stepped state message next) :
    FinalizedHistory (before ++ [message]) next.latestBlockhashStorage := by
  have hbefore : Admitted ordered before :=
    (hadmitted.mono fun _ _ hadmits => hadmits.1).append_left
  obtain ⟨hadmits, hheights⟩ := hadmitted.last
  have hslots := finalizedSlots_concat before message
  have hchain := h.heights_concat hbefore hadmits
  cases hstepped with
  | slot block => exact h.unchanged (hslots.trans (List.append_nil _)) hchain rfl
  | @status slot commitment storage hevicted =>
      by_cases hlevel : commitment = .finalized
      · subst hlevel
        exact h.finalize hstore hadmits.1 hadmits.2 hchain (hheights slot rfl) hevicted
      · rw [GeyserMessage.commitmentOf, if_neg (by simpa using hlevel),
          List.append_nil] at hslots
        refine h.unchanged hslots hchain ?_
        rw [hevicted.eq_of_ne_finalized hstore.bound hlevel,
          recordCommitment_finalizedTotal, if_neg fun hboth => hlevel hboth.2]

theorem runUpdateLoop_finalized {messages : List GeyserMessage}
    (h : Admitted finalizedInSteps messages) :
    ∃ state, LoopState.runUpdateLoop messages = .ok state ∧
      OrderedStore messages state.latestBlockhashStorage ∧
      FinalizedHistory messages state.latestBlockhashStorage := by
  obtain ⟨state, hrun, -, hinv⟩ := runUpdateLoop_invariant
    (fun before state => OrderedStore before state.latestBlockhashStorage ∧
      FinalizedHistory before state.latestBlockhashStorage)
    ⟨OrderedStore.empty, FinalizedHistory.empty⟩
    (by
      rintro before state message next hadmitted _ ⟨hstore, hhistory⟩ hstepped
      have hordered := hadmitted.mono fun _ _ hadmits => hadmits.1
      exact ⟨orderedStore_step hordered hstore hstepped,
        finalizedHistory_step hadmitted hstore hhistory hstepped⟩) h
  exact ⟨state, hrun, hinv⟩

/-- The most recently finalized slots are stored. -/
theorem recent_stored (hordered : Admitted ordered before)
    (hstore : OrderedStore before storage) (h : FinalizedHistory before storage)
    {i : ℕ} (hi : i < (finalizedSlots before).length)
    (hrecent : (finalizedSlots before).length ≤ i + finalizedMax) :
    (finalizedSlots before)[i] ∈ storage.slots := by
  by_contra hnot
  have hblock := hasBlock_of_status hordered
    (mem_finalizedSlots.1 (List.getElem_mem hi))
  obtain ⟨-, habove⟩ := hstore.evicted _ hblock hnot
  -- then only later finalized slots are stored, and there are too few of them
  have hcount : finalizedEntries storage ≤
      ((finalizedSlots before).drop (i + 1)).toFinset.card := by
    refine countWhere_le_card fun slot value hget hvalue => ?_
    have hslot : .status slot .finalized ∈ before :=
      (hstore.finalized slot value hget).1 (by simpa [isFinalized] using hvalue)
    have hlt := habove slot (mem_of_getElem? hget) hslot
    obtain ⟨j, hj, rfl⟩ := List.getElem_of_mem (mem_finalizedSlots.2 hslot)
    have hij : i < j := by
      by_contra hji
      rcases (not_lt.1 hji).lt_or_eq with hji | rfl
      · exact lt_asymm hlt (List.pairwise_iff_getElem.1 h.increasing j i hj hi hji)
      · exact lt_irrefl _ hlt
    rw [List.mem_toFinset, List.mem_iff_getElem]
    refine ⟨j - (i + 1), by rw [List.length_drop]; omega, ?_⟩
    rw [List.getElem_drop]
    congr 1
    omega
  have hlength := List.toFinset_card_le ((finalizedSlots before).drop (i + 1))
  rw [List.length_drop] at hlength
  have htotal := hstore.entries.symm.trans h.total
  omega

/-- From a finalized block to the one finalized before it. -/
def PreviousBlock (slots : OrderedMap Slot LatestBlockhashSlot)
    (upper lower : Slot × LatestBlockhashSlot) : Prop :=
  BelowBlock slots upper lower ∧
    lower.2.height.toNat + 1 = upper.2.height.toNat

theorem previousBlock_height {slots : OrderedMap Slot LatestBlockhashSlot}
    {rollback : ℕ} {upper lower : Slot × LatestBlockhashSlot}
    (h : Steps (PreviousBlock slots) rollback upper lower) :
    lower.2.height.toNat + rollback = upper.2.height.toNat := by
  induction h with
  | refl p => rfl
  | head hstep _ ih =>
      have hheight := hstep.2
      omega

/-- The finalized blocks of the store lead down as long as they are stored. -/
theorem steps_previousBlock (hordered : Admitted ordered before)
    (hstore : OrderedStore before storage) (h : FinalizedHistory before storage)
    (rollback : ℕ) {i : ℕ} (hi : i < (finalizedSlots before).length)
    (hrollback : rollback ≤ i)
    (hrecent : (finalizedSlots before).length + rollback ≤ i + finalizedMax)
    {value : LatestBlockhashSlot}
    (hget : storage.slots[(finalizedSlots before)[i]]? = some value) :
    ∃ lower, Steps (PreviousBlock storage.slots) rollback
      ((finalizedSlots before)[i], value) lower := by
  induction rollback generalizing i value with
  | zero => exact ⟨_, Steps.refl _⟩
  | succ rollback ih =>
      obtain ⟨j, rfl⟩ := Nat.exists_eq_add_of_le' (Nat.one_le_of_lt hrollback)
      have hj : j < (finalizedSlots before).length := Nat.lt_of_succ_lt hi
      obtain ⟨prevValue, hprev⟩ := (mem_iff_exists _ _).1
        (recent_stored hordered hstore h hj (by omega))
      obtain ⟨lower, hsteps⟩ := ih hj (by omega) (by omega) hprev
      refine ⟨lower, Steps.head ?_ hsteps⟩
      obtain ⟨low, hlow, hlowSlot, -, hlowHeight⟩ := hstore.block _ _ hprev
      obtain ⟨high, hhigh, hhighSlot, -, hhighHeight⟩ := hstore.block _ _ hget
      have hheight := h.heights.getElem j hi low high hlow hlowSlot hhigh hhighSlot
      rw [← hlowHeight, ← hhighHeight] at hheight
      refine ⟨⟨hprev, ?_, ?_⟩, hheight.symm⟩
      · exact List.pairwise_iff_getElem.1 h.increasing j (j + 1) hj hi
          (Nat.lt_succ_self j)
      · apply UInt64.toNat_inj.1
        rw [nextHeight, UInt64.toNat_add, UInt64.toNat_one, ← hheight]
        exact Nat.mod_eq_of_lt (UInt64.toNat_lt _)

/-- The finalized pointer is the last finalized slot. -/
theorem slotFinalized_eq_getElem (hstore : OrderedStore before storage)
    (h : FinalizedHistory before storage) {last : ℕ}
    (hi : last < (finalizedSlots before).length)
    (hlast : (finalizedSlots before).length ≤ last + 1) :
    storage.slotFinalized = (finalizedSlots before)[last] := by
  obtain ⟨hle, htop, -⟩ :=
    hstore.top _ (mem_finalizedSlots.1 (List.getElem_mem hi))
  obtain ⟨j, hj, heq⟩ := List.getElem_of_mem (mem_finalizedSlots.2 htop)
  rw [← heq] at hle ⊢
  rcases (Nat.lt_succ_iff.1 (hj.trans_le hlast)).lt_or_eq with hlt | rfl
  · exact absurd (List.pairwise_iff_getElem.1 h.increasing j last hj hi hlt)
      (not_lt.2 hle)
  · rfl

/-- With `N` finalized slots every finalized rollback of fewer than `N` blocks,
up to the advertised 300, is answered, and by a block that many heights below
the last finalized one.  Nothing is asked of the fork blocks in between. -/
theorem finalized_rollback {messages : List GeyserMessage}
    (hadmitted : Admitted finalizedInSteps messages)
    {before : List GeyserMessage} (hpre : before <+: messages)
    (hpos : 1 ≤ (finalizedSlots before).length) {rollback : ℕ}
    (hrollback : rollback ≤
      min maxRecentBlockhashes ((finalizedSlots before).length - 1))
    (jsonrpc : Option JsonrpcVersion) (id : JsonrpcId) :
    ∃ state top block, LoopState.runUpdateLoop before = .ok state ∧
      .slot top ∈ before ∧
      top.slot = state.latestBlockhashStorage.slotFinalized ∧
      .slot block ∈ before ∧
      state.onRequest (.latestBlockhash jsonrpc id .finalized rollback none) =
        .ok (createSuccess jsonrpc id (.latestBlockhash block.slot block.hash
          (block.height + UInt64.ofNat maxRecentBlockhashes))) ∧
      block.height.toNat + rollback = top.height.toNat := by
  obtain ⟨state, hrun, hstore, hhistory⟩ :=
    runUpdateLoop_finalized (hadmitted.of_isPrefix hpre)
  have hordered : Admitted ordered before :=
    (hadmitted.of_isPrefix hpre).mono fun _ _ hadmits => hadmits.1
  obtain ⟨last, hlast⟩ := Nat.exists_eq_add_of_le' hpos
  have hi : last < (finalizedSlots before).length := by omega
  have hpointer := slotFinalized_eq_getElem hstore hhistory hi hlast.le
  obtain ⟨value, hget⟩ := (mem_iff_exists _ _).1
    (recent_stored hordered hstore hhistory hi (by rw [finalizedMax]; omega))
  -- the finalized blocks are one descent; the walk takes the greatest one
  obtain ⟨lower, hsteps⟩ := steps_previousBlock hordered hstore hhistory rollback hi
    (by omega) (by rw [finalizedMax]; omega) hget
  have hbelow := hsteps.mono fun _ _ hstep => hstep.1
  obtain ⟨found, hgreedy, -⟩ :=
    exists_greedy nextHeight_injective hbelow le_rfl rfl
  have hfoundSteps := hgreedy.mono fun _ _ => Nearest.toBelow
  have hheight : found.2.height = lower.2.height :=
    steps_below_level nextHeight_injective hfoundSteps hbelow rfl
  obtain ⟨top, htop, htopSlot, -, htopHeight⟩ := hstore.block _ _ hget
  obtain ⟨block, hblock, hblockSlot, hblockHash, hblockHeight⟩ :=
    hstore.block _ _ (steps_below_stored hget hfoundSteps)
  rw [← hpointer] at hget hgreedy
  refine ⟨state, top, block, hrun, htop, htopSlot.trans hpointer.symm, hblock, ?_, ?_⟩
  · rw [LoopState.onRequest, latestBlockhash_of_greedy hget (by omega) hgreedy,
      latestBlockhashSuccess, hblockSlot, hblockHash, hblockHeight]
  · rw [← hblockHeight, ← htopHeight, hheight]
    exact previousBlock_height hsteps

/-- Two finalized slots around a fork block of the same height as the second. -/
def forkBetween : List GeyserMessage :=
  [.slot (.bare 1 0 5 1), .slot (.bare 2 1 6 2), .slot (.bare 3 1 6 3),
    .status 1 .finalized, .status 3 .finalized]

theorem admitted_forkBetween : Admitted finalizedInSteps forkBetween := by
  change Admitted finalizedInSteps ([] ++ [_] ++ [_] ++ [_] ++ [_] ++ [_])
  refine (((((admitted_nil _).concat ?_).concat ?_).concat ?_).concat ?_).concat ?_
  all_goals simp [finalizedInSteps, ordered, HasBlock, Above, Block.bare,
    finalizedSlots, Consecutive]
  rintro low high (rfl | rfl | rfl) hlow (rfl | rfl | rfl) hhigh <;>
    simp_all

theorem finalized_rollback_forkBetween :
    ∃ state top block, LoopState.runUpdateLoop forkBetween = .ok state ∧
      .slot top ∈ forkBetween ∧
      top.slot = state.latestBlockhashStorage.slotFinalized ∧
      .slot block ∈ forkBetween ∧
      state.onRequest (.latestBlockhash none .null .finalized 1 none) =
        .ok (createSuccess none .null (.latestBlockhash block.slot block.hash
          (block.height + UInt64.ofNat maxRecentBlockhashes))) ∧
      block.height.toNat + 1 = top.height.toNat :=
  finalized_rollback admitted_forkBetween (List.prefix_refl forkBetween)
    (by decide) (by decide) none .null

end Solfees.FinalizedRollback
