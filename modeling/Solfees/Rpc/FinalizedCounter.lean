import Solfees.Redis.Subscribe
import Solfees.Rpc.Eviction

/-!
# The finalized counter behind the deduplication

The counter goes up with every finalized status of a stored block and down with
every finalized entry that is evicted.  A message that reaches an entry marked
finalized overwrites the mark, or counts it again, and the counter stays one
ahead from then on.  The deduplication lets such messages through for the slot
at the finalized tip.
-/

namespace Solfees.FinalizedCounter

open Std (ExtTreeMap)
open Solfees.Draining
open Solfees.Eviction
open Solfees.LatestBlockhash
open Solfees.Message
open Solfees.Run
open Solfees.Subscribe
open Solfees.UpdateLoop

/-- What the deduplication passes on to the update loop. -/
def forwarded (messages : List GeyserMessage) : List GeyserMessage :=
  outputs Deduplication.deduplicate .init messages

/-- The slot has an entry and it is marked finalized. -/
def MarkedFinalized (state : LoopState) (slot : Slot) : Prop :=
  ∃ value, state.latestBlockhashStorage.slots[slot]? = some value ∧
    value.commitment = .finalized

/-- A finalized status whose slot has an entry. -/
def finalizes (state : LoopState) (message : GeyserMessage) : Bool :=
  decide (message.commitmentOf = some .finalized ∧
    message.slotOf ∈ state.latestBlockhashStorage.slots)

/-- The number of finalized statuses that find the block of their slot, from a
state of the update loop on. -/
def finalizationsFrom (state : LoopState) : List GeyserMessage → ℕ
  | [] => 0
  | message :: messages =>
      (if finalizes state message then 1 else 0) +
        match state.onMessage message with
        | .ok next => finalizationsFrom next messages
        | .error _ => 0

def finalizations (messages : List GeyserMessage) : ℕ :=
  finalizationsFrom .init messages

/-! ## The counter counts finalizations -/

/-- One message raises the counter if it finalizes a block, up to the bound. -/
theorem finalizedTotal_of_stepped {state next : LoopState} {message : GeyserMessage}
    (htotal : state.latestBlockhashStorage.finalizedTotal ≤ finalizedMax)
    (h : Stepped state message next) :
    next.latestBlockhashStorage.finalizedTotal =
      min finalizedMax (state.latestBlockhashStorage.finalizedTotal +
        if finalizes state message then 1 else 0) := by
  cases h with
  | slot block =>
      simpa [finalizes, GeyserMessage.commitmentOf,
        LatestBlockhashStorage.pushBlock] using htotal
  | status slot commitment hevicted =>
      rw [hevicted.total, recordCommitment_finalizedTotal]
      by_cases hfinalizes : slot ∈ state.latestBlockhashStorage.slots ∧
          commitment = .finalized
      · rw [if_pos hfinalizes, if_pos]
        simpa [finalizes, GeyserMessage.commitmentOf, GeyserMessage.slotOf]
          using hfinalizes.symm
      · rw [if_neg hfinalizes, if_neg, Nat.add_zero]
        simpa [finalizes, GeyserMessage.commitmentOf, GeyserMessage.slotOf,
          and_comm] using hfinalizes

theorem run_finalizedTotal {messages : List GeyserMessage} {state final : LoopState}
    (htotal : state.latestBlockhashStorage.finalizedTotal ≤ finalizedMax)
    (hrun : run LoopState.onMessage state messages = .ok final) :
    final.latestBlockhashStorage.finalizedTotal =
      min finalizedMax (state.latestBlockhashStorage.finalizedTotal +
        finalizationsFrom state messages) := by
  induction messages generalizing state with
  | nil =>
      obtain rfl := Except.ok.inj hrun
      exact (min_eq_right htotal).symm
  | cons message messages ih =>
      obtain ⟨next, hnext, hstepped⟩ := onMessage_stepped htotal message
      rw [run, List.foldlM_cons, hnext] at hrun
      rw [ih (hstepped.bound htotal) hrun, finalizedTotal_of_stepped htotal hstepped]
      simp only [finalizationsFrom, hnext]
      omega

/-- The counter is the number of finalizations, up to its bound. -/
theorem finalizedTotal_eq_min {messages : List GeyserMessage} {state : LoopState}
    (hrun : LoopState.runUpdateLoop messages = .ok state) :
    state.latestBlockhashStorage.finalizedTotal =
      min finalizedMax (finalizations messages) := by
  have htotal := run_finalizedTotal (Nat.zero_le _) hrun
  rwa [LoopState.init, LatestBlockhashStorage.empty, Nat.zero_add] at htotal

/-! ## When the counter is exact -/

theorem hit_eq_zero_iff (state : LoopState) (slot : Slot) :
    hit isFinalized state.latestBlockhashStorage.slots[slot]? = 0 ↔
      ¬ MarkedFinalized state slot := by
  cases hget : state.latestBlockhashStorage.slots[slot]? with
  | none => simp [MarkedFinalized, hget]
  | some value => simp [MarkedFinalized, hget, isFinalized]

/-- One more message keeps the counter exact when it reaches no entry marked
finalized, and only then. -/
theorem exact_concat_iff {before : List GeyserMessage} {message : GeyserMessage}
    {state next : LoopState} (hrun : LoopState.runUpdateLoop before = .ok state)
    (hnext : LoopState.runUpdateLoop (before ++ [message]) = .ok next)
    (hexact : state.latestBlockhashStorage.finalizedTotal =
      finalizedEntries state.latestBlockhashStorage) :
    next.latestBlockhashStorage.finalizedTotal =
        finalizedEntries next.latestBlockhashStorage ↔
      ¬ MarkedFinalized state message.slotOf := by
  obtain ⟨state', hrun', hbound⟩ := runUpdateLoop_ok before
  obtain rfl := Except.ok.inj (hrun'.symm.trans hrun)
  have hstep : state'.onMessage message = .ok next :=
    (run_concat_of_ok hrun message).symm.trans hnext
  have hentries := (stepped_of_onMessage hbound hstep).entries
  rw [← hit_eq_zero_iff]
  omega

/-- Along what the deduplication lets through, the counter is the number of
finalized entries in every state, and so the smaller of 310 and the number of
finalizations, exactly when no message reaches a slot whose entry is marked
finalized. -/
theorem counter_exact_iff (messages : List GeyserMessage) :
    (∀ before state, before <+: forwarded messages →
        LoopState.runUpdateLoop before = .ok state →
        state.latestBlockhashStorage.finalizedTotal =
            finalizedEntries state.latestBlockhashStorage ∧
          finalizedEntries state.latestBlockhashStorage =
            min finalizedMax (finalizations before)) ↔
      ∀ before message state, before ++ [message] <+: forwarded messages →
        LoopState.runUpdateLoop before = .ok state →
        ¬ MarkedFinalized state message.slotOf := by
  constructor
  · intro hexact before message state hpre hrun
    obtain ⟨next, hnext, -⟩ := runUpdateLoop_ok (before ++ [message])
    have hbefore := hexact before state
      ((List.prefix_append before [message]).trans hpre) hrun
    exact (exact_concat_iff hrun hnext hbefore.1).1 (hexact _ next hpre hnext).1
  · intro hmarked before state hpre hrun
    suffices h : state.latestBlockhashStorage.finalizedTotal =
        finalizedEntries state.latestBlockhashStorage from
      ⟨h, h.symm.trans (finalizedTotal_eq_min hrun)⟩
    induction before using List.reverseRecOn generalizing state with
    | nil =>
        obtain rfl := Except.ok.inj hrun
        simp [LoopState.init, LatestBlockhashStorage.empty, finalizedEntries,
          countWhere_empty]
    | append_singleton before message ih =>
        obtain ⟨previous, hprevious, -⟩ := runUpdateLoop_ok before
        have hbefore := ih previous
          ((List.prefix_append before [message]).trans hpre) hprevious
        exact (exact_concat_iff hprevious hrun hbefore).2
          (hmarked before message previous hpre hprevious)

/-- The finalized status of slot 5 overtakes its processed one. -/
def overtaken : List GeyserMessage :=
  [.slot (.bare 5 4 1 1), .status 5 .finalized, .status 5 .processed]

/-- Both statuses get through, and the second takes the mark of the first
away. -/
theorem counter_drifts :
    ∃ state, LoopState.runUpdateLoop (forwarded overtaken) = .ok state ∧
      state.latestBlockhashStorage.finalizedTotal = 1 ∧
      finalizedEntries state.latestBlockhashStorage = 0 := by
  obtain ⟨state, hrun, -⟩ := runUpdateLoop_ok (forwarded overtaken)
  have htotal : (LoopState.runUpdateLoop (forwarded overtaken)).map
      (·.latestBlockhashStorage.finalizedTotal) = .ok 1 := by decide
  have hlist : (LoopState.runUpdateLoop (forwarded overtaken)).map
      (·.latestBlockhashStorage.slots.toList) = .ok [(5, ⟨1, 1, .processed⟩)] := by
    decide
  rw [hrun] at htotal hlist
  replace hlist : state.latestBlockhashStorage.slots.toList =
      [(5, ⟨1, 1, .processed⟩)] := Except.ok.inj hlist
  refine ⟨state, hrun, Except.ok.inj htotal, Nat.eq_zero_of_not_pos fun hpos => ?_⟩
  obtain ⟨slot, value, hget, hvalue⟩ := exists_of_countWhere_pos hpos
  rw [← ExtTreeMap.mem_toList_iff_getElem?_eq_some, hlist, List.mem_singleton] at hget
  simp [(Prod.mk.inj hget).2, isFinalized] at hvalue

end Solfees.FinalizedCounter
