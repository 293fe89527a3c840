import Solfees.Rpc.Eviction

/-!
# The eviction loop in any sequence of calls

`while finalized_total > MAX_RECENT_BLOCKHASHES + 10` stops only when it pops a
finalized entry, and on the empty map it would go on for ever.  It never gets there:
the counter passes its bound only by the call that has just marked an entry finalized,
and that entry is still in the map when the loop looks for it.
-/

namespace Solfees.EvictionLoop

open Solfees.Draining
open Solfees.Eviction
open Solfees.LatestBlockhash
open Solfees.Message
open Solfees.Run

/-- A call of one of the two methods of `LatestBlockhashStorage`. -/
inductive StorageCall
  | pushBlock (slot : Slot) (height : Height) (hash : Hash)
  | updateCommitment (slot : Slot) (commitment : CommitmentLevel)
  deriving DecidableEq, Repr

/-- What a call does to the storage. -/
def StorageCall.apply (storage : LatestBlockhashStorage) :
    StorageCall → Except Fault LatestBlockhashStorage
  | .pushBlock slot height hash => .ok (storage.pushBlock slot height hash)
  | .updateCommitment slot commitment => storage.updateCommitment slot commitment

/-- The storage after the calls, from the default one. -/
def afterCalls (calls : List StorageCall) : Except Fault LatestBlockhashStorage :=
  run StorageCall.apply .empty calls

/-- A call returns, and leaves the counter within its bound. -/
theorem StorageCall.apply_bounded {storage : LatestBlockhashStorage}
    (htotal : storage.finalizedTotal ≤ finalizedMax) (call : StorageCall) :
    ∃ after, call.apply storage = .ok after ∧ after.finalizedTotal ≤ finalizedMax := by
  cases call with
  | pushBlock slot height hash => exact ⟨_, rfl, htotal⟩
  | updateCommitment slot commitment =>
      obtain ⟨after, hafter, hevicted⟩ := updateCommitment_spec htotal slot commitment
      apply Exists.intro after
      exact ⟨hafter, hevicted.total.trans_le (min_le_left _ _)⟩

theorem afterCalls_bounded (calls : List StorageCall) :
    ∃ storage, afterCalls calls = .ok storage ∧
      storage.finalizedTotal ≤ finalizedMax := by
  apply run_invariant (fun _ (storage : LatestBlockhashStorage) =>
    storage.finalizedTotal ≤ finalizedMax) (Nat.zero_le _) _ (admitted_true calls)
  exact fun _ storage call _ htotal => call.apply_bounded htotal

/-- Wherever the loop of `update_commitment` comes to test its condition. -/
def LoopReaches (storage : LatestBlockhashStorage) (slot : Slot)
    (commitment : CommitmentLevel) :
    ℕ → OrderedMap Slot LatestBlockhashSlot → Prop :=
  Reaches LatestBlockhashStorage.overfull LatestBlockhashStorage.forget
    (storage.recordCommitment slot commitment).finalizedTotal
    (storage.recordCommitment slot commitment).slots

/-- The loop that a commitment update starts stays within the invariant of the
eviction. -/
theorem evicting_of_loopReaches {storage : LatestBlockhashStorage}
    (htotal : storage.finalizedTotal ≤ finalizedMax) {slot : Slot}
    {commitment : CommitmentLevel} {total : ℕ}
    {slots : OrderedMap Slot LatestBlockhashSlot}
    (h : LoopReaches storage slot commitment total slots) :
    Evicting (storage.recordCommitment slot commitment) total slots := by
  have hrange := (recordCommitment_overfull htotal slot commitment).1
  apply h.invariant (Evicting (storage.recordCommitment slot commitment)) _
    (Evicting.start _)
  exact fun total slots slot value h hgo hget hmin => h.pop hrange hgo hget hmin

/-- After any sequence of calls the counter is within its bound, and the loop of any
further commitment update ends: while its condition holds there is an entry to pop and
the counter is positive, and it comes to a state in which the condition fails, the one
the call leaves. -/
theorem eviction_ends (calls : List StorageCall) :
    ∃ storage, afterCalls calls = .ok storage ∧
      storage.finalizedTotal ≤ maxRecentBlockhashes + 10 ∧
      ∀ slot commitment,
        (∀ total slots, LoopReaches storage slot commitment total slots →
          LatestBlockhashStorage.overfull total slots = true →
          0 < total ∧ ∃ entry rest, popFirst slots = some (entry, rest)) ∧
        ∃ after, storage.updateCommitment slot commitment = .ok after ∧
          LoopReaches storage slot commitment after.finalizedTotal after.slots ∧
          LatestBlockhashStorage.overfull after.finalizedTotal after.slots = false := by
  obtain ⟨storage, hcalls, htotal⟩ := afterCalls_bounded calls
  refine ⟨storage, hcalls, htotal, fun slot commitment => ⟨?_, ?_⟩⟩
  · intro total slots hreaches hgo
    obtain ⟨hrange, hentry⟩ := recordCommitment_overfull htotal slot commitment
    have hne := (evicting_of_loopReaches htotal hreaches).ne_empty hentry hrange hgo
    have hpos : 0 < total := (Nat.zero_le _).trans_lt ((overfull_iff _ _).1 hgo)
    cases hpop : popFirst slots with
    | none => exact absurd ((popFirst_eq_none_iff slots).1 hpop) hne
    | some popped => exact ⟨hpos, popped.1, popped.2, rfl⟩
  · obtain ⟨after, hafter, -⟩ := updateCommitment_spec htotal slot commitment
    apply Exists.intro after
    refine ⟨hafter, ?_⟩
    rw [LatestBlockhashStorage.updateCommitment, LatestBlockhashStorage.evict] at hafter
    split at hafter
    · rename_i total slots hdrain
      obtain rfl := Except.ok.inj hafter
      exact reaches_of_drainWhile hdrain
    · cases hafter

end Solfees.EvictionLoop
