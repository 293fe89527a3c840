import Solfees.Geyser.Grouping

/-!
# Attaching to a running stream

The task does not know whether it has seen a slot from its beginning.  It sends
a block from whatever it has collected, so a block can be short of the
transactions that came before the task attached, or before a greater slot was
finalized.
-/

namespace Solfees.Attachment

open Solfees.Grouping
open Solfees.Message
open Solfees.Run
open Solfees.Stream

/-- Every slot has at most one `BlockMeta`, and its transactions precede it. -/
def Closing (full : List GeyserUpdate) : Prop :=
  ∀ before header after, full = before ++ .blockMeta header :: after →
    transactionsOf header.slot after = [] ∧
      ∀ other, .blockMeta other ∈ before ++ after → other.slot ≠ header.slot

/-- No transaction of the slot came before the task attached or before the last
reset of the slot, or none has come since. -/
def NotCut (prior before : List GeyserUpdate) (slot : Slot) : Prop :=
  transactionsOf slot (prior ++ upToReset slot before) = [] ∨ pending slot before = []

/-- A block is sent at a `BlockMeta` whose slot has pending transactions. -/
theorem slot_mem_emissions_iff {updates : List GeyserUpdate} {block : Block} :
    .slot block ∈ emissions emit updates ↔
      ∃ before header after, updates = before ++ .blockMeta header :: after ∧
        pending header.slot before ≠ [] ∧
        block = { header with transactions := pending header.slot before } := by
  rw [mem_emissions]
  constructor
  · rintro ⟨before, update, after, hsplit, hemit⟩
    cases update with
    | status slot commitment => simp [emit] at hemit
    | transaction slot tx => simp [emit] at hemit
    | blockMeta header =>
        rw [emit] at hemit
        split at hemit
        · simp at hemit
        · rename_i hpending
          exact ⟨before, header, after, hsplit, hpending,
            (GeyserMessage.slot.inj (Option.some.inj hemit)).symm⟩
  · rintro ⟨before, header, after, hsplit, hpending, rfl⟩
    exact ⟨before, .blockMeta header, after, hsplit, if_neg hpending⟩

/-- In the full stream, the transactions of a slot that is closed here are those
cut off and those pending. -/
theorem transactionsOf_closed {prior before after : List GeyserUpdate} {header : Block}
    (hclosing : Closing (prior ++ (before ++ .blockMeta header :: after))) :
    transactionsOf header.slot (prior ++ (before ++ .blockMeta header :: after)) =
      transactionsOf header.slot (prior ++ upToReset header.slot before) ++
        pending header.slot before := by
  obtain ⟨hafter, -⟩ := hclosing (prior ++ before) header after (by simp)
  calc transactionsOf header.slot (prior ++ (before ++ .blockMeta header :: after))
      = transactionsOf header.slot prior ++ (transactionsOf header.slot before ++
          (transactionsOf header.slot [.blockMeta header] ++
            transactionsOf header.slot after)) := by
        rw [transactionsOf_append, transactionsOf_append, ← List.singleton_append,
          transactionsOf_append]
    _ = transactionsOf header.slot prior ++ transactionsOf header.slot before := by
        rw [hafter, transactionsOf_singleton, List.append_nil, List.append_nil]
    _ = transactionsOf header.slot (prior ++ upToReset header.slot before) ++
          pending header.slot before := by
        rw [transactionsOf_eq_append_pending header.slot before, ← List.append_assoc,
          ← transactionsOf_append]

/-- A task that attaches after `prior` sends only whole blocks exactly when no
slot it closes with a block has been cut. -/
theorem attached_blocks_whole_iff {prior received : List GeyserUpdate}
    (hclosing : Closing (prior ++ received)) {Raw : Type} {decoders : Decoders Raw}
    {events : List (StreamEvent Raw)}
    (h : Delivers decoders events received) :
    (∀ block, .ok (.slot block) ∈ outputs (GeyserTask.onEvent decoders) .init events →
        block.transactions = transactionsOf block.slot (prior ++ received)) ↔
      ∀ before header after, received = before ++ .blockMeta header :: after →
        NotCut prior before header.slot := by
  have hsent (block : Block) :
      .ok (.slot block) ∈ outputs (GeyserTask.onEvent decoders) .init events ↔
        .slot block ∈ emissions emit received := by
    rw [(onEvent_simulates h .init rfl).1, GeyserTask.init, outputs_group]
    simp
  simp only [hsent, slot_mem_emissions_iff]
  constructor
  · rintro hwhole before header after rfl
    by_cases hpending : pending header.slot before = []
    · exact Or.inr hpending
    · left
      have hblock := hwhole _ ⟨before, header, after, rfl, hpending, rfl⟩
      rw [transactionsOf_closed hclosing] at hblock
      exact List.append_left_eq_self.1 hblock.symm
  · rintro hcut block ⟨before, header, after, rfl, hpending, rfl⟩
    have hprior := (hcut before header after rfl).resolve_right hpending
    show pending header.slot before = _
    rw [transactionsOf_closed hclosing, hprior, List.nil_append]

/-! ## Attaching in the middle of a slot -/

/-- The first transaction of slot 7, before the task attaches. -/
def missedUpdates : List GeyserUpdate :=
  [.transaction 7 (sampleTransaction 1)]

/-- Its second transaction and its `BlockMeta`. -/
def receivedUpdates : List GeyserUpdate :=
  [.transaction 7 (sampleTransaction 2), .blockMeta (.bare 7 0 1 0)]

def receivedEvents : List (StreamEvent ℕ) :=
  [sampleTransactionEvent 7 2, sampleBlockMetaEvent 7]

theorem delivers_received :
    Delivers sampleDecoders receivedEvents receivedUpdates :=
  .cons (represents_sampleTransaction 7 2) (.cons (represents_sampleBlockMeta 7) .nil)

theorem closing_received : Closing (missedUpdates ++ receivedUpdates) := by
  intro before header after hsplit
  rcases before with _ | ⟨first, _ | ⟨second, _ | ⟨third, rest⟩⟩⟩
  · simp [missedUpdates] at hsplit
  · simp [missedUpdates, receivedUpdates] at hsplit
  · simp only [missedUpdates, receivedUpdates, List.cons_append, List.nil_append,
      List.cons.injEq, GeyserUpdate.blockMeta.injEq] at hsplit
    obtain ⟨rfl, rfl, rfl, rfl⟩ := hsplit
    simp [transactionsOf]
  · simp [missedUpdates, receivedUpdates] at hsplit

/-- The block that is sent carries only the second transaction. -/
theorem attached_block_truncated :
    Closing (missedUpdates ++ receivedUpdates) ∧
      Delivers sampleDecoders receivedEvents receivedUpdates ∧
      ∃ block, .ok (.slot block) ∈
          outputs (GeyserTask.onEvent sampleDecoders) .init receivedEvents ∧
        block.transactions ≠
          transactionsOf block.slot (missedUpdates ++ receivedUpdates) := by
  refine ⟨closing_received, delivers_received,
    { Block.bare 7 0 1 0 with transactions := [sampleTransaction 2] }, ?_, ?_⟩
  · rw [(onEvent_simulates delivers_received .init rfl).1, GeyserTask.init,
      outputs_group, List.mem_map]
    refine ⟨_, slot_mem_emissions_iff.2
      ⟨[.transaction 7 (sampleTransaction 2)], .bare 7 0 1 0, [], rfl, ?_, rfl⟩, ?_⟩
    · simp [pending, sinceReset, resets, transactionsOf, List.rtakeWhile, Block.bare]
    · simp [pending, sinceReset, resets, transactionsOf, List.rtakeWhile, Block.bare]
  · simp [transactionsOf, missedUpdates, receivedUpdates, Block.bare]

theorem attached_blocks_whole_iff_received :
    (∀ block, .ok (.slot block) ∈
          outputs (GeyserTask.onEvent sampleDecoders) .init receivedEvents →
        block.transactions =
          transactionsOf block.slot (missedUpdates ++ receivedUpdates)) ↔
      ∀ before header after, receivedUpdates = before ++ .blockMeta header :: after →
        NotCut missedUpdates before header.slot :=
  attached_blocks_whole_iff closing_received delivers_received

end Solfees.Attachment
