import Solfees.Geyser.Stream

/-!
# Transactions are grouped by slot

What the task has collected for a slot is what the stream delivered for it since
the slot was last reset: since a `BlockMeta` of the slot, or a finalized status
of a greater one.  A block carries exactly that, so no transaction is lost,
repeated, reordered or put into another slot's block.
-/

namespace Solfees.Grouping

open Std (ExtTreeMap)
open Solfees.Draining
open Solfees.Message
open Solfees.Run
open Solfees.Stream
open Solfees.Transaction

/-- The updates of the stream after decoding.  The header of a `BlockMeta` is its
block without transactions. -/
inductive GeyserUpdate
  | status (slot : Slot) (commitment : CommitmentLevel)
  | transaction (slot : Slot) (tx : GeyserTransaction)
  | blockMeta (header : Block)
  deriving DecidableEq, Repr

/-- The event is a status, a decodable transaction or a valid `BlockMeta`, and
decodes to the update. -/
def Represents {Raw : Type} (decoders : Decoders Raw) (event : StreamEvent Raw) :
    GeyserUpdate → Prop
  | .status slot commitment =>
      ∃ status, event.item = some (.ok (some (.slot slot status))) ∧
        commitmentOfStatus status = some commitment
  | .transaction slot tx =>
      ∃ raw decoded, event.item = some (.ok (some (.transaction slot (some raw)))) ∧
        decoders.createTxWithMeta raw = .ok (.complete decoded) ∧
        transactionFrom decoders.programIds decoders.deserializeBudget decoded
          (decoders.isVote raw) = .ok tx
  | .blockMeta header =>
      ∃ info, event.item = some (.ok (some (.blockMeta info))) ∧
        info.slot = header.slot ∧
        ∀ transactions, buildBlock decoders.parseHash event.leader info transactions =
          .ok (.slot { header with transactions := transactions })

/-- The events deliver the updates in order, with pings and empty updates in
between. -/
inductive Delivers {Raw : Type} (decoders : Decoders Raw) :
    List (StreamEvent Raw) → List GeyserUpdate → Prop
  | nil : Delivers decoders [] []
  | cons {event : StreamEvent Raw} {update : GeyserUpdate}
      {events : List (StreamEvent Raw)} {updates : List GeyserUpdate}
      (hevent : Represents decoders event update)
      (hrest : Delivers decoders events updates) :
      Delivers decoders (event :: events) (update :: updates)
  | idle {event : StreamEvent Raw} {events : List (StreamEvent Raw)}
      {updates : List GeyserUpdate}
      (hevent : event.item = some (.ok none) ∨ event.item = some (.ok (some .other)))
      (hrest : Delivers decoders events updates) :
      Delivers decoders (event :: events) updates

/-! ## What the history says -/

/-- The transactions of a slot, in order of arrival. -/
def transactionsOf (slot : Slot) (updates : List GeyserUpdate) :
    List GeyserTransaction :=
  updates.filterMap fun
    | .transaction target tx => if target = slot then some tx else none
    | _ => none

/-- A `BlockMeta` of the slot, or a finalized status of a greater slot. -/
def resets (slot : Slot) : GeyserUpdate → Bool
  | .status finalized .finalized => decide (slot < finalized)
  | .blockMeta header => decide (header.slot = slot)
  | _ => false

/-- The updates after the last reset of a slot. -/
def sinceReset (slot : Slot) (updates : List GeyserUpdate) : List GeyserUpdate :=
  updates.rtakeWhile fun update => !resets slot update

/-- The updates up to the last reset of a slot. -/
def upToReset (slot : Slot) (updates : List GeyserUpdate) : List GeyserUpdate :=
  updates.rdropWhile fun update => !resets slot update

/-- The transactions of a slot since its last reset. -/
def pending (slot : Slot) (updates : List GeyserUpdate) : List GeyserTransaction :=
  transactionsOf slot (sinceReset slot updates)

/-- What is sent for an update: a status as it is, and for a `BlockMeta` the
block with the pending transactions, if there are any. -/
def emit (before : List GeyserUpdate) : GeyserUpdate → Option GeyserMessage
  | .status slot commitment => some (.status slot commitment)
  | .transaction _ _ => none
  | .blockMeta header =>
      if pending header.slot before = [] then none
      else some (.slot { header with transactions := pending header.slot before })

/-- The transactions of the messages for a slot. -/
def transactionsIn (slot : Slot) : GeyserMessage → List GeyserTransaction
  | .slot block => if block.slot = slot then block.transactions else []
  | .status _ _ => []

/-- The blocks of a slot among the messages. -/
def blocksOf (slot : Slot) (messages : List GeyserMessage) : List Block :=
  messages.filterMap fun
    | .slot block => if block.slot = slot then some block else none
    | .status _ _ => none

theorem transactionsOf_append (slot : Slot) (front back : List GeyserUpdate) :
    transactionsOf slot (front ++ back) =
      transactionsOf slot front ++ transactionsOf slot back := by
  simp [transactionsOf]

theorem transactionsOf_singleton (slot : Slot) (update : GeyserUpdate) :
    transactionsOf slot [update] =
      match update with
      | .transaction target tx => if target = slot then [tx] else []
      | _ => [] := by
  cases update with
  | transaction target tx =>
      by_cases hslot : target = slot <;> simp [transactionsOf, hslot]
  | status target commitment => rfl
  | blockMeta header => rfl

/-- One more update: a reset empties a slot, a transaction of it is added. -/
theorem pending_concat (slot : Slot) (before : List GeyserUpdate)
    (update : GeyserUpdate) :
    pending slot (before ++ [update]) =
      if resets slot update then []
      else pending slot before ++ transactionsOf slot [update] := by
  rw [pending, sinceReset, List.rtakeWhile_concat]
  cases hreset : resets slot update with
  | true => rfl
  | false => simp [transactionsOf_append, pending, sinceReset]

theorem upToReset_append_sinceReset (slot : Slot) (updates : List GeyserUpdate) :
    upToReset slot updates ++ sinceReset slot updates = updates :=
  List.rdropWhile_append_rtakeWhile

/-- Every transaction of a slot came up to its last reset or is pending. -/
theorem transactionsOf_eq_append_pending (slot : Slot) (updates : List GeyserUpdate) :
    transactionsOf slot updates =
      transactionsOf slot (upToReset slot updates) ++ pending slot updates := by
  rw [pending, ← transactionsOf_append, upToReset_append_sinceReset]

/-- Updates that do not reset a slot only add to what is pending. -/
theorem pending_append {slot : Slot} (front : List GeyserUpdate)
    {back : List GeyserUpdate} (hback : ∀ update ∈ back, resets slot update = false) :
    pending slot (front ++ back) = pending slot front ++ transactionsOf slot back := by
  induction back using List.reverseRecOn with
  | nil => simp [transactionsOf]
  | append_singleton back update ih =>
      rw [← List.append_assoc, pending_concat, hback update (by simp),
        ih fun earlier hearlier => hback earlier (by simp [hearlier])]
      simp [transactionsOf_append]

/-! ## The task groups -/

/-- The collected transactions of the slots from `finalized` on. -/
def keepFrom (finalized : Slot) (transactions : Collected) : Collected :=
  transactions.filter fun slot _ => decide (finalized ≤ slot)

theorem getElem?_keepFrom (finalized : Slot) (transactions : Collected) (slot : Slot) :
    (keepFrom finalized transactions)[slot]? =
      if finalized ≤ slot then transactions[slot]? else none := by
  rw [keepFrom, ExtTreeMap.getElem?_filter']
  by_cases hslot : finalized ≤ slot
  · cases transactions[slot]? <;> simp [hslot, Option.filter]
  · simp [hslot]

/-- The loop that pops the slots below the finalized one ends, and leaves the
others. -/
theorem popBelow_eq (finalized : Slot) (transactions : Collected) :
    popBelow finalized transactions = some ((), keepFrom finalized transactions) := by
  obtain ⟨_, rest, hrun, ⟨hupper, hpopped⟩, hstop⟩ :=
    drainWhile_rule
      (fun (_ : Unit) (rest : Collected) =>
        rest.keys.head?.any fun firstSlot => decide (firstSlot < finalized))
      (fun _ _ => ())
      (fun _ rest => IsUpper rest transactions ∧
        ∀ slot ∈ transactions, slot ∉ rest → slot < finalized)
      ⟨IsUpper.refl transactions, fun slot hslot hnot => absurd hslot hnot⟩
      (by
        rintro _ rest - hgo rfl
        simp at hgo)
      (by
        rintro _ rest slot collected ⟨hupper, hpopped⟩ hgo hget hmin
        refine ⟨hupper.erase_min hmin, fun other hother hnot => ?_⟩
        by_cases hrest : other ∈ rest
        · obtain ⟨firstSlot, hhead, -⟩ := exists_head_keys hrest
          have hfirst : firstSlot ∈ rest := by
            rw [← ExtTreeMap.mem_keys]
            exact List.mem_of_head? hhead
          obtain rfl : other = slot := by
            by_contra hne
            exact hnot (mem_erase.2 ⟨hne, hrest⟩)
          exact (hmin firstSlot hfirst).trans_lt (by simpa [hhead] using hgo)
        · exact hpopped other hother hrest)
  rw [popBelow, hrun]
  congr 2
  apply ExtTreeMap.ext_getElem?
  intro slot
  rw [getElem?_keepFrom]
  by_cases hslot : slot ∈ rest
  · obtain ⟨firstSlot, hhead, hfirst⟩ := exists_head_keys hslot
    have hle : finalized ≤ firstSlot := by simpa [hhead] using hstop
    rw [if_pos (hle.trans (hfirst slot hslot)), hupper.getElem?_of_mem hslot]
  · rw [(notMem_iff rest slot).1 hslot]
    split
    · rename_i hle
      refine ((notMem_iff transactions slot).1 fun hmem => ?_).symm
      exact absurd (hpopped slot hmem hslot) (not_lt.2 hle)
    · rfl

/-- The task on decoded updates. -/
def group (transactions : Collected) : GeyserUpdate → Collected × Option GeyserMessage
  | .status slot commitment =>
      (if commitment = .finalized then keepFrom slot transactions else transactions,
        some (.status slot commitment))
  | .transaction slot tx =>
      (transactions.insert slot (transactions[slot]?.getD [] ++ [tx]), none)
  | .blockMeta header =>
      match transactions[header.slot]? with
      | some collected =>
          (transactions.erase header.slot,
            some (.slot { header with transactions := collected }))
      | none => (transactions, none)

theorem onEvent_represents {Raw : Type} {decoders : Decoders Raw} {task : GeyserTask}
    (halive : task.alive = true) {event : StreamEvent Raw} {update : GeyserUpdate}
    (h : Represents decoders event update) :
    task.onEvent decoders event =
      ({ transactions := (group task.transactions update).1, alive := true },
        (group task.transactions update).2.map .ok) := by
  rw [GeyserTask.onEvent, if_pos halive]
  cases update with
  | status slot commitment =>
      obtain ⟨status, hitem, hcommitment⟩ := h
      simp only [hitem, GeyserTask.onSlot, hcommitment, popBelow_eq]
      by_cases hfinalized : commitment = .finalized <;>
        simp [group, hfinalized, ← halive]
  | transaction slot tx =>
      obtain ⟨raw, decoded, hitem, hdecoded, htx⟩ := h
      simp [hitem, GeyserTask.onTransaction, hdecoded, htx, group, ← halive]
  | blockMeta header =>
      obtain ⟨info, hitem, hslot, hbuild⟩ := h
      simp only [hitem, GeyserTask.onBlockMeta, hslot, group]
      cases hget : task.transactions[header.slot]? with
      | none => simp [← halive]
      | some collected => simp [hbuild, ← halive]

theorem onEvent_idle {Raw : Type} {decoders : Decoders Raw} {task : GeyserTask}
    {event : StreamEvent Raw}
    (h : event.item = some (.ok none) ∨ event.item = some (.ok (some .other))) :
    task.onEvent decoders event = (task, none) := by
  rw [GeyserTask.onEvent]
  rcases h with hitem | hitem <;> simp [hitem]

/-- On decodable events the task runs as the grouping does. -/
theorem onEvent_simulates {Raw : Type} {decoders : Decoders Raw}
    {events : List (StreamEvent Raw)} {updates : List GeyserUpdate}
    (h : Delivers decoders events updates) (task : GeyserTask)
    (halive : task.alive = true) :
    outputs (GeyserTask.onEvent decoders) task events =
        (outputs group task.transactions updates).map .ok ∧
      stateAfter (GeyserTask.onEvent decoders) task events =
        { transactions := stateAfter group task.transactions updates
          alive := true } := by
  induction h generalizing task with
  | nil => exact ⟨rfl, by simp [stateAfter, ← halive]⟩
  | @cons event update events updates hevent _ ih =>
      have hstep := onEvent_represents halive hevent
      obtain ⟨houtputs, hstate⟩ := ih (task.onEvent decoders event).1 (by rw [hstep])
      rw [hstep] at houtputs hstate
      constructor
      · simp only [outputs, hstep, houtputs, List.map_append]
        cases (group task.transactions update).2 <;> rfl
      · rw [stateAfter, List.foldl_cons, ← stateAfter, hstep, hstate]
        rfl
  | idle hevent _ ih =>
      have hstep := (onEvent_idle hevent : task.onEvent decoders _ = (task, none))
      obtain ⟨houtputs, hstate⟩ := ih task halive
      constructor
      · rw [outputs, hstep]
        exact houtputs
      · rw [stateAfter, List.foldl_cons, ← stateAfter, hstep]
        exact hstate

/-- After the updates `before` the task holds what is pending. -/
def Collects (before : List GeyserUpdate) (transactions : Collected) : Prop :=
  ∀ slot, transactions[slot]? =
    if pending slot before = [] then none else some (pending slot before)

theorem Collects.getD {before : List GeyserUpdate} {transactions : Collected}
    (h : Collects before transactions) (slot : Slot) :
    transactions[slot]?.getD [] = pending slot before := by
  rw [h slot]
  split
  · rename_i hempty
    exact hempty.symm
  · rfl

theorem Collects.step {before : List GeyserUpdate} {transactions : Collected}
    (h : Collects before transactions) (update : GeyserUpdate) :
    (group transactions update).2 = emit before update ∧
      Collects (before ++ [update]) (group transactions update).1 := by
  cases update with
  | status finalized commitment =>
      refine ⟨rfl, fun slot => ?_⟩
      rw [pending_concat, transactionsOf_singleton, List.append_nil]
      cases commitment with
      | processed => exact h slot
      | confirmed => exact h slot
      | finalized =>
          simp only [group, if_true, getElem?_keepFrom, resets]
          by_cases hslot : finalized ≤ slot
          · simp [hslot, not_lt.2 hslot, h slot]
          · simp [hslot, not_le.1 hslot]
  | transaction target tx =>
      refine ⟨rfl, fun slot => ?_⟩
      rw [pending_concat, transactionsOf_singleton]
      simp only [group, getElem?_insert, h.getD, resets]
      by_cases hslot : target = slot
      · subst hslot
        simp
      · simp [hslot, h slot]
  | blockMeta header =>
      have hget := h header.slot
      simp only [group, emit]
      by_cases hpending : pending header.slot before = []
      · rw [if_pos hpending] at hget ⊢
        simp only [hget, true_and]
        intro slot
        rw [pending_concat, transactionsOf_singleton, List.append_nil, h slot]
        by_cases hslot : header.slot = slot
        · subst hslot
          simp [resets, hpending]
        · simp [resets, hslot]
      · rw [if_neg hpending] at hget ⊢
        simp only [hget, true_and]
        intro slot
        rw [pending_concat, transactionsOf_singleton, List.append_nil, getElem?_erase,
          h slot]
        by_cases hslot : header.slot = slot
        · simp [resets, hslot]
        · simp [resets, hslot]

theorem collects_nil : Collects [] ∅ := by
  intro slot
  simp [pending, sinceReset, transactionsOf]

theorem outputs_group (updates : List GeyserUpdate) :
    outputs group ∅ updates = emissions emit updates :=
  outputs_eq_emissions emit collects_nil (fun _ _ update _ h => h.step update)
    (admitted_true updates)

/-! ## What the blocks carry -/

/-- What an update sends and what is pending after it were pending before it, or
came with it. -/
theorem emit_pending_sublist (slot : Slot) (before : List GeyserUpdate)
    (update : GeyserUpdate) :
    ((emit before update).toList.flatMap (transactionsIn slot) ++
        pending slot (before ++ [update])).Sublist
      (pending slot before ++ transactionsOf slot [update]) := by
  rw [pending_concat]
  cases update with
  | status finalized commitment =>
      have hnone : (emit before (.status finalized commitment)).toList.flatMap
          (transactionsIn slot) = [] := rfl
      rw [hnone, List.nil_append]
      split
      · exact List.nil_sublist _
      · exact List.Sublist.refl _
  | transaction target tx => exact List.Sublist.refl _
  | blockMeta header =>
      rw [transactionsOf_singleton, List.append_nil]
      by_cases hslot : header.slot = slot
      · subst hslot
        by_cases hpending : pending header.slot before = [] <;>
          simp [emit, resets, hpending, transactionsIn]
      · have hnone : (emit before (.blockMeta header)).toList.flatMap
            (transactionsIn slot) = [] := by
          by_cases hpending : pending header.slot before = [] <;>
            simp [emit, hpending, transactionsIn, hslot]
        simp [hnone, resets, hslot]

/-- The transactions sent for a slot and those pending are among those that
arrived for it, in order. -/
theorem emitted_sublist (slot : Slot) (updates : List GeyserUpdate) :
    ((emissions emit updates).flatMap (transactionsIn slot) ++
      pending slot updates).Sublist (transactionsOf slot updates) := by
  induction updates using List.reverseRecOn with
  | nil => exact List.Sublist.refl _
  | append_singleton before update ih =>
      rw [emissions_concat, List.flatMap_append, transactionsOf_append,
        List.append_assoc]
      have hlast := (emit_pending_sublist slot before update).append_left
        ((emissions emit before).flatMap (transactionsIn slot))
      rw [← List.append_assoc] at hlast
      have hall := ih.append_right (transactionsOf slot [update])
      rw [List.append_assoc] at hall
      rw [← List.append_assoc]
      exact hlast.trans hall

theorem blocksOf_append (slot : Slot) (front back : List GeyserMessage) :
    blocksOf slot (front ++ back) = blocksOf slot front ++ blocksOf slot back := by
  simp [blocksOf]

/-- Without a `BlockMeta` of a slot no block of it is sent. -/
theorem blocksOf_eq_nil {slot : Slot} {updates : List GeyserUpdate}
    (hnone : ∀ header, .blockMeta header ∈ updates → header.slot ≠ slot)
    (before : List GeyserUpdate) :
    blocksOf slot (emissionsFrom emit before updates) = [] := by
  induction updates generalizing before with
  | nil => rfl
  | cons update updates ih =>
      rw [emissionsFrom, blocksOf_append,
        ih (fun header hmem => hnone header (List.mem_cons_of_mem _ hmem)),
        List.append_nil]
      cases update with
      | status target commitment => rfl
      | transaction target tx => rfl
      | blockMeta header =>
          have hslot := hnone header (List.mem_cons_self ..)
          by_cases hpending : pending header.slot before = [] <;>
            simp [emit, hpending, blocksOf, hslot]

/-- A slot with a transaction has a first one. -/
theorem exists_first_transaction {slot : Slot} {updates : List GeyserUpdate}
    (hsome : transactionsOf slot updates ≠ []) :
    ∃ front tx back, updates = front ++ .transaction slot tx :: back ∧
      transactionsOf slot front = [] := by
  induction updates with
  | nil => exact absurd rfl hsome
  | cons update updates ih =>
      by_cases hfirst : transactionsOf slot [update] = []
      · have hrest : transactionsOf slot updates ≠ [] := fun hrest => by
          rw [← List.singleton_append, transactionsOf_append, hfirst, hrest] at hsome
          exact hsome rfl
        obtain ⟨front, tx, back, hsplit, hfront⟩ := ih hrest
        refine ⟨update :: front, tx, back, by rw [hsplit, List.cons_append], ?_⟩
        rw [← List.singleton_append, transactionsOf_append, hfirst, hfront]
        rfl
      · cases update with
        | status target commitment => exact absurd rfl hfirst
        | blockMeta header => exact absurd rfl hfirst
        | transaction target tx =>
            obtain rfl : target = slot := by
              by_contra hslot
              exact hfirst (by simp [transactionsOf_singleton, hslot])
            exact ⟨[], tx, updates, rfl, rfl⟩

/-- Before the only `BlockMeta` of a slot everything of the slot is pending,
unless a greater slot was finalized after its first transaction. -/
theorem pending_eq_transactionsOf {slot : Slot} {before : List GeyserUpdate}
    (hmeta : ∀ other, .blockMeta other ∈ before → other.slot ≠ slot)
    (hfinalized : ∀ front tx middle, before = front ++ .transaction slot tx :: middle →
      transactionsOf slot front = [] →
      ∀ finalized, .status finalized .finalized ∈ middle → finalized ≤ slot) :
    pending slot before = transactionsOf slot before := by
  by_cases hsome : transactionsOf slot before = []
  · have hsub := transactionsOf_eq_append_pending slot before
    rw [hsome] at hsub ⊢
    exact (List.append_eq_nil_iff.1 hsub.symm).2
  obtain ⟨front, tx, middle, hsplit, hfront⟩ := exists_first_transaction hsome
  have hback : ∀ update ∈ .transaction slot tx :: middle, resets slot update = false := by
    intro update hupdate
    cases update with
    | transaction target other => rfl
    | blockMeta other =>
        have hslot := hmeta other (by rw [hsplit]; exact List.mem_append_right _ hupdate)
        simpa [resets] using hslot
    | status finalized commitment =>
        cases commitment with
        | processed => rfl
        | confirmed => rfl
        | finalized =>
            have hmiddle : .status finalized .finalized ∈ middle := by
              simpa using hupdate
            simpa [resets] using
              hfinalized front tx middle hsplit hfront finalized hmiddle
  have hpending : pending slot front = [] := by
    have hsub := transactionsOf_eq_append_pending slot front
    rw [hfront] at hsub
    exact (List.append_eq_nil_iff.1 hsub.symm).2
  rw [hsplit, pending_append front hback, transactionsOf_append, hpending, hfront]

/-- The only block of a slot carries all its transactions, if they all precede
its `BlockMeta` and no greater slot is finalized in between. -/
theorem blocksOf_emissions {before after : List GeyserUpdate} {header : Block}
    (hmeta : ∀ other, .blockMeta other ∈ before ++ after → other.slot ≠ header.slot)
    (hafter : transactionsOf header.slot after = [])
    (hsome : transactionsOf header.slot before ≠ [])
    (hfinalized : ∀ front tx middle,
      before = front ++ .transaction header.slot tx :: middle →
      transactionsOf header.slot front = [] →
      ∀ finalized, .status finalized .finalized ∈ middle → finalized ≤ header.slot) :
    blocksOf header.slot (emissions emit (before ++ .blockMeta header :: after)) =
      [{ header with
        transactions :=
          transactionsOf header.slot (before ++ .blockMeta header :: after) }] := by
  have hbefore := pending_eq_transactionsOf
    (fun other hmem => hmeta other (List.mem_append_left _ hmem)) hfinalized
  have hfirst : blocksOf header.slot (emissions emit before) = [] :=
    blocksOf_eq_nil (fun other hmem => hmeta other (List.mem_append_left _ hmem)) []
  have hlast : blocksOf header.slot
      (emissionsFrom emit (before ++ [.blockMeta header]) after) = [] :=
    blocksOf_eq_nil (fun other hmem => hmeta other (List.mem_append_right _ hmem)) _
  have hall : transactionsOf header.slot (before ++ .blockMeta header :: after) =
      transactionsOf header.slot before := by
    rw [← List.singleton_append, transactionsOf_append, transactionsOf_append, hafter]
    exact List.append_nil _
  rw [emissions_append, blocksOf_append, hfirst, emissionsFrom, blocksOf_append, hlast,
    hall, List.nil_append, List.append_nil, emit, hbefore, if_neg hsome]
  simp [blocksOf]

/-- After a finalized status nothing is collected for a smaller slot. -/
theorem le_of_mem_stateAfter {before : List GeyserUpdate} {finalized slot : Slot}
    (hslot : slot ∈
      stateAfter group ∅ (before ++ [GeyserUpdate.status finalized .finalized])) :
    finalized ≤ slot := by
  rw [stateAfter_concat] at hslot
  obtain ⟨collected, hget⟩ := (mem_iff_exists _ _).1 hslot
  rw [group, if_pos rfl, getElem?_keepFrom] at hget
  by_contra hlt
  rw [if_neg hlt] at hget
  simp at hget

/-- On decodable events, whatever their order: a block is sent at a `BlockMeta`
exactly when its slot has transactions since its last reset, and with exactly
these; what is sent for a slot is among what arrived for it, in order and once;
an undisturbed slot is sent once with all its transactions; and a finalized
status leaves no smaller slot behind. -/
theorem blocks_carry_pending {Raw : Type} {decoders : Decoders Raw}
    {events : List (StreamEvent Raw)} {updates : List GeyserUpdate}
    (h : Delivers decoders events updates) :
    outputs (GeyserTask.onEvent decoders) .init events =
        (emissions emit updates).map .ok ∧
      (∀ slot, ((emissions emit updates).flatMap (transactionsIn slot)).Sublist
        (transactionsOf slot updates)) ∧
      (∀ before header after, updates = before ++ .blockMeta header :: after →
        (∀ other, .blockMeta other ∈ before ++ after → other.slot ≠ header.slot) →
        transactionsOf header.slot after = [] →
        transactionsOf header.slot before ≠ [] →
        (∀ front tx middle, before = front ++ .transaction header.slot tx :: middle →
          transactionsOf header.slot front = [] →
          ∀ finalized, .status finalized .finalized ∈ middle →
            finalized ≤ header.slot) →
        blocksOf header.slot (emissions emit updates) =
          [{ header with transactions := transactionsOf header.slot updates }]) ∧
      ∀ before finalized, updates = before ++ [.status finalized .finalized] →
        ∀ slot ∈ (stateAfter (GeyserTask.onEvent decoders) .init events).transactions,
          finalized ≤ slot := by
  obtain ⟨houtputs, hstate⟩ := onEvent_simulates h .init rfl
  refine ⟨?_, ?_, ?_, ?_⟩
  · rw [houtputs, GeyserTask.init, outputs_group]
  · intro slot
    exact (List.sublist_append_left _ _).trans (emitted_sublist slot updates)
  · rintro before header after rfl hmeta hafter hsome hfinalized
    exact blocksOf_emissions hmeta hafter hsome hfinalized
  · rintro before finalized rfl slot hslot
    rw [hstate] at hslot
    exact le_of_mem_stateAfter hslot

/-! ## A small stream -/

/-- Decoders for the streams below: a number is a transaction with that number as
its signature and account 1 as its only account. -/
def sampleDecoders : Decoders ℕ where
  isVote _ := false
  createTxWithMeta number := .ok (.complete {
    transaction := ⟨[Fin.ofNat _ number], ⟨⟨1, 0, 0⟩, [1], []⟩⟩
    statusMeta := ⟨5000, ⟨[], []⟩, none⟩ })
  programIds := ⟨11, 12, 13⟩
  deserializeBudget _ := none
  parseHash _ := some 0

/-- What such a number decodes to. -/
def sampleTransaction (number : ℕ) : GeyserTransaction where
  signature := Fin.ofNat _ number
  vote := false
  accounts := ⟨[1], [], [1], 1⟩
  sigsCount := 1
  unitLimit := 0
  unitPrice := 0
  unitsConsumed := none
  fee := 5000

def sampleTransactionEvent (slot : Slot) (number : ℕ) : StreamEvent ℕ where
  item := some (.ok (some (.transaction slot (some number))))
  leader := none

def sampleBlockMetaEvent (slot : Slot) : StreamEvent ℕ where
  item := some (.ok (some (.blockMeta ⟨slot, "hash", some 0, some 1, 0, "parent"⟩)))
  leader := none

theorem represents_sampleTransaction (slot : Slot) (number : ℕ) :
    Represents sampleDecoders (sampleTransactionEvent slot number)
      (.transaction slot (sampleTransaction number)) := by
  refine ⟨number, _, rfl, rfl, ?_⟩
  have haccounts : accountsFrom ⟨⟨1, 0, 0⟩, [1], []⟩ ⟨5000, ⟨[], []⟩, none⟩ =
      .ok ⟨[1], [], [1], 1⟩ := by decide
  have hlimit : min maxComputeUnitLimit (0 * defaultInstructionComputeUnitLimit) = 0 := by
    decide
  have hscan : scanInstructions sampleDecoders.programIds
      sampleDecoders.deserializeBudget ⟨⟨[Fin.ofNat _ number], ⟨⟨1, 0, 0⟩, [1], []⟩⟩,
        ⟨5000, ⟨[], []⟩, none⟩⟩ = ⟨none, 0, 0, 1⟩ := rfl
  rw [transactionFrom, hscan]
  simp only [List.head?_cons, haccounts, Option.getD_none, hlimit]
  rfl

theorem represents_sampleBlockMeta (slot : Slot) :
    Represents sampleDecoders (sampleBlockMetaEvent slot)
      (.blockMeta (.bare slot 0 1 0)) :=
  ⟨_, rfl, rfl, fun _ => rfl⟩

/-- A slot whose block is sent, and one that a finalized status empties. -/
theorem blocks_carry_pending_sample :
    outputs (GeyserTask.onEvent sampleDecoders) .init
        [sampleTransactionEvent 7 1, sampleTransactionEvent 6 2,
          ⟨some (.ok (some (.slot 7 2))), none⟩, sampleBlockMetaEvent 6,
          sampleBlockMetaEvent 7] =
      [.ok (.status 7 .finalized),
        .ok (.slot { Block.bare 7 0 1 0 with transactions := [sampleTransaction 1] })] := by
  have hdelivers : Delivers sampleDecoders
      [sampleTransactionEvent 7 1, sampleTransactionEvent 6 2,
        ⟨some (.ok (some (.slot 7 2))), none⟩, sampleBlockMetaEvent 6,
        sampleBlockMetaEvent 7]
      [.transaction 7 (sampleTransaction 1), .transaction 6 (sampleTransaction 2),
        .status 7 .finalized, .blockMeta (.bare 6 0 1 0), .blockMeta (.bare 7 0 1 0)] :=
    .cons (represents_sampleTransaction 7 1) (.cons
      (represents_sampleTransaction 6 2) (.cons ⟨2, rfl, rfl⟩ (.cons
        (represents_sampleBlockMeta 6) (.cons (represents_sampleBlockMeta 7) .nil))))
  have hemitted : emissions emit
      [.transaction 7 (sampleTransaction 1), .transaction 6 (sampleTransaction 2),
        .status 7 .finalized, .blockMeta (.bare 6 0 1 0), .blockMeta (.bare 7 0 1 0)] =
      [.status 7 .finalized,
        .slot { Block.bare 7 0 1 0 with transactions := [sampleTransaction 1] }] := by
    decide +kernel
  rw [(blocks_carry_pending hdelivers).1, hemitted]
  rfl

end Solfees.Grouping
