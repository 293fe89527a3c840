import Solfees.Core.Broadcast

/-!
# Broadcast rings

A broadcast channel keeps the latest items of its log, as many as its capacity.  A
receiver gets the item at its position, waits at the end of the log, and is told how
many items it missed if the one it wants is overwritten.
-/

namespace Solfees.Broadcast

variable {Item : Type*}

/-- What a receiver at a position gets and where it goes on; there is nothing while
it waits. -/
def recv (capacity : ℕ) (log : List Item) (closed : Bool) (position : ℕ) :
    Option (Except RecvError Item × ℕ) :=
  if position + capacity < log.length then
    some (.error (.lagged (log.length - capacity - position)), log.length - capacity)
  else
    match log[position]? with
    | some item => some (.ok item, position + 1)
    | none => if closed then some (.error .closed, position) else none

variable {capacity : ℕ} {log : List Item} {closed : Bool} {position next : ℕ}

/-- An item that is got is the one at the position, and it was not overwritten. -/
theorem recv_eq_ok_iff {item : Item} :
    recv capacity log closed position = some (.ok item, next) ↔
      log.length ≤ position + capacity ∧ log[position]? = some item ∧ next = position + 1 := by
  rw [recv]
  split
  next hlagged => simp [not_le.2 hlagged]
  next hlagged =>
    rw [not_lt] at hlagged
    cases hitem : log[position]? with
    | some found => simp [hlagged, eq_comm]
    | none => cases closed <;> simp

/-- A receiver is told that it missed items exactly when the log has outrun it by
more than the capacity. -/
theorem recv_eq_lagged_iff {skipped : ℕ} :
    recv capacity log closed position = some (.error (.lagged skipped), next) ↔
      position + capacity < log.length ∧ skipped = log.length - capacity - position ∧
        next = log.length - capacity := by
  rw [recv]
  split
  next hlagged => simp [hlagged, eq_comm]
  next hlagged =>
    cases log[position]? with
    | some found => simp [hlagged]
    | none => cases closed <;> simp [hlagged]

/-- A channel that is open is not reported as closed. -/
theorem recv_ne_closed : recv capacity log false position ≠ some (.error .closed, next) := by
  rw [recv]
  split
  · simp
  · cases log[position]? <;> simp

/-- The part of a log between two positions. -/
def slice (log : List Item) (start stop : ℕ) : List Item :=
  (log.take stop).drop start

theorem slice_self (log : List Item) (position : ℕ) : slice log position position = [] := by
  rw [slice, List.drop_eq_nil_iff]
  exact List.length_take_le _ _

/-- One more item. -/
theorem slice_succ {start stop : ℕ} {item : Item} (hle : start ≤ stop)
    (hitem : log[stop]? = some item) :
    slice log start (stop + 1) = slice log start stop ++ [item] := by
  obtain ⟨hlt, rfl⟩ := List.getElem?_eq_some_iff.1 hitem
  rw [slice, slice, List.take_add_one, hitem, Option.toList_some, List.drop_append_of_le_length]
  rw [List.length_take_of_le hlt.le]
  exact hle

/-- What was broadcast stays where it is. -/
theorem slice_of_prefix {log' : List Item} (hlog : log <+: log') {start stop : ℕ}
    (hstop : stop ≤ log.length) : slice log' start stop = slice log start stop := by
  obtain ⟨more, rfl⟩ := hlog
  rw [slice, slice, List.take_append_of_le_length hstop]

theorem length_slice {start stop : ℕ} (hstop : stop ≤ log.length) :
    (slice log start stop).length = stop - start := by
  rw [slice, List.length_drop, List.length_take_of_le hstop]

/-- The end of a slice is a slice. -/
theorem eq_slice_of_append {start stop : ℕ} (hstop : stop ≤ log.length) (hle : start ≤ stop)
    {front back : List Item} (h : slice log start stop = front ++ back) :
    start + front.length ≤ stop ∧ back = slice log (start + front.length) stop := by
  have hlength := congrArg List.length h
  rw [length_slice hstop, List.length_append] at hlength
  refine ⟨by omega, ?_⟩
  rw [slice, ← List.drop_drop, ← slice, h, List.drop_left]

end Solfees.Broadcast
