import Mathlib

/-!
# Receivers of a broadcast

A broadcast keeps its items in one log.  A receiver reads them in order from
its position; when items it has not read are overwritten it is told how many,
and goes on after them.  A receiver that stops at the first such report has read
a segment of the log.
-/

namespace Solfees.Broadcast

variable {Item : Type*}

/-- `broadcast::error::RecvError`. -/
inductive RecvError
  | closed
  | lagged (skipped : ℕ)
  deriving DecidableEq, Repr

/-- The results that a receiver at a position of the log can get. -/
inductive Reads (log : List Item) : ℕ → List (Except RecvError Item) → Prop
  | done (position : ℕ) : Reads log position []
  | next {position : ℕ} {item : Item} {results : List (Except RecvError Item)}
      (hitem : log[position]? = some item)
      (hrest : Reads log (position + 1) results) :
      Reads log position (.ok item :: results)
  | lagged {position : ℕ} (skipped : ℕ) {results : List (Except RecvError Item)}
      (hrest : Reads log (position + skipped) results) :
      Reads log position (.error (.lagged skipped) :: results)
  | closed {position : ℕ} {results : List (Except RecvError Item)}
      (hrest : Reads log position results) :
      Reads log position (.error .closed :: results)

/-- The items among the results. -/
def items (results : List (Except RecvError Item)) : List Item :=
  results.filterMap Except.toOption

/-- Nothing is read after an error. -/
def StopsAtError (results : List (Except RecvError Item)) : Prop :=
  ∀ before error after, results = before ++ .error error :: after → after = []

theorem StopsAtError.tail {result : Except RecvError Item}
    {results : List (Except RecvError Item)} (h : StopsAtError (result :: results)) :
    StopsAtError results := by
  intro before error after hsplit
  apply h (result :: before) error after
  rw [hsplit, List.cons_append]

theorem items_error (error : RecvError) :
    items [(.error error : Except RecvError Item)] = [] := rfl

/-- A receiver that stops at its first error has read a segment of the log. -/
theorem items_prefix_of_reads {log : List Item} {position : ℕ}
    {results : List (Except RecvError Item)} (h : Reads log position results)
    (hstops : StopsAtError results) : items results <+: log.drop position := by
  induction h with
  | done position => exact List.nil_prefix
  | @next position item results hitem hrest ih =>
      obtain ⟨hlt, rfl⟩ := List.getElem?_eq_some_iff.1 hitem
      rw [List.drop_eq_getElem_cons hlt]
      change log[position] :: items results <+: _
      rw [List.cons_prefix_cons]
      exact ⟨rfl, ih hstops.tail⟩
  | lagged skipped hrest ih =>
      rw [hstops [] _ _ rfl, items_error]
      exact List.nil_prefix
  | closed hrest ih =>
      rw [hstops [] _ _ rfl, items_error]
      exact List.nil_prefix

end Solfees.Broadcast
