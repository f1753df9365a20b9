import ToDoList.CLib.Keyed

/-!
# Bounded queues

A queue takes an item at its end while it is below its limit and gives the
items back in the order in which it took them. `machine` is a family of such
queues, one for each key and each with a limit of its own.
-/

namespace Fifo
open KeyedMachine

variable {κ α : Type*}

inductive Op (α : Type*) where
  | push (a : α)
  | pop
deriving Repr, DecidableEq

inductive Answer (α : Type*) where
  | stored
  | full
  | item (a : α)
  | empty
deriving Repr, DecidableEq

def act (limit : ℕ) : Op α → List α → List α × Answer α
  | .push a, q => if limit ≤ q.length then (q, .full) else (q ++ [a], .stored)
  | .pop, [] => ([], .empty)
  | .pop, a :: q => (q, .item a)

def machine (limit : κ → ℕ) : Machine κ (κ × Op α) (List α) (Answer α) where
  key o := o.1
  act o := act (limit o.1) o.2

/-! ### The order of the items -/

def taken : List ((κ × Op α) × Answer α) → List α :=
  List.filterMap fun
    | ((_, .push a), .stored) => some a
    | _ => none

def given : List ((κ × Op α) × Answer α) → List α :=
  List.filterMap fun
    | (_, .item a) => some a
    | _ => none

/-- What a queue has given and what is still in it are what it has taken, in
one order. -/
theorem given_append (limit : κ → ℕ) (q : List α) (os : List (κ × Op α)) :
    given (cellLog (machine limit) q os) ++ cellRun (machine limit) q os =
      q ++ taken (cellLog (machine limit) q os) := by
  induction os generalizing q with
  | nil => simp [cellLog, cellRun, given, taken]
  | cons o os ih =>
    obtain ⟨k, o⟩ := o
    have hrun : cellRun (machine limit) q ((k, o) :: os) =
        cellRun (machine limit) (act (limit k) o q).1 os := rfl
    have hlog : cellLog (machine limit) q ((k, o) :: os) =
        ((k, o), (act (limit k) o q).2) :: cellLog (machine limit) (act (limit k) o q).1 os := rfl
    have hrest := ih (act (limit k) o q).1
    rw [hrun, hlog]
    cases o with
    | push a =>
      by_cases hfull : limit k ≤ q.length
      · simp only [act, hfull, if_true] at hrest ⊢
        simpa [given, taken] using hrest
      · simp only [act, hfull, if_false] at hrest ⊢
        simpa [given, taken] using hrest
    | pop =>
      cases q with
      | nil =>
        simp only [act] at hrest ⊢
        simpa [given, taken] using hrest
      | cons a q =>
        simp only [act] at hrest ⊢
        simpa [given, taken] using hrest

end Fifo
