import Mathlib.Data.List.Basic

/-!
# Queues that are emptied in batches

Items are pushed to the end of `pending`.  Their consumer takes over all pending
items at once, as a batch, and then handles the batch from its front.  `Accounts`
relates such a queue to everything that was pushed and everything taken so far.
-/

namespace Muduo.Library

universe u

structure BatchQueue (Item : Type u) where
  batch : List Item
  pending : List Item

namespace BatchQueue

variable {Item : Type u} {queue : BatchQueue Item} {pushed taken : List Item}

/-- The items not yet taken, in the order in which they will be. -/
def waiting (queue : BatchQueue Item) : List Item :=
  queue.batch ++ queue.pending

def push (queue : BatchQueue Item) (item : Item) : BatchQueue Item :=
  { queue with pending := queue.pending ++ [item] }

/-- The consumer takes over the pending items, with no batch left to handle. -/
def swap (queue : BatchQueue Item) : BatchQueue Item :=
  { batch := queue.pending, pending := [] }

theorem waiting_push (queue : BatchQueue Item) (item : Item) :
    (queue.push item).waiting = queue.waiting ++ [item] :=
  (List.append_assoc _ _ _).symm

theorem waiting_swap (handled : queue.batch = []) :
    queue.swap.waiting = queue.waiting := by
  simp [waiting, swap, handled]

/-- Everything pushed was taken or is waiting, in order. -/
def Accounts (queue : BatchQueue Item) (pushed taken : List Item) : Prop :=
  pushed = taken ++ queue.waiting

namespace Accounts

theorem push (accounts : queue.Accounts pushed taken) (item : Item) :
    (queue.push item).Accounts (pushed ++ [item]) taken := by
  unfold Accounts at accounts ⊢
  rw [waiting_push, accounts, List.append_assoc]

theorem swap (accounts : queue.Accounts pushed taken)
    (handled : queue.batch = []) : queue.swap.Accounts pushed taken := by
  unfold Accounts
  rw [waiting_swap handled]
  exact accounts

theorem take (accounts : queue.Accounts pushed taken) {item : Item}
    {batch : List Item} (front : queue.batch = item :: batch) :
    Accounts { queue with batch } pushed (taken ++ [item]) := by
  unfold Accounts at accounts ⊢
  rw [accounts, waiting, waiting, front]
  simp

/-- A batch holds items pushed before it was taken over. -/
theorem batch_prefix (accounts : queue.Accounts pushed taken) :
    taken ++ queue.batch <+: pushed := by
  refine ⟨queue.pending, ?_⟩
  rw [List.append_assoc]
  exact accounts.symm

end Accounts

end BatchQueue

end Muduo.Library
