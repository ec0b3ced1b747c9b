import Mathlib.Order.Lattice
import Mathlib.Data.List.Basic

/-!
# Ordered sets

`OrderedSet` is a set kept as the strictly increasing list of its items, with
the operations of a standard ordered set: insertion tells whether the item is
new, erasure how many items went, and a bound splits the set in two.
-/

namespace Muduo.Library

universe u

structure OrderedSet (α : Type u) [LinearOrder α] where
  items : List α
  sorted : items.Pairwise (· < ·)

namespace OrderedSet

variable {α : Type u} [LinearOrder α]

instance : Membership α (OrderedSet α) where
  mem set item := item ∈ set.items

theorem mem_def {item : α} {set : OrderedSet α} :
    item ∈ set ↔ item ∈ set.items := Iff.rfl

instance (item : α) (set : OrderedSet α) : Decidable (item ∈ set) :=
  inferInstanceAs (Decidable (item ∈ set.items))

def empty : OrderedSet α where
  items := []
  sorted := .nil

theorem not_mem_empty (item : α) : item ∉ (empty : OrderedSet α) :=
  List.not_mem_nil

def size (set : OrderedSet α) : Nat := set.items.length

/-- The least item. -/
def first? (set : OrderedSet α) : Option α := set.items.head?

/-- Insertion into an increasing list. -/
def insertItem (item : α) : List α → List α
  | [] => [item]
  | head :: tail =>
      if item < head then item :: head :: tail
      else if item = head then head :: tail
      else head :: insertItem item tail

theorem mem_insertItem {item other : α} {items : List α} :
    other ∈ insertItem item items ↔ other = item ∨ other ∈ items := by
  induction items with
  | nil => simp [insertItem]
  | cons head tail induction =>
      unfold insertItem
      split
      · simp
      · split
        · next same =>
            subst same
            simp
        · rw [List.mem_cons, induction, List.mem_cons, or_left_comm]

theorem sorted_insertItem (item : α) {items : List α}
    (sorted : items.Pairwise (· < ·)) :
    (insertItem item items).Pairwise (· < ·) := by
  induction items with
  | nil => simp [insertItem]
  | cons head tail induction =>
      obtain ⟨least, rest⟩ := List.pairwise_cons.mp sorted
      unfold insertItem
      split
      · next before =>
          apply List.pairwise_cons.mpr
          refine ⟨?_, sorted⟩
          intro other member
          rcases List.mem_cons.mp member with rfl | later
          · exact before
          · exact before.trans (least other later)
      · next notBefore =>
          split
          · exact sorted
          · next different =>
              apply List.pairwise_cons.mpr
              refine ⟨?_, induction rest⟩
              intro other member
              rcases mem_insertItem.mp member with rfl | later
              · exact lt_of_le_of_ne (not_lt.mp notBefore)
                  (Ne.symm different)
              · exact least other later

theorem perm_insertItem {item : α} {items : List α}
    (fresh : item ∉ items) : (item :: items).Perm (insertItem item items) := by
  induction items with
  | nil => exact .refl _
  | cons head tail induction =>
      simp only [List.mem_cons, not_or] at fresh
      obtain ⟨different, absent⟩ := fresh
      rw [insertItem, if_neg different]
      split
      · exact .refl _
      · exact (List.Perm.swap head item tail).trans
          ((induction absent).cons head)

theorem length_insertItem {item : α} {items : List α}
    (fresh : item ∉ items) :
    (insertItem item items).length = items.length + 1 :=
  (perm_insertItem fresh).length_eq.symm

/-- The set with the item, and whether it is new. -/
def insert (set : OrderedSet α) (item : α) : OrderedSet α × Bool :=
  (⟨insertItem item set.items, sorted_insertItem item set.sorted⟩,
    decide (item ∉ set))

/-- The set without the item, and the number of items erased. -/
def erase (set : OrderedSet α) (item : α) : OrderedSet α × Nat :=
  (⟨set.items.erase item, set.sorted.sublist List.erase_sublist⟩,
    if item ∈ set then 1 else 0)

/-- The items before `bound`, in increasing order. -/
def below (set : OrderedSet α) (bound : α) : List α :=
  set.items.takeWhile (· < bound)

/-- The set from its lower bound for `bound` on. -/
def fromBound (set : OrderedSet α) (bound : α) : OrderedSet α where
  items := set.items.dropWhile (· < bound)
  sorted := set.sorted.sublist (List.dropWhile_sublist _)

variable {set : OrderedSet α} {item other bound : α}

theorem nodup (set : OrderedSet α) : set.items.Nodup :=
  set.sorted.imp fun before => ne_of_lt before

@[simp] theorem mem_insert :
    other ∈ (set.insert item).1 ↔ other = item ∨ other ∈ set :=
  mem_insertItem

@[simp] theorem insert_new : (set.insert item).2 = true ↔ item ∉ set := by
  simp [insert]

theorem items_insert_perm (fresh : item ∉ set) :
    (item :: set.items).Perm (set.insert item).1.items :=
  perm_insertItem fresh

theorem items_erase_perm (member : item ∈ set) :
    set.items.Perm (item :: (set.erase item).1.items) :=
  List.perm_cons_erase member

theorem size_insert (fresh : item ∉ set) :
    (set.insert item).1.size = set.size + 1 :=
  length_insertItem fresh

@[simp] theorem mem_erase :
    other ∈ (set.erase item).1 ↔ other ≠ item ∧ other ∈ set :=
  set.nodup.mem_erase_iff

theorem erase_count (member : item ∈ set) : (set.erase item).2 = 1 :=
  if_pos member

theorem size_erase (member : item ∈ set) :
    (set.erase item).1.size = set.size - 1 :=
  List.length_erase_of_mem member

theorem first?_eq_none : set.first? = none ↔ ∀ item, item ∉ set := by
  rw [first?, List.head?_eq_none_iff]
  exact List.eq_nil_iff_forall_not_mem

theorem mem_of_first? (first : set.first? = some item) : item ∈ set :=
  List.mem_of_mem_head? first

theorem first?_le (first : set.first? = some item) (member : other ∈ set) :
    item ≤ other := by
  obtain ⟨items, sorted⟩ := set
  cases items with
  | nil => cases first
  | cons head tail =>
      obtain rfl : head = item := Option.some.inj first
      rcases List.mem_cons.mp member with rfl | later
      · exact le_refl _
      · exact ((List.pairwise_cons.mp sorted).1 other later).le

private theorem takeWhile_eq_filter {items : List α}
    (sorted : items.Pairwise (· < ·)) (bound : α) :
    items.takeWhile (· < bound) = items.filter (· < bound) := by
  induction items with
  | nil => rfl
  | cons head tail induction =>
      obtain ⟨least, rest⟩ := List.pairwise_cons.mp sorted
      by_cases before : head < bound
      · simp [before, induction rest]
      · have none : tail.filter (· < bound) = [] := by
          apply List.filter_eq_nil_iff.mpr
          intro other member
          have after := least other member
          simpa using (not_lt.mp before).trans after.le
        simp [before, none]

theorem below_eq_filter (set : OrderedSet α) (bound : α) :
    set.below bound = set.items.filter (· < bound) :=
  takeWhile_eq_filter set.sorted bound

theorem mem_below : item ∈ set.below bound ↔ item ∈ set ∧ item < bound := by
  rw [below_eq_filter, List.mem_filter, decide_eq_true_iff, mem_def]

theorem below_append_fromBound (set : OrderedSet α) (bound : α) :
    set.below bound ++ (set.fromBound bound).items = set.items :=
  List.takeWhile_append_dropWhile

theorem mem_fromBound :
    item ∈ set.fromBound bound ↔ item ∈ set ∧ bound ≤ item := by
  have split := set.below_append_fromBound bound
  have distinct : (set.below bound ++ (set.fromBound bound).items).Nodup :=
    split ▸ set.nodup
  obtain ⟨_, _, apart⟩ := List.nodup_append.mp distinct
  constructor
  · intro member
    have inside : item ∈ set := by
      rw [mem_def, ← split]
      exact List.mem_append_right _ member
    refine ⟨inside, not_lt.mp ?_⟩
    intro before
    exact apart item (mem_below.mpr ⟨inside, before⟩) item member rfl
  · rintro ⟨member, after⟩
    rw [mem_def, ← split] at member
    rcases List.mem_append.mp member with first | second
    · exact (not_lt.mpr after (mem_below.mp first).2).elim
    · exact second

theorem size_fromBound (set : OrderedSet α) (bound : α) :
    (set.below bound).length + (set.fromBound bound).size = set.size := by
  rw [size, ← List.length_append, below_append_fromBound, size]

end OrderedSet

end Muduo.Library
