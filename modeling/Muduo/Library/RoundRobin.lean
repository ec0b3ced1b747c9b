import Mathlib.Data.Int.CardIntervalMod
import Mathlib.Data.List.Nodup

/-!
# Taking turns

`cycle items count` is what `count` turns take from `items`, which are taken in
order and again from the front when they are through.  No item is taken two more
times than another.
-/

namespace Muduo.Library

universe u

variable {Item : Type u}

def cycle (items : List Item) (count : Nat) : List Item :=
  (List.range count).filterMap fun turn => items[turn % items.length]?

theorem cycle_succ (items : List Item) (count : Nat) :
    cycle items (count + 1) =
      cycle items count ++ items[count % items.length]?.toList := by
  unfold cycle
  rw [List.range_succ, List.filterMap_append]
  simp only [List.filterMap_cons, List.filterMap_nil]
  cases items[count % items.length]? with
  | none => rfl
  | some item => rfl

theorem exists_turn {items : List Item} (some : items ≠ []) (turn : Nat) :
    ∃ item, items[turn % items.length]? = .some item := by
  have inside : turn % items.length < items.length :=
    Nat.mod_lt _ (List.length_pos_of_ne_nil some)
  exact ⟨_, List.getElem?_eq_getElem inside⟩

variable [DecidableEq Item]

/-- How often an item is taken. -/
theorem count_cycle {items : List Item} (distinct : items.Nodup)
    {index : Nat} {item : Item} (here : items[index]? = some item)
    (count : Nat) :
    (cycle items count).count item =
      count / items.length + if index < count % items.length then 1 else 0 := by
  obtain ⟨inside, _⟩ := List.getElem?_eq_some_iff.mp here
  have positive : 0 < items.length := by omega
  have taken : (cycle items count).count item =
      Nat.count (fun turn => turn ≡ index [MOD items.length]) count := by
    induction count with
    | zero => rfl
    | succ count induction =>
        obtain ⟨other, taken⟩ :=
          exists_turn (List.ne_nil_of_length_pos positive) count
        rw [cycle_succ, List.count_append, induction, Nat.count_succ, taken]
        have same : other = item ↔ count ≡ index [MOD items.length] := by
          rw [Nat.ModEq, Nat.mod_eq_of_lt inside]
          constructor
          · rintro rfl
            exact (List.getElem?_inj
              (Nat.mod_lt _ positive) distinct).mp (taken.trans here.symm)
          · intro equal
            rw [equal, here] at taken
            exact (Option.some.inj taken).symm
        by_cases turn : other = item
        · simp [turn, same.mp turn]
        · simp [turn, same.not.mp turn]
  rw [taken, Nat.count_modEq_card _ positive, Nat.mod_eq_of_lt inside]

theorem count_cycle_le {items : List Item} (distinct : items.Nodup)
    {first second : Item} (one : first ∈ items) (other : second ∈ items)
    (count : Nat) :
    (cycle items count).count first ≤ (cycle items count).count second + 1 := by
  obtain ⟨_, here⟩ := List.mem_iff_getElem?.mp one
  obtain ⟨_, there⟩ := List.mem_iff_getElem?.mp other
  rw [count_cycle distinct here, count_cycle distinct there]
  split <;> split <;> omega

end Muduo.Library
