/-!
# Windows of a list

A window is the half-open range of positions between two indices.  Overwriting
and resizing are the two ways an array changes in place; the lemmas say what a
window of the changed array holds.
-/

namespace Muduo.Library

universe u

variable {α : Type u}

/-- The items at positions `first`, ..., `last - 1`. -/
def window (items : List α) (first last : Nat) : List α :=
  (items.take last).drop first

/-- Replace the items from position `start` on by `data`. -/
def overwrite (items : List α) (start : Nat) (data : List α) : List α :=
  items.take start ++ data ++ items.drop (start + data.length)

/-- Cut to `size`, or pad with `fill` up to it. -/
def resize (items : List α) (size : Nat) (fill : α) : List α :=
  items.take size ++ List.replicate (size - items.length) fill

@[simp] theorem window_self (items : List α) (index : Nat) :
    window items index index = [] := by
  simp [window]

theorem length_window {items : List α} {first last : Nat}
    (bound : last ≤ items.length) :
    (window items first last).length = last - first := by
  simp only [window, List.length_drop, List.length_take]
  omega

@[simp] theorem drop_window (items : List α) (first last count : Nat) :
    (window items first last).drop count =
      window items (first + count) last := by
  simp [window, List.drop_drop]

theorem take_window {first last count : Nat} (items : List α)
    (fits : first + count ≤ last) :
    (window items first last).take count =
      window items first (first + count) := by
  simp only [window, List.take_drop, List.take_take]
  rw [Nat.min_eq_left fits]

theorem getD_of_window {items : List α} {index : Nat} {item fill : α}
    (single : window items index (index + 1) = [item]) :
    items.getD index fill = item := by
  have first : (window items index (index + 1))[0]? = some item := by
    rw [single]
    rfl
  have found : items[index]? = some item := by
    simpa [window, List.getElem?_drop, List.getElem?_take] using first
  rw [List.getD_eq_getElem?_getD, found, Option.getD_some]

@[simp] theorem length_resize {items : List α} {size : Nat} {fill : α}
    (grows : items.length ≤ size) :
    (resize items size fill).length = size := by
  simp only [resize, List.length_append, List.length_take,
    List.length_replicate]
  omega

theorem window_resize {items : List α} {first last size : Nat} {fill : α}
    (bound : last ≤ items.length) (grows : items.length ≤ size) :
    window (resize items size fill) first last = window items first last := by
  have same : (resize items size fill).take last = items.take last := by
    rw [resize, List.take_of_length_le grows,
      List.take_append_of_le_length bound]
  simp only [window, same]

theorem length_overwrite {items data : List α} {start : Nat}
    (fits : start + data.length ≤ items.length) :
    (overwrite items start data).length = items.length := by
  simp only [overwrite, List.length_append, List.length_take,
    List.length_drop]
  omega

theorem take_overwrite {items data : List α} {start : Nat}
    (fits : start + data.length ≤ items.length) :
    (overwrite items start data).take (start + data.length) =
      items.take start ++ data := by
  rw [overwrite]
  apply List.take_left'
  simp only [List.length_append, List.length_take]
  omega

/-- Overwriting at the end of a window extends it by the data. -/
theorem window_overwrite_end {items data : List α} {first last : Nat}
    (ordered : first ≤ last) (fits : last + data.length ≤ items.length) :
    window (overwrite items last data) first (last + data.length) =
      window items first last ++ data := by
  rw [window, take_overwrite fits, List.drop_append_of_le_length]
  · rfl
  · simp only [List.length_take]
    omega

theorem window_overwrite_front {items data : List α} {start last : Nat}
    (ordered : start + data.length ≤ last) (bound : last ≤ items.length) :
    window (overwrite items start data) start last =
      data ++ window items (start + data.length) last := by
  have split : overwrite items start data =
      items.take start ++ (data ++ items.drop (start + data.length)) := by
    simp [overwrite]
  have front : (items.take start).length = start := by
    simp only [List.length_take]
    omega
  have tail : last - start - data.length = last - (start + data.length) := by
    omega
  rw [window, split, List.take_append, front, List.take_take,
    Nat.min_eq_right (by omega), List.drop_left' front, List.take_append,
    List.take_of_length_le (show data.length ≤ last - start by omega), tail,
    window, List.drop_take]

theorem window_overwrite_self {items data : List α} {start : Nat}
    (fits : start + data.length ≤ items.length) :
    window (overwrite items start data) start (start + data.length) =
      data := by
  have extended := window_overwrite_end (Nat.le_refl start) fits
  simpa using extended

end Muduo.Library
