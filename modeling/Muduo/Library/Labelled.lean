import Mathlib.Data.List.Basic

/-!
# Labelled items

Items that come from several sources carry the label of theirs.  `part` is what
comes from one source, in order; it is unaffected by items with other labels, so
a list may be cut, merged and moved about without mixing the parts up.
-/

namespace Muduo.Library

universe u v

variable {Label : Type u} {Item : Type v}

/-- The items of one source. -/
def labelled (label : Label) (items : List Item) : List (Label × Item) :=
  items.map (Prod.mk label)

@[simp] theorem map_snd_labelled (label : Label) (items : List Item) :
    (labelled label items).map Prod.snd = items := by
  simp [labelled, Function.comp_def]

theorem fst_of_mem_labelled {label : Label} {items : List Item}
    {item : Label × Item} (member : item ∈ labelled label items) :
    item.1 = label := by
  obtain ⟨_, _, rfl⟩ := List.mem_map.mp member
  rfl

/-- Items that are cut in three like their list without the labels. -/
theorem cut_labelled {whole : List (Label × Item)}
    {first second third : List Item}
    (items : whole.map Prod.snd = first ++ second ++ third) :
    (whole.take first.length).map Prod.snd = first ∧
      ((whole.drop first.length).take second.length).map Prod.snd = second ∧
      (whole.drop (first.length + second.length)).map Prod.snd = third ∧
      whole.take first.length ++ (whole.drop first.length).take second.length ++
        whole.drop (first.length + second.length) = whole := by
  refine ⟨?_, ?_, ?_, ?_⟩
  · rw [List.map_take, items, List.append_assoc, List.take_left]
  · rw [List.map_take, List.map_drop, items, List.append_assoc,
      List.drop_left, List.take_left]
  · rw [List.map_drop, items, ← List.length_append, List.drop_left]
  · rw [← List.drop_drop, List.append_assoc, List.take_append_drop,
      List.take_append_drop]

variable [DecidableEq Label]

/-- What comes from the source with this label. -/
def part (label : Label) (items : List (Label × Item)) : List Item :=
  (items.filter (·.1 = label)).map Prod.snd

@[simp] theorem part_nil (label : Label) :
    part label ([] : List (Label × Item)) = [] := rfl

@[simp] theorem part_append (label : Label)
    (first second : List (Label × Item)) :
    part label (first ++ second) = part label first ++ part label second := by
  simp [part]

theorem part_eq_nil {label : Label} {items : List (Label × Item)} :
    part label items = [] ↔ ∀ item ∈ items, item.1 ≠ label := by
  simp [part, List.filter_eq_nil_iff]

theorem part_labelled (label : Label) (items : List Item) :
    part label (labelled label items) = items := by
  have all : (labelled label items).filter (·.1 = label) =
      labelled label items := by
    apply List.filter_eq_self.mpr
    intro item member
    exact decide_eq_true (fst_of_mem_labelled member)
  rw [part, all, map_snd_labelled]

theorem part_labelled_other {label other : Label} (different : other ≠ label)
    (items : List Item) : part label (labelled other items) = [] := by
  apply part_eq_nil.mpr
  intro item member
  rw [fst_of_mem_labelled member]
  exact different

theorem exists_of_part {label : Label} {items : List (Label × Item)}
    (some : part label items ≠ []) : ∃ item ∈ items, item.1 = label := by
  by_contra none
  apply some
  apply part_eq_nil.mpr
  intro item member same
  exact none ⟨item, member, same⟩

theorem part_eq_nil_of_sublist {label : Label}
    {items others : List (Label × Item)} (sublist : items.Sublist others)
    (none : part label others = []) : part label items = [] := by
  apply part_eq_nil.mpr
  intro item member
  exact part_eq_nil.mp none item (sublist.subset member)

/-- A block comes to the front past blocks with other labels. -/
theorem part_flatMap_eraseIdx {Block : Type*}
    {bytes : Block → List (Label × Item)} {label : Label}
    {blocks : List Block} {index : Nat} (inside : index < blocks.length)
    (apart : blocks.Pairwise fun first second =>
      part label (bytes first) = [] ∨ part label (bytes second) = []) :
    part label (blocks.flatMap bytes) =
      part label (bytes blocks[index]) ++
        part label ((blocks.eraseIdx index).flatMap bytes) := by
  induction blocks generalizing index with
  | nil => simp at inside
  | cons block blocks induction =>
      obtain ⟨others, apart⟩ := List.pairwise_cons.mp apart
      cases index with
      | zero => simp
      | succ index =>
          have inside : index < blocks.length := by simpa using inside
          have rest := induction inside apart
          have two := others blocks[index] (List.getElem_mem inside)
          simp only [List.flatMap_cons, part_append, List.eraseIdx_cons_succ,
            List.getElem_cons_succ, rest]
          rcases two with none | none
          · simp [none]
          · simp [none]

theorem part_cut {label : Label} {first second : List (Label × Item)}
    (none : part label (first ++ second) = []) :
    part label first = [] ∧ part label second = [] := by
  rw [part_append] at none
  exact List.append_eq_nil_iff.mp none

end Muduo.Library
