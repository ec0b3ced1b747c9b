/-!
# Searching a list for a short pattern

`searchIndex` is the position a forward search for a contiguous pattern stops
at: the first occurrence, or the length of the list when there is none.  The
lemmas say how that position behaves when the searched list grows at its end,
which is what a search restarted on a growing buffer relies on.  `cutAt` splits
a list at that position.
-/

namespace Muduo.Library

universe u

variable {α : Type u} [DecidableEq α]

/-- First index at which `pattern` occurs, the length when it does not. -/
def searchIndex (pattern : List α) : List α → Nat
  | [] => 0
  | item :: items =>
      if pattern.isPrefixOf (item :: items) then 0
      else searchIndex pattern items + 1

@[simp] theorem searchIndex_nil (pattern : List α) :
    searchIndex pattern [] = 0 := rfl

theorem searchIndex_cons (pattern : List α) (item : α) (items : List α) :
    searchIndex pattern (item :: items) =
      if pattern <+: item :: items then 0
      else searchIndex pattern items + 1 := by
  simp [searchIndex]

theorem searchIndex_le_length (pattern items : List α) :
    searchIndex pattern items ≤ items.length := by
  induction items with
  | nil => simp
  | cons item items induction =>
      rw [searchIndex_cons]
      split
      · simp
      · simp only [List.length_cons]
        omega

theorem prefix_drop_searchIndex {pattern items : List α}
    (found : searchIndex pattern items < items.length) :
    pattern <+: items.drop (searchIndex pattern items) := by
  induction items with
  | nil => simp at found
  | cons item items induction =>
      rw [searchIndex_cons] at found ⊢
      split
      · next here => simpa using here
      · next later =>
          rw [if_neg later] at found
          simp only [List.length_cons, Nat.add_lt_add_iff_right] at found
          simpa using induction found

/-- A position that the search found stays where it is when the list grows. -/
theorem searchIndex_append_of_lt {pattern items : List α} (more : List α)
    (found : searchIndex pattern items < items.length) :
    searchIndex pattern (items ++ more) = searchIndex pattern items := by
  induction items with
  | nil => simp at found
  | cons item items induction =>
      rw [searchIndex_cons] at found
      rw [List.cons_append, searchIndex_cons, searchIndex_cons]
      by_cases here : pattern <+: item :: items
      · have grown : pattern <+: item :: (items ++ more) :=
          here.trans (List.prefix_append (item :: items) more)
        rw [if_pos here, if_pos grown]
      · rw [if_neg here] at found
        simp only [List.length_cons, Nat.add_lt_add_iff_right] at found
        have fits : pattern.length ≤ items.length := by
          have bound := (prefix_drop_searchIndex found).length_le
          simp only [List.length_drop] at bound
          omega
        have notGrown : ¬ pattern <+: item :: (items ++ more) := by
          intro grown
          apply here
          rw [← List.cons_append] at grown
          exact List.prefix_of_prefix_length_le grown
            (List.prefix_append (item :: items) more)
            (by simp only [List.length_cons]; omega)
        rw [if_neg here, if_neg notGrown, induction found]

/-- A two-item pattern of different items cannot begin inside a list that does
not contain it and end in the copy that follows. -/
theorem searchIndex_append_pair {first second : α} (different : first ≠ second)
    {items : List α} (absent : ¬ [first, second] <:+: items)
    (rest : List α) :
    searchIndex [first, second] (items ++ first :: second :: rest) =
      items.length := by
  induction items with
  | nil => simp [searchIndex_cons]
  | cons item items induction =>
      have tailAbsent : ¬ [first, second] <:+: items := fun occurs =>
        absent (occurs.trans (List.suffix_cons item items).isInfix)
      have notHere :
          ¬ [first, second] <+: item :: (items ++ first :: second :: rest) := by
        intro here
        obtain ⟨rfl, next⟩ := List.cons_prefix_cons.mp here
        cases items with
        | nil =>
            obtain ⟨same, _⟩ := List.cons_prefix_cons.mp next
            exact different same.symm
        | cons other items =>
            obtain ⟨rfl, _⟩ := List.cons_prefix_cons.mp next
            exact absent ⟨[], items, rfl⟩
      rw [List.cons_append, searchIndex_cons, if_neg notHere,
        induction tailAbsent, List.length_cons]

/-- The items before the first occurrence of the pattern and those behind it. -/
def cutAt (pattern items : List α) : Option (List α × List α) :=
  if searchIndex pattern items < items.length then
    some (items.take (searchIndex pattern items),
      items.drop (searchIndex pattern items + pattern.length))
  else none

section Cut

variable {pattern items line rest : List α}

theorem searchIndex_lt_of_cutAt
    (cut : cutAt pattern items = some (line, rest)) :
    searchIndex pattern items < items.length := by
  by_cases found : searchIndex pattern items < items.length
  · exact found
  · simp [cutAt, found] at cut

theorem cutAt_eq_some (cut : cutAt pattern items = some (line, rest)) :
    items = line ++ (pattern ++ rest) ∧
      line.length = searchIndex pattern items := by
  have found := searchIndex_lt_of_cutAt cut
  obtain ⟨behind, split⟩ := prefix_drop_searchIndex found
  obtain ⟨rfl, rfl⟩ : items.take _ = line ∧ items.drop _ = rest := by
    simpa [cutAt, found] using cut
  constructor
  · calc
      items = items.take (searchIndex pattern items) ++
          items.drop (searchIndex pattern items) :=
        (List.take_append_drop _ _).symm
      _ = items.take (searchIndex pattern items) ++ (pattern ++
          items.drop (searchIndex pattern items + pattern.length)) := by
        rw [← List.drop_drop, ← split, List.drop_left]
  · simp only [List.length_take]
    omega

theorem cutAt_append (more : List α)
    (cut : cutAt pattern items = some (line, rest)) :
    cutAt pattern (items ++ more) = some (line, rest ++ more) := by
  obtain ⟨split, length⟩ := cutAt_eq_some cut
  have found := searchIndex_lt_of_cutAt cut
  have same := searchIndex_append_of_lt more found
  have grown : searchIndex pattern items < (items ++ more).length := by
    rw [List.length_append]
    omega
  rw [cutAt, same, if_pos grown, ← length, split, List.append_assoc,
    List.append_assoc, List.take_left, ← List.drop_drop, List.drop_left,
    List.drop_left]

theorem cutAt_pair {first second : α} (different : first ≠ second)
    (absent : ¬ [first, second] <:+: line) (rest : List α) :
    cutAt [first, second] (line ++ first :: second :: rest) =
      some (line, rest) := by
  have found := searchIndex_append_pair different absent rest
  have inside : line.length <
      (line ++ first :: second :: rest).length := by
    simp
  simp only [cutAt, found, if_pos inside, List.take_left]
  rw [← List.drop_drop, List.drop_left]
  rfl

end Cut

omit [DecidableEq α] in
theorem pair_infix_append_cons {first second separator : α}
    (notFirst : separator ≠ first) (notSecond : separator ≠ second)
    {before after : List α}
    (occurs : [first, second] <:+: before ++ separator :: after) :
    [first, second] <:+: before ∨ [first, second] <:+: after := by
  induction before with
  | nil =>
      rcases List.infix_cons_iff.mp occurs with here | later
      · exact (notFirst (List.cons_prefix_cons.mp here).1.symm).elim
      · exact .inr later
  | cons item before induction =>
      rcases List.infix_cons_iff.mp occurs with here | later
      · obtain ⟨rfl, next⟩ := List.cons_prefix_cons.mp here
        cases before with
        | nil =>
            exact (notSecond (List.cons_prefix_cons.mp next).1.symm).elim
        | cons other before =>
            obtain ⟨rfl, _⟩ := List.cons_prefix_cons.mp next
            exact .inl ⟨[], before, rfl⟩
      · rcases induction later with inside | behind
        · exact .inl (inside.trans (List.suffix_cons _ _).isInfix)
        · exact .inr behind

end Muduo.Library
