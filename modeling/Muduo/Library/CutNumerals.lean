import Mathlib.Algebra.Order.Ring.Nat

/-!
# Numerals cut to a width

A writer with room for a fixed number of digits keeps the front of a numeral.  The
numerals from one to `n` stay apart under this cut exactly if the last one fits.
-/

namespace Muduo.Library

variable {base room n : Nat}

/-- The digits of a number as far as there is room for them. -/
def cutNumeral (base room n : Nat) : List Char := (Nat.toDigits base n).take room

theorem cutNumeral_of_length_le
    (fits : (Nat.toDigits base n).length ≤ room) :
    cutNumeral base room n = Nat.toDigits base n :=
  List.take_of_length_le fits

theorem toDigits_injective (atLeast : 1 < base) (atMost : base ≤ 10)
    {first second : Nat}
    (same : Nat.toDigits base first = Nat.toDigits base second) :
    first = second := by
  have values := congrArg (fun digits => Nat.ofDigitChars base digits 0) same
  simpa only [Nat.ofDigitChars_toDigits atLeast atMost] using values

theorem length_toDigits_mono (atLeast : 1 < base) {smaller greater : Nat}
    (le : smaller ≤ greater) :
    (Nat.toDigits base smaller).length ≤ (Nat.toDigits base greater).length := by
  have positive : 0 < (Nat.toDigits base greater).length :=
    Nat.length_toDigits_pos
  apply (Nat.length_toDigits_le_iff atLeast positive).mpr
  exact Nat.lt_of_le_of_lt le
    ((Nat.length_toDigits_le_iff atLeast positive).mp (Nat.le_refl _))

theorem length_toDigits_pow (atLeast : 1 < base) (exponent : Nat) :
    (Nat.toDigits base (base ^ exponent)).length = exponent + 1 := by
  apply Nat.le_antisymm
  · apply (Nat.length_toDigits_le_iff atLeast (Nat.succ_pos _)).mpr
    exact Nat.pow_lt_pow_right atLeast (Nat.lt_succ_self _)
  · cases exponent with
    | zero => exact Nat.length_toDigits_pos
    | succ exponent =>
        apply Nat.lt_of_not_le
        intro short
        have bound := (Nat.length_toDigits_le_iff atLeast
          (Nat.succ_pos exponent)).mp short
        exact Nat.lt_irrefl _ bound

/-- Powers of the base next to each other differ in their last digit alone. -/
theorem cutNumeral_pow (atLeast : 1 < base) (exponent : Nat) :
    cutNumeral base (exponent + 1) (base ^ (exponent + 1)) =
      cutNumeral base (exponent + 1) (base ^ exponent) := by
  have positive : 0 < base ^ exponent :=
    Nat.pow_pos (Nat.lt_of_succ_lt atLeast)
  have digits := Nat.toDigits_append_toDigits atLeast positive
    (Nat.lt_of_succ_lt atLeast)
  rw [Nat.add_zero, Nat.mul_comm, ← Nat.pow_succ] at digits
  have length := length_toDigits_pow atLeast exponent
  rw [cutNumeral, ← digits, cutNumeral_of_length_le (Nat.le_of_eq length),
    List.take_left' length]

/-- The cut keeps the numerals up to `n` apart exactly if it leaves the last one as
it is. -/
theorem cutNumeral_apart_iff (atLeast : 1 < base) (atMost : base ≤ 10) :
    (∀ first second, 0 < first → first ≤ n → 0 < second → second ≤ n →
      cutNumeral base room first = cutNumeral base room second →
        first = second) ↔
      n ≤ 1 ∨ (Nat.toDigits base n).length ≤ room := by
  constructor
  · intro apart
    by_cases few : n ≤ 1
    · exact .inl few
    · right
      apply Nat.le_of_not_lt
      intro long
      cases room with
      | zero =>
          have same := apart 1 2 (by decide) (by omega) (by decide) (by omega) rfl
          omega
      | succ room =>
          have reached : base ^ (room + 1) ≤ n := by
            apply Nat.le_of_not_lt
            intro below
            have short := (Nat.length_toDigits_le_iff atLeast
              (Nat.succ_pos room)).mpr below
            omega
          have smaller : base ^ room < base ^ (room + 1) :=
            Nat.pow_lt_pow_right atLeast (Nat.lt_succ_self _)
          have positive : 0 < base ^ room :=
            Nat.pow_pos (Nat.lt_of_succ_lt atLeast)
          have same := apart (base ^ (room + 1)) (base ^ room)
            (Nat.lt_trans positive smaller) reached positive (by omega)
            (cutNumeral_pow atLeast room)
          omega
  · intro fits first second firstPositive firstLe secondPositive secondLe same
    rcases fits with few | short
    · omega
    · have firstFits := (length_toDigits_mono atLeast firstLe).trans short
      have secondFits := (length_toDigits_mono atLeast secondLe).trans short
      rw [cutNumeral_of_length_le firstFits,
        cutNumeral_of_length_le secondFits] at same
      exact toDigits_injective atLeast atMost same

end Muduo.Library
