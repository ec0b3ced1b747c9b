import Muduo.Base.Buffer
import Mathlib.Algebra.Ring.Nat

/-!
# Numbers in decimal

`printf` writes a natural number by its decimal digits, and pads it with zeros
in front where a width is given (`%04d`).
-/

namespace Muduo

theorem ascii_toString (n : Nat) :
    ascii (toString n) = (Nat.toDigits 10 n).map Char.toUInt8 := by
  simp [ascii]

theorem toUInt8_digit {c : Char} (digit : c.isDigit = true) :
    48 ≤ c.toNat ∧ c.toNat ≤ 57 ∧ c.toUInt8.toNat = c.toNat := by
  simp only [Char.isDigit, Bool.and_eq_true, decide_eq_true_eq] at digit
  have low : 48 ≤ c.toNat := UInt32.le_iff_toNat_le.mp digit.1
  have high : c.toNat ≤ 57 := UInt32.le_iff_toNat_le.mp digit.2
  have same : c.toUInt8.toNat = c.toNat % 2 ^ 8 := UInt32.toNat_toUInt8 c.val
  omega

theorem isDigit_of_mem {n : Nat} {c : Char}
    (member : c ∈ Nat.toDigits 10 n) : c.isDigit = true :=
  Nat.isDigit_of_mem_toDigits (by decide) (by decide) member

theorem digit_of_mem {n : Nat} {c : Byte} (member : c ∈ ascii (toString n)) :
    48 ≤ c.toNat ∧ c.toNat ≤ 57 := by
  rw [ascii_toString] at member
  obtain ⟨digit, inside, rfl⟩ := List.mem_map.mp member
  obtain ⟨low, high, same⟩ := toUInt8_digit (isDigit_of_mem inside)
  omega

theorem notMem_toString {c : Byte} (other : c.toNat < 48 ∨ 57 < c.toNat)
    (n : Nat) : c ∉ ascii (toString n) := by
  intro member
  have digit := digit_of_mem member
  omega

theorem length_toString_le {n digits : Nat} (positive : 0 < digits)
    (bound : n < 10 ^ digits) : (ascii (toString n)).length ≤ digits := by
  rw [ascii_toString, List.length_map]
  exact (Nat.length_toDigits_le_iff (by decide) positive).mpr bound

/-- `%0<width>d` -/
def padded (width n : Nat) : List Byte :=
  List.replicate (width - (ascii (toString n)).length) 48 ++ ascii (toString n)

theorem length_padded {width n : Nat} (positive : 0 < width)
    (bound : n < 10 ^ width) : (padded width n).length = width := by
  have fits := length_toString_le positive bound
  simp only [padded, List.length_append, List.length_replicate]
  omega

theorem digit_of_mem_padded {width n : Nat} {c : Byte}
    (member : c ∈ padded width n) : 48 ≤ c.toNat ∧ c.toNat ≤ 57 := by
  rcases List.mem_append.mp member with zero | digit
  · rw [List.eq_of_mem_replicate zero]
    decide
  · exact digit_of_mem digit

end Muduo
