import Mathlib.Data.Nat.ModEq
import Mathlib.Tactic.Ring

/-!
# Big-endian byte strings

A number is written into a given count of bytes, the most significant byte
first; bits that do not fit are dropped.  A word of whole bytes is read back
from its byte string.
-/

namespace Muduo.Library

namespace BigEndian

/-- The last `count` bytes of `number`. -/
def encode : Nat → Nat → List UInt8
  | 0, _ => []
  | count + 1, number =>
      UInt8.ofNat (number / 256 ^ count) :: encode count number

/-- The number that a byte string writes. -/
def decode : List UInt8 → Nat
  | [] => 0
  | byte :: bytes => byte.toNat * 256 ^ bytes.length + decode bytes

@[simp] theorem length_encode (count number : Nat) :
    (encode count number).length = count := by
  induction count with
  | zero => rfl
  | succ count induction => simp [encode, induction]

theorem decode_lt (bytes : List UInt8) : decode bytes < 256 ^ bytes.length := by
  induction bytes with
  | nil => simp [decode]
  | cons byte bytes induction =>
      have small : byte.toNat + 1 ≤ 256 := byte.toNat_lt
      calc decode (byte :: bytes)
          < byte.toNat * 256 ^ bytes.length + 256 ^ bytes.length :=
            Nat.add_lt_add_left induction _
        _ = (byte.toNat + 1) * 256 ^ bytes.length := by ring
        _ ≤ 256 * 256 ^ bytes.length := Nat.mul_le_mul_right _ small
        _ = 256 ^ (byte :: bytes).length := by
            rw [List.length_cons, pow_succ, mul_comm]

/-- Writing and reading keeps what fits. -/
theorem decode_encode (count number : Nat) :
    decode (encode count number) = number % 256 ^ count := by
  induction count with
  | zero => simp [encode, decode, Nat.mod_one]
  | succ count induction =>
      have byte : (UInt8.ofNat (number / 256 ^ count)).toNat =
          number / 256 ^ count % 256 := UInt8.toNat_ofNat'
      calc decode (encode (count + 1) number)
          = number / 256 ^ count % 256 * 256 ^ count +
              number % 256 ^ count := by
            simp only [encode, decode, length_encode, induction, byte]
        _ = number % 256 ^ count +
              256 ^ count * (number / 256 ^ count % 256) := by ring
        _ = number % 256 ^ (count + 1) := by
            rw [pow_succ, Nat.mod_mul]

theorem encode_add_mul (count number high : Nat) :
    encode count (number + high * 256 ^ count) = encode count number := by
  induction count generalizing high with
  | zero => rfl
  | succ count induction =>
      have shifted : number + high * 256 ^ (count + 1) =
          number + high * 256 * 256 ^ count := by ring
      have positive : 0 < 256 ^ count := Nat.pow_pos (Nat.succ_pos 255)
      simp only [encode]
      rw [shifted, induction, Nat.add_mul_div_right _ _ positive]
      congr 1
      apply UInt8.toNat_inj.mp
      simp

/-- Reading and writing gives the bytes back. -/
theorem encode_decode (bytes : List UInt8) :
    encode bytes.length (decode bytes) = bytes := by
  induction bytes with
  | nil => rfl
  | cons byte bytes induction =>
      have below := decode_lt bytes
      have positive : 0 < 256 ^ bytes.length := Nat.pow_pos (Nat.succ_pos 255)
      have first : decode (byte :: bytes) / 256 ^ bytes.length =
          byte.toNat := by
        rw [decode, Nat.mul_comm, Nat.mul_add_div positive,
          Nat.div_eq_of_lt below, Nat.add_zero]
      have rest : encode bytes.length (decode (byte :: bytes)) = bytes := by
        rw [decode, Nat.add_comm, encode_add_mul, induction]
      rw [List.length_cons, encode, first, rest, UInt8.ofNat_toNat]

/-- The bytes of a word. -/
def ofWord {count : Nat} (word : BitVec (8 * count)) : List UInt8 :=
  encode count word.toNat

/-- The word that `count` bytes write. -/
def toWord (count : Nat) (bytes : List UInt8) : BitVec (8 * count) :=
  BitVec.ofNat (8 * count) (decode bytes)

@[simp] theorem length_ofWord {count : Nat} (word : BitVec (8 * count)) :
    (ofWord word).length = count := length_encode _ _

theorem two_pow_eight_mul (count : Nat) : 2 ^ (8 * count) = 256 ^ count := by
  rw [pow_mul]
  norm_num

@[simp] theorem toWord_ofWord {count : Nat} (word : BitVec (8 * count)) :
    toWord count (ofWord word) = word := by
  apply BitVec.eq_of_toNat_eq
  have fits : word.toNat < 256 ^ count := by
    rw [← two_pow_eight_mul]
    exact word.isLt
  simp [toWord, ofWord, decode_encode, Nat.mod_eq_of_lt fits]

theorem ofWord_toWord {count : Nat} {bytes : List UInt8}
    (size : bytes.length = count) : ofWord (toWord count bytes) = bytes := by
  subst size
  have fits : decode bytes < 2 ^ (8 * bytes.length) := by
    rw [two_pow_eight_mul]
    exact decode_lt bytes
  simp only [ofWord, toWord, BitVec.toNat_ofNat, Nat.mod_eq_of_lt fits,
    encode_decode]

/-- Two's complement: a word is written as its signed value modulo the number
of words. -/
theorem ofWord_eq_encode_toInt {count : Nat} (word : BitVec (8 * count)) :
    ofWord word = encode count (word.toInt % 256 ^ count).toNat := by
  have modulus : (256 : Int) ^ count = ((2 ^ (8 * count) : Nat) : Int) := by
    rw [two_pow_eight_mul]
    norm_cast
  rw [modulus, BitVec.toInt_eq_toNat_bmod, Int.bmod_emod, Int.emod_eq_of_lt,
    Int.toNat_natCast, ofWord]
  · exact Int.natCast_nonneg _
  · exact_mod_cast word.isLt

end BigEndian

end Muduo.Library
