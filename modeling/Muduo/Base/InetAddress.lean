import Muduo.Base.Decimal

/-!
# Socket addresses as text

`InetAddress::toIpPort` with the texts of `inet_ntop`.  For IPv6 that is eight
hexadecimal groups, of which the longest run of zeros, the first of equally long
ones, is left out between two colons.
-/

namespace Muduo

/-- An address with its port. -/
inductive InetAddress where
  | ipv4 (a b c d : Byte) (port : UInt16)
  | ipv6 (words : Vector UInt16 8) (port : UInt16)
  deriving DecidableEq

/-- `%x` -/
def hexadecimal (n : Nat) : List Byte := (Nat.toDigits 16 n).map Char.toUInt8

/-- `inet_ntop4` -/
def inetNtop4 (a b c d : Byte) : List Byte :=
  ascii (toString a.toNat) ++ ascii "." ++ ascii (toString b.toNat) ++ ascii "." ++
    ascii (toString c.toNat) ++ ascii "." ++ ascii (toString d.toNat)

/-- A run of words that are zero. -/
structure ZeroRun where
  base : Nat
  len : Nat
  deriving DecidableEq

namespace ZeroRun

def covers (run : ZeroRun) (index : Nat) : Bool :=
  run.base ≤ index ∧ index < run.base + run.len

/-- The run under way takes the place of a shorter one. -/
def longer : Option ZeroRun → Option ZeroRun → Option ZeroRun
  | best, none => best
  | none, some cur => some cur
  | some best, some cur => if best.len < cur.len then some cur else some best

def extend (index : Nat) : Option ZeroRun → ZeroRun
  | none => { base := index, len := 1 }
  | some cur => { cur with len := cur.len + 1 }

def scan (best cur : Option ZeroRun) (index : Nat) :
    List UInt16 → Option ZeroRun
  | [] => longer best cur
  | word :: words =>
      if word = 0 then scan best (some (extend index cur)) (index + 1) words
      else scan (longer best cur) none (index + 1) words

/-- A single zero is written out. -/
def best (words : List UInt16) : Option ZeroRun :=
  (scan none none 0 words).filter (2 ≤ ·.len)

end ZeroRun

/-- The loop of `inet_ntop6`; `embedded` is an IPv4 address at the end, which ends
the loop. -/
def groups (best : Option ZeroRun) (embedded : Option (List Byte)) (index : Nat) :
    List UInt16 → List Byte
  | [] => []
  | word :: words =>
      if best.any (·.covers index) then
        (if best.any (·.base = index) then ascii ":" else []) ++
          groups best embedded (index + 1) words
      else
        (if index = 0 then [] else ascii ":") ++
          match embedded with
          | some text =>
              if index = 6 then text
              else hexadecimal word.toNat ++ groups best embedded (index + 1) words
          | none =>
              hexadecimal word.toNat ++ groups best embedded (index + 1) words

/-- An IPv4 address follows six zeros, or five and a word of ones. -/
def embeddedIpv4 (words : Vector UInt16 8) (best : Option ZeroRun) :
    Option (List Byte) :=
  if best = some ⟨0, 6⟩ ∨ (best = some ⟨0, 5⟩ ∧ words[5] = 0xffff) then
    some (inetNtop4 (words[6] >>> 8).toUInt8 words[6].toUInt8
      (words[7] >>> 8).toUInt8 words[7].toUInt8)
  else none

def inetNtop6 (words : Vector UInt16 8) : List Byte :=
  let best := ZeroRun.best words.toList
  groups best (embeddedIpv4 words best) 0 words.toList ++
    if best.any (fun run => run.base + run.len = 8) then ascii ":" else []

namespace InetAddress

def inetNtop : InetAddress → List Byte
  | ipv4 a b c d _ => inetNtop4 a b c d
  | ipv6 words _ => inetNtop6 words

def port : InetAddress → UInt16
  | ipv4 _ _ _ _ port | ipv6 _ port => port

/-- The text in an array of 64 bytes, less the final zero. -/
def toIpPort (address : InetAddress) : List Byte :=
  (address.inetNtop ++ ascii ":" ++ ascii (toString address.port.toNat)).take 63

end InetAddress

theorem length_hexadecimal_le (word : UInt16) :
    (hexadecimal word.toNat).length ≤ 4 := by
  rw [hexadecimal, List.length_map]
  exact (Nat.length_toDigits_le_iff (by decide) (by decide)).mpr word.toNat_lt

theorem length_inetNtop4_le (a b c d : Byte) :
    (inetNtop4 a b c d).length ≤ 15 := by
  have short : ∀ byte : Byte, (ascii (toString byte.toNat)).length ≤ 3 := by
    intro byte
    apply length_toString_le (by decide)
    exact Nat.lt_trans byte.toNat_lt (by decide)
  have dot : (ascii ".").length = 1 := rfl
  have first := short a
  have second := short b
  have third := short c
  have fourth := short d
  simp only [inetNtop4, List.length_append, dot]
  omega

theorem length_groups_le (best : Option ZeroRun) {embedded : Option (List Byte)}
    (short : ∀ text ∈ embedded, text.length ≤ 15) (words : List UInt16)
    (index : Nat) :
    (groups best embedded index words).length ≤ 5 * words.length + 16 := by
  have colon : (ascii ":").length = 1 := rfl
  induction words generalizing index with
  | nil => simp [groups]
  | cons word words induction =>
      have rest := induction (index + 1)
      have digits := length_hexadecimal_le word
      have separator :
          (if index = 0 then [] else ascii ":").length ≤ 1 := by
        split <;> simp [colon]
      simp only [groups, List.length_cons]
      generalize (if index = 0 then [] else ascii ":") = front at separator ⊢
      split
      · rw [List.length_append]
        split <;> simp only [colon, List.length_nil] <;> omega
      · rw [List.length_append]
        cases embedded with
        | none =>
            simp only [List.length_append]
            omega
        | some text =>
            have textShort := short text rfl
            simp only
            split
            · omega
            · rw [List.length_append]
              omega

theorem length_inetNtop6_le (words : Vector UInt16 8) :
    (inetNtop6 words).length ≤ 57 := by
  have short : ∀ text ∈ embeddedIpv4 words (ZeroRun.best words.toList),
      text.length ≤ 15 := by
    intro text member
    unfold embeddedIpv4 at member
    split at member
    · cases member
      exact length_inetNtop4_le _ _ _ _
    · cases member
  have bound := length_groups_le (ZeroRun.best words.toList) short words.toList 0
  have colon : (ascii ":").length = 1 := rfl
  rw [Vector.length_toList] at bound
  simp only [inetNtop6, List.length_append]
  split <;> simp only [colon, List.length_nil] <;> omega

namespace InetAddress

theorem length_port_le (address : InetAddress) :
    (ascii (toString address.port.toNat)).length ≤ 5 := by
  apply length_toString_le (by decide)
  exact Nat.lt_trans address.port.toNat_lt (by decide)

/-- The array takes every text whole. -/
theorem toIpPort_eq (address : InetAddress) :
    address.toIpPort =
      address.inetNtop ++ ascii ":" ++ ascii (toString address.port.toNat) := by
  apply List.take_of_length_le
  have portShort := address.length_port_le
  have colon : (ascii ":").length = 1 := rfl
  rw [List.length_append, List.length_append, colon]
  cases address with
  | ipv4 a b c d port =>
      have short := length_inetNtop4_le a b c d
      simp only [inetNtop]
      omega
  | ipv6 words port =>
      have short := length_inetNtop6_le words
      simp only [inetNtop]
      omega

theorem length_toIpPort_ipv4_le (a b c d : Byte) (port : UInt16) :
    (ipv4 a b c d port).toIpPort.length ≤ 21 := by
  have short := length_inetNtop4_le a b c d
  have portShort := (ipv4 a b c d port).length_port_le
  have colon : (ascii ":").length = 1 := rfl
  rw [toIpPort_eq, List.length_append, List.length_append, colon]
  simp only [inetNtop]
  omega

/-- The first of two runs of zeros is left out, and a single zero is not. -/
example : (ipv6 #v[0x2001, 0, 0, 1, 0, 0, 0xab, 0] 80).toIpPort =
    ascii "2001::1:0:0:ab:0:80" := by decide +kernel

end InetAddress

end Muduo
