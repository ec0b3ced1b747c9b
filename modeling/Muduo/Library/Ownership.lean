/-!
# Objects with one owner each

`Owns heap owned` says that a list names every allocated address once and no
other one: each object has exactly one owner, and none is leaked.  Ownership
moves by permuting the list, and allocation and deletion change both sides.
-/

namespace Muduo.Library

universe u v

variable {Address : Type u} {Object : Type v} [DecidableEq Address]

/-- Memory with other contents at one address. -/
def write (heap : Address → Option Object) (address : Address)
    (object : Option Object) : Address → Option Object :=
  fun other => if other = address then object else heap other

variable {heap : Address → Option Object} {address other : Address}
variable {object : Option Object}

@[simp] theorem write_same : write heap address object address = object :=
  if_pos rfl

theorem write_other (different : other ≠ address) :
    write heap address object other = heap other :=
  if_neg different

theorem write_eq_self (same : heap address = object) :
    write heap address object = heap := by
  funext other
  by_cases here : other = address
  · rw [here, write_same, same]
  · rw [write_other here]

theorem write_write (replacement : Option Object) :
    write (write heap address object) address replacement =
      write heap address replacement := by
  funext other
  by_cases here : other = address
  · rw [here, write_same, write_same]
  · rw [write_other here, write_other here, write_other here]

omit [DecidableEq Address] in
structure Owns (heap : Address → Option Object) (owned : List Address) :
    Prop where
  nodup : owned.Nodup
  mem_iff : ∀ address, address ∈ owned ↔ (heap address).isSome = true

namespace Owns

variable {owned : List Address}

omit [DecidableEq Address] in
theorem perm (owns : Owns heap owned) {after : List Address}
    (moved : owned.Perm after) : Owns heap after where
  nodup := moved.nodup_iff.mp owns.nodup
  mem_iff := fun address => moved.mem_iff.symm.trans (owns.mem_iff address)

theorem alloc (owns : Owns heap owned) (free : heap address = none)
    (value : Object) :
    Owns (write heap address (some value)) (address :: owned) where
  nodup := by
    apply List.nodup_cons.mpr
    refine ⟨?_, owns.nodup⟩
    intro member
    have allocated := (owns.mem_iff address).mp member
    simp [free] at allocated
  mem_iff := by
    intro other
    by_cases same : other = address
    · simp [same]
    · rw [write_other same, ← owns.mem_iff]
      simp [same]

theorem free (owns : Owns heap (address :: owned)) :
    Owns (write heap address none) owned where
  nodup := (List.nodup_cons.mp owns.nodup).2
  mem_iff := by
    intro other
    by_cases same : other = address
    · have absent := (List.nodup_cons.mp owns.nodup).1
      simp [same, absent]
    · rw [write_other same, ← owns.mem_iff]
      simp [same]

theorem overwrite (owns : Owns heap owned) (member : address ∈ owned)
    (value : Object) : Owns (write heap address (some value)) owned where
  nodup := owns.nodup
  mem_iff := by
    intro other
    by_cases same : other = address
    · simp [same, member]
    · rw [write_other same, owns.mem_iff]

end Owns

end Muduo.Library
