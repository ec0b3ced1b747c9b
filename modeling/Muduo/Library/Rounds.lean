import Mathlib.Algebra.Group.Nat.Defs
import Mathlib.Data.List.Basic

/-!
# Rounds with limited room

In each round some items are due and a list of them is served, all of them unless
the room is used up.  A round that uses up the room doubles it for the next one.
An item that is due can then be passed over in few rounds only.
-/

namespace Muduo.Library

universe u

/-- A round: what is due, what is served, and for how many there is room. -/
structure Round (Item : Type u) where
  due : Item → Bool
  served : List Item
  room : Nat

namespace Round

variable {Item : Type u}

/-- Only what is due is served, once, and nothing is left out while there is
room. -/
structure Sound (round : Round Item) : Prop where
  due_of_mem : ∀ item ∈ round.served, round.due item = true
  once : round.served.Nodup
  length_le : round.served.length ≤ round.room
  complete : round.served.length < round.room →
    ∀ item, round.due item = true → item ∈ round.served

def full (round : Round Item) : Bool := round.served.length == round.room

def nextRoom (round : Round Item) : Nat :=
  if round.full then round.room * 2 else round.room

section Counting

variable [DecidableEq Item]

/-- The item is due and is not served. -/
def passes (item : Item) (round : Round Item) : Bool :=
  round.due item && !decide (item ∈ round.served)

theorem Sound.full_of_passes {round : Round Item} (sound : round.Sound)
    {item : Item} (passed : round.passes item = true) :
    round.full = true := by
  obtain ⟨due, left⟩ := (Bool.and_eq_true _ _).mp passed
  have absent : item ∉ round.served := by
    simpa using left
  have filled : ¬ round.served.length < round.room := fun room =>
    absent (sound.complete room item due)
  exact beq_iff_eq.mpr (Nat.le_antisymm sound.length_le
    (Nat.le_of_not_lt filled))

end Counting

end Round

variable {Item : Type u}

/-- Rounds that begin with some room, each with the room that the one before it
leaves. -/
inductive Doubles (start : Nat) : List (Round Item) → Nat → Prop where
  | nil : Doubles start [] start
  | concat {rounds : List (Round Item)} {room : Nat} (round : Round Item) :
      Doubles start rounds room → round.room = room →
      Doubles start (rounds ++ [round]) round.nextRoom

/-- How often the room was used up. -/
def fullRounds (rounds : List (Round Item)) : Nat :=
  rounds.countP Round.full

/-- The most that was served in one round. -/
def mostServed (rounds : List (Round Item)) : Nat :=
  rounds.foldl (fun most round => max most round.served.length) 0

/-- How often an item that was due was not served. -/
def passedOver [DecidableEq Item] (item : Item) (rounds : List (Round Item)) :
    Nat :=
  rounds.countP (Round.passes item)

theorem mostServed_concat (rounds : List (Round Item)) (round : Round Item) :
    mostServed (rounds ++ [round]) =
      max (mostServed rounds) round.served.length := by
  simp [mostServed]

theorem fullRounds_concat (rounds : List (Round Item)) (round : Round Item) :
    fullRounds (rounds ++ [round]) =
      fullRounds rounds + if round.full then 1 else 0 := by
  simp [fullRounds, List.countP_append, List.countP_singleton]

namespace Doubles

variable {start room : Nat} {rounds : List (Round Item)}

/-- The room counts the rounds that used it up. -/
theorem room_eq (doubles : Doubles start rounds room) :
    room = start * 2 ^ fullRounds rounds := by
  induction doubles with
  | nil => simp [fullRounds]
  | concat round _ same induction =>
      rw [fullRounds_concat, Round.nextRoom, same, induction]
      cases round.full with
      | true => simp [Nat.pow_succ, Nat.mul_assoc]
      | false => simp

/-- There is never more room than for twice as many as were served at once. -/
theorem room_le (doubles : Doubles start rounds room) :
    room ≤ max start (2 * mostServed rounds) := by
  induction doubles with
  | nil => exact Nat.le_max_left _ _
  | concat round _ same induction =>
      rw [mostServed_concat, Round.nextRoom]
      cases filled : round.full with
      | true =>
          have served : round.served.length = round.room :=
            beq_iff_eq.mp filled
          simp only [if_true]
          omega
      | false =>
          simp only [Bool.false_eq_true, if_false]
          omega

/-- An item passed over in some rounds leaves room for as many doublings, and so
for no more items than were served at once. -/
theorem passedOver_le [DecidableEq Item] (doubles : Doubles start rounds room)
    (sound : ∀ round ∈ rounds, round.Sound) (item : Item) :
    start * 2 ^ passedOver item rounds ≤
      max start (2 * mostServed rounds) := by
  have fewer : passedOver item rounds ≤ fullRounds rounds := by
    apply List.countP_mono_left
    intro round member passed
    exact (sound round member).full_of_passes passed
  calc start * 2 ^ passedOver item rounds
      ≤ start * 2 ^ fullRounds rounds :=
        Nat.mul_le_mul_left _ (Nat.pow_le_pow_right (by decide) fewer)
    _ = room := doubles.room_eq.symm
    _ ≤ max start (2 * mostServed rounds) := doubles.room_le

end Doubles

end Muduo.Library
