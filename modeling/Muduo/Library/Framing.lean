import Mathlib.Data.List.Basic

/-!
# Streams of frames

A reader takes one frame off the front of a list of symbols.  Encodings that it
reads whatever follows them can be laid one behind the other; the last one may
also be one that runs to the end of the stream.
-/

namespace Muduo.Library

universe u v w

variable {Symbol : Type u} {Frame : Type v} {Item : Type w}
variable (read : List Symbol → Option (Frame × List Symbol))

/-- Reads at most so many frames, until nothing is left. -/
def readFrames : Nat → List Symbol → Option (List Frame)
  | _, [] => some []
  | 0, _ :: _ => none
  | count + 1, symbol :: symbols =>
      match read (symbol :: symbols) with
      | some (frame, rest) => (readFrames count rest).map (frame :: ·)
      | none => none

/-- Reads the frames of a stream; none is empty. -/
def decodeFrames (symbols : List Symbol) : Option (List Frame) :=
  readFrames read symbols.length symbols

/-- An encoding that the reader takes off the front of any stream. -/
structure Delimited (encoding : List Symbol) (frame : Frame) : Prop where
  nonempty : encoding ≠ []
  reads : ∀ rest, read (encoding ++ rest) = some (frame, rest)

/-- An encoding that the reader takes up to the end of the stream. -/
structure Terminal (encoding : List Symbol) (frame : Frame) : Prop where
  nonempty : encoding ≠ []
  reads : read encoding = some (frame, [])

variable {read}

theorem Delimited.terminal {encoding : List Symbol} {frame : Frame}
    (delimited : Delimited read encoding frame) :
    Terminal read encoding frame where
  nonempty := delimited.nonempty
  reads := by
    have alone := delimited.reads []
    rwa [List.append_nil] at alone

theorem readFrames_succ {count : Nat} {symbols rest : List Symbol}
    {frame : Frame} (nonempty : symbols ≠ [])
    (reads : read symbols = some (frame, rest)) :
    readFrames read (count + 1) symbols =
      (readFrames read count rest).map (frame :: ·) := by
  cases symbols with
  | nil => exact (nonempty rfl).elim
  | cons symbol symbols =>
      simp only [readFrames, reads]

theorem readFrames_eq_cons {count : Nat} {symbols : List Symbol}
    {frame : Frame} {frames : List Frame} (nonempty : symbols ≠ [])
    (reads : readFrames read count symbols = some (frame :: frames)) :
    ∃ count rest, read symbols = some (frame, rest) ∧
      readFrames read count rest = some frames := by
  cases symbols with
  | nil => exact (nonempty rfl).elim
  | cons symbol symbols =>
      cases count with
      | zero => cases reads
      | succ count =>
          rw [readFrames] at reads
          split at reads
          next first rest one =>
            obtain ⟨others, more, same⟩ := Option.map_eq_some_iff.mp reads
            obtain ⟨rfl, rfl⟩ := List.cons.inj same
            exact ⟨count, rest, one, more⟩
          next => cases reads

variable {encode : Item → List Symbol} {frame : Item → Frame}

theorem readFrames_flatMap {items : List Item} {last : Item}
    (delimited : ∀ item ∈ items, Delimited read (encode item) (frame item))
    (terminal : Terminal read (encode last) (frame last)) {count : Nat}
    (enough : items.length < count) :
    readFrames read count (items.flatMap encode ++ encode last) =
      some ((items ++ [last]).map frame) := by
  induction items generalizing count with
  | nil =>
      obtain ⟨count, rfl⟩ := Nat.exists_eq_add_of_lt enough
      have done : readFrames read (0 + count) [] = some [] := by
        unfold readFrames
        rfl
      rw [List.flatMap_nil, List.nil_append, List.length_nil,
        readFrames_succ terminal.nonempty terminal.reads, done]
      rfl
  | cons item items induction =>
      obtain ⟨count, rfl⟩ := Nat.exists_eq_add_of_lt enough
      have first := delimited item List.mem_cons_self
      have others : ∀ other ∈ items,
          Delimited read (encode other) (frame other) := by
        intro other member
        exact delimited other (List.mem_cons_of_mem item member)
      have fits : items.length < (item :: items).length + count := by
        rw [List.length_cons]
        omega
      have nonempty : encode item ++
          (items.flatMap encode ++ encode last) ≠ [] := by
        simp [first.nonempty]
      rw [List.flatMap_cons, List.append_assoc,
        readFrames_succ nonempty (first.reads _), induction others fits]
      rfl

theorem length_le_of_delimited {items : List Item}
    (delimited : ∀ item ∈ items, Delimited read (encode item) (frame item)) :
    items.length ≤ (items.flatMap encode).length := by
  induction items with
  | nil => exact Nat.zero_le _
  | cons item items induction =>
      have first := List.length_pos_iff.mpr
        (delimited item List.mem_cons_self).nonempty
      have rest := induction fun other member =>
        delimited other (List.mem_cons_of_mem item member)
      rw [List.flatMap_cons, List.length_append, List.length_cons]
      omega

theorem decodeFrames_concat {items : List Item} {last : Item}
    (delimited : ∀ item ∈ items, Delimited read (encode item) (frame item))
    (terminal : Terminal read (encode last) (frame last)) :
    decodeFrames read ((items ++ [last]).flatMap encode) =
      some ((items ++ [last]).map frame) := by
  have split : (items ++ [last]).flatMap encode =
      items.flatMap encode ++ encode last := by
    simp
  have short := length_le_of_delimited delimited
  have positive := List.length_pos_iff.mpr terminal.nonempty
  rw [decodeFrames, split]
  apply readFrames_flatMap delimited terminal
  rw [List.length_append]
  omega

/-- A stream whose items are delimited, but perhaps the last one, which runs to
the end of the stream. -/
theorem decodeFrames_flatMap {items : List Item}
    (delimited : ∀ item ∈ items.dropLast,
      Delimited read (encode item) (frame item))
    (terminal : ∀ item ∈ items, Terminal read (encode item) (frame item)) :
    decodeFrames read (items.flatMap encode) = some (items.map frame) := by
  rcases List.eq_nil_or_concat items with rfl | ⟨front, last, rfl⟩
  · rfl
  · rw [List.concat_eq_append] at delimited terminal ⊢
    rw [List.dropLast_concat] at delimited
    exact decodeFrames_concat delimited
      (terminal last (List.mem_append_right _ (List.mem_singleton.mpr rfl)))

/-- A stream that decodes to the frames of its items: if reading an item as its
frame shows it to be good, and a good item that is not the last is delimited,
they are all good. -/
theorem good_of_readFrames {Good : Item → Prop} {items : List Item}
    (nonempty : ∀ item ∈ items, encode item ≠ [])
    (judged : ∀ item ∈ items, ∀ rest left,
      read (encode item ++ rest) = some (frame item, left) → Good item)
    (delimited : ∀ item ∈ items.dropLast, Good item →
      Delimited read (encode item) (frame item)) {count : Nat}
    (decodes : readFrames read count (items.flatMap encode) =
      some (items.map frame)) :
    ∀ item ∈ items, Good item := by
  induction items generalizing count with
  | nil =>
      intro item member
      cases member
  | cons item items induction =>
      have written : encode item ++ items.flatMap encode ≠ [] := by
        simp [nonempty item List.mem_cons_self]
      rw [List.flatMap_cons] at decodes
      obtain ⟨count, left, reads, rest⟩ :=
        readFrames_eq_cons written decodes
      have good : Good item := judged item List.mem_cons_self _ _ reads
      have others : ∀ other ∈ items, Good other := by
        rcases List.eq_nil_or_concat items with rfl | more
        · intro other member
          cases member
        · have several : items ≠ [] := by
            obtain ⟨front, last, rfl⟩ := more
            simp
          rw [List.dropLast_cons_of_ne_nil several] at delimited
          have first := delimited item List.mem_cons_self good
          obtain ⟨_, rfl⟩ := Prod.mk.inj
            (Option.some.inj ((first.reads _).symm.trans reads))
          apply induction _ _ _ rest
          · intro other member
            exact nonempty other (List.mem_cons_of_mem item member)
          · intro other member
            exact judged other (List.mem_cons_of_mem item member)
          · intro other member
            exact delimited other (List.mem_cons_of_mem item member)
      intro other member
      rcases List.mem_cons.mp member with rfl | later
      · exact good
      · exact others other later

/-- Such a stream decodes to its frames exactly if all its items are good. -/
theorem decodeFrames_flatMap_iff {Good : Item → Prop} {items : List Item}
    (judged : ∀ item ∈ items, ∀ rest left,
      read (encode item ++ rest) = some (frame item, left) → Good item)
    (nonempty : ∀ item ∈ items, encode item ≠ [])
    (delimited : ∀ item ∈ items.dropLast, Good item →
      Delimited read (encode item) (frame item))
    (terminal : ∀ item ∈ items, Good item →
      Terminal read (encode item) (frame item)) :
    decodeFrames read (items.flatMap encode) = some (items.map frame) ↔
      ∀ item ∈ items, Good item := by
  constructor
  · exact good_of_readFrames nonempty judged delimited
  · intro good
    apply decodeFrames_flatMap
    · intro item early
      exact delimited item early (good item (List.dropLast_subset _ early))
    · intro item member
      exact terminal item member (good item member)

end Muduo.Library
