import Muduo.Base.Decimal
import Muduo.Base.Assert

/-!
# The logger

`Logger::logv` prepares a line in an array on the stack.  What `vsnprintf` gets
to print is a parameter: the whole formatted message, or a failure.
-/

namespace Muduo

open Library

def LOG_BUF_LEN : Nat := 4096

def LEVEL_NAME_LEN : Nat := 8

def newline : Byte := 10

/-- The members of `struct tm` that are printed, in the ranges that `localtime`
keeps, with the full year, the month from 1 on and the microseconds. -/
structure LogTime where
  year : Nat
  month : Nat
  mday : Nat
  hour : Nat
  min : Nat
  sec : Nat
  usec : Nat
  month_le : month ≤ 12
  mday_le : mday ≤ 31
  hour_lt : hour < 24
  min_lt : min < 60
  sec_le : sec ≤ 60
  usec_lt : usec < 1000000

namespace LogTime

/-- `%04d-%02d-%02d %02d:%02d:%02d.%03d` and a space -/
def stamp (time : LogTime) : List Byte :=
  padded 4 time.year ++ ascii "-" ++ padded 2 time.month ++ ascii "-" ++
    padded 2 time.mday ++ ascii " " ++ padded 2 time.hour ++ ascii ":" ++
    padded 2 time.min ++ ascii ":" ++ padded 2 time.sec ++ ascii "." ++
    padded 3 (time.usec / 1000) ++ ascii " "

end LogTime

/-- The members of `Logger` that `logv` uses; `output` is all that `fwrite` was
given. -/
structure Logger where
  level_ : Int
  rotate_size_ : Nat
  w_curr : Nat
  w_total : Nat
  output : List Byte

/-- How a call of `logv` ends: it returns a number, or the process aborts. -/
inductive LogEnd where
  | returned (value : Int)
  | aborted
  deriving DecidableEq, Repr

namespace Logger

def LEVEL_FATAL : Int := 0
def LEVEL_ERROR : Int := 1
def LEVEL_WARN : Int := 2
def LEVEL_INFO : Int := 3
def LEVEL_DEBUG : Int := 4
def LEVEL_TRACE : Int := 5

def get_level_name (level : Int) : List Byte :=
  if level = LEVEL_FATAL then ascii "[FATAL] "
  else if level = LEVEL_ERROR then ascii "[ERROR] "
  else if level = LEVEL_WARN then ascii "[WARN ] "
  else if level = LEVEL_INFO then ascii "[INFO ] "
  else if level = LEVEL_DEBUG then ascii "[DEBUG] "
  else if level = LEVEL_TRACE then ascii "[TRACE] "
  else ascii ""

/-- Writing to the array from position `ptr` on. -/
def store (buf : List Byte) (ptr : Nat) (data : List Byte) :
    Checked (List Byte) := do
  assertThat (ptr + data.length ≤ buf.length) .logBuffer
  return overwrite buf ptr data

/-- `memcpy(ptr, get_level_name(level), LEVEL_NAME_LEN)`, which may not read past
the terminator of the name. -/
def storeLevelName (buf : List Byte) (ptr : Nat) (level : Int) :
    Checked (List Byte) := do
  let name := get_level_name level ++ [0]
  assertThat (LEVEL_NAME_LEN ≤ name.length) .logLevelName
  store buf ptr (name.take LEVEL_NAME_LEN)

/-- What `vsnprintf` stores of a message into `space` bytes. -/
def vsnprintf (space : Nat) (message : List Byte) : List Byte :=
  if space = 0 then [] else message.take (space - 1) ++ [0]

/-- `rotate`, which resets the count unless a file operation fails. -/
def rotate (logger : Logger) (reopened : Bool) : Logger :=
  if reopened then { logger with w_curr := 0 } else logger

/-- `fwrite` and the statistics. -/
def write (logger : Logger) (line : List Byte) (reopened : Bool) : Logger :=
  let written := { logger with
    output := logger.output ++ line
    w_curr := logger.w_curr + line.length
    w_total := logger.w_total + line.length }
  if 0 < written.rotate_size_ ∧ written.rotate_size_ < written.w_curr then
    written.rotate reopened
  else written

/-- `logv` from `vsnprintf` on: the message is printed behind the `ptr` bytes of
the array, and the line is ended. -/
def printMessage (buf : List Byte) (ptr : Nat) (text : List Byte) :
    Checked (List Byte) := do
  let space := LOG_BUF_LEN - ptr - 10
  let printed ← store buf ptr (vsnprintf space text)
  let len := text.length
  -- `len` counts the characters that were not stored as well
  let last := ptr + (if space < len then space else len)
  let ended ← store printed last [newline]
  let terminated ← store ended (last + 1) [0]
  return terminated.take (last + 1)

/-- The line that `logv` prepares in its array, which starts with the bytes of
`garbage`; `none` where `vsnprintf` fails. -/
def prepareLine (level : Int) (time : LogTime) (message : Option (List Byte))
    (garbage : List Byte) : Checked (Option (List Byte)) := do
  let stamped ← store garbage 0 (time.stamp ++ [0])
  let ptr := time.stamp.length
  let tagged ← storeLevelName stamped ptr level
  match message with
  | none => return none
  | some text =>
      let line ← printMessage tagged (ptr + LEVEL_NAME_LEN) text
      return some line

/-- `logv`; `message` is what the format and its arguments print. -/
def logv (logger : Logger) (level : Int) (time : LogTime)
    (message : Option (List Byte)) (garbage : List Byte) (reopened : Bool) :
    Checked (Logger × LogEnd) := do
  if logger.level_ < level then
    return (logger, .returned 0)
  match ← prepareLine level time message garbage with
  | none => return (logger, .returned (-1))
  | some line =>
      let next := logger.write line reopened
      if level = LEVEL_FATAL then
        return (next, .aborted)
      return (next, .returned line.length)

theorem length_stamp {time : LogTime} (fourDigits : time.year < 10000) :
    time.stamp.length = 24 := by
  have year := length_padded (Nat.succ_pos 3) fourDigits
  have two : ∀ {n : Nat}, n < 100 → (padded 2 n).length = 2 :=
    fun bound => length_padded (Nat.succ_pos 1) bound
  have month := two (Nat.lt_of_le_of_lt time.month_le (by omega))
  have mday := two (Nat.lt_of_le_of_lt time.mday_le (by omega))
  have hour := two (Nat.lt_trans time.hour_lt (by omega))
  have min := two (Nat.lt_trans time.min_lt (by omega))
  have sec := two (Nat.lt_of_le_of_lt time.sec_le (by omega))
  have millis : (padded 3 (time.usec / 1000)).length = 3 := by
    have bound := time.usec_lt
    exact length_padded (Nat.succ_pos 2) (by omega)
  simp [LogTime.stamp, ascii, year, month, mday, hour, min, sec, millis]

/-- No control characters. -/
def Visible (text : List Byte) : Prop := ∀ c ∈ text, 32 ≤ c.toNat

instance (text : List Byte) : Decidable (Visible text) :=
  inferInstanceAs (Decidable (∀ c ∈ text, 32 ≤ c.toNat))

theorem Visible.notMem {text : List Byte} (visible : Visible text) {c : Byte}
    (control : c.toNat < 32) : c ∉ text := by
  intro member
  have shown := visible c member
  omega

theorem visible_append {left right : List Byte} :
    Visible (left ++ right) ↔ Visible left ∧ Visible right :=
  List.forall_mem_append

theorem visible_padded (width n : Nat) : Visible (padded width n) := by
  intro c member
  have digit := (digit_of_mem_padded member).1
  omega

theorem visible_stamp (time : LogTime) : Visible time.stamp := by
  have separators : Visible (ascii "-") ∧ Visible (ascii " ") ∧
      Visible (ascii ":") ∧ Visible (ascii ".") := by
    decide +kernel
  simp only [LogTime.stamp, visible_append, visible_padded, separators,
    and_self]

theorem get_level_name_spec {level : Int} (least : LEVEL_FATAL ≤ level)
    (most : level ≤ LEVEL_TRACE) :
    (get_level_name level).length = LEVEL_NAME_LEN ∧
      Visible (get_level_name level) := by
  have cases : level = 0 ∨ level = 1 ∨ level = 2 ∨ level = 3 ∨ level = 4 ∨
      level = 5 := by
    simp only [LEVEL_FATAL, LEVEL_TRACE] at least most
    omega
  rcases cases with rfl | rfl | rfl | rfl | rfl | rfl <;> decide +kernel

theorem store_eq {buf data : List Byte} {ptr : Nat}
    (fits : ptr + data.length ≤ buf.length) :
    store buf ptr data = .ok (overwrite buf ptr data) := by
  simp [store, fits, pure, Except.pure]

/-- The array after a store: its size, and what it holds up to the end of the
stored bytes. -/
theorem store_spec {buf front : List Byte} {ptr : Nat} (data : List Byte)
    (holds : buf.take ptr = front) (fits : ptr + data.length ≤ buf.length) :
    ∃ after, store buf ptr data = .ok after ∧ after.length = buf.length ∧
      after.take (ptr + data.length) = front ++ data := by
  refine ⟨overwrite buf ptr data, store_eq fits, length_overwrite fits, ?_⟩
  rw [take_overwrite fits, holds]

theorem storeLevelName_eq {level : Int} (least : LEVEL_FATAL ≤ level)
    (most : level ≤ LEVEL_TRACE) (buf : List Byte) (ptr : Nat) :
    storeLevelName buf ptr level = store buf ptr (get_level_name level) := by
  have size := (get_level_name_spec least most).1
  have inside : LEVEL_NAME_LEN ≤ (get_level_name level ++ [0]).length := by
    simp [size]
  rw [storeLevelName, assertThat_bind, if_pos inside, ← size, List.take_left']
  rfl

theorem take_part {buf front data : List Byte} {count size part : Nat}
    (holds : buf.take count = front ++ data) (frontSize : front.length = size)
    (inside : part ≤ data.length) :
    buf.take (size + part) = front ++ data.take part := by
  subst frontSize
  have shorter : front.length + part ≤ count := by
    have sizes := congrArg List.length holds
    simp only [List.length_take, List.length_append] at sizes
    omega
  calc buf.take (front.length + part)
      = (buf.take count).take (front.length + part) := by
        rw [List.take_take, Nat.min_eq_left shorter]
    _ = front ++ data.take part := by
        rw [holds, List.take_length_add_append]

/-- What is passed to `vsnprintf` as the size, with a time stamp of 24 bytes. -/
def messageSpace : Nat := LOG_BUF_LEN - (24 + LEVEL_NAME_LEN) - 10

/-- What follows the tag in the written bytes.  A message that fits is ended by
the line feed; behind a longer one stands the terminator of `vsnprintf`. -/
def printed (message : List Byte) : List Byte :=
  if message.length < messageSpace then message ++ [newline]
  else message.take (messageSpace - 1) ++ [0, newline]

variable {logger : Logger} {level : Int} {time : LogTime}
  {text garbage : List Byte} {reopened : Bool}

theorem length_printed (message : List Byte) :
    (printed message).length = min messageSpace message.length + 1 := by
  have space : messageSpace = 4054 := rfl
  unfold printed
  split
  · simp only [List.length_append, List.length_singleton]
    omega
  · simp only [List.length_append, List.length_take, List.length_cons,
      List.length_nil]
    omega

theorem zero_mem_printed {message : List Byte}
    (long : ¬ message.length < messageSpace) : 0 ∈ printed message := by
  rw [printed, if_neg long]
  simp

/-- The stored characters and their terminator, up to where the line feed goes. -/
theorem take_vsnprintf (text : List Byte) :
    (vsnprintf messageSpace text).take (min messageSpace text.length) ++
      [newline] = printed text := by
  have space : messageSpace = 4054 := rfl
  have stored : vsnprintf messageSpace text =
      text.take (messageSpace - 1) ++ [0] := rfl
  rw [stored, printed]
  split
  next fits =>
    have all : text.take (messageSpace - 1) = text :=
      List.take_of_length_le (by omega)
    rw [all, Nat.min_eq_right (by omega), List.take_left']
    rfl
  next long =>
    have size : (text.take (messageSpace - 1) ++ [0]).length = messageSpace := by
      simp only [List.length_append, List.length_take, List.length_singleton]
      omega
    rw [Nat.min_eq_left (by omega), List.take_of_length_le (by omega),
      List.append_assoc]
    rfl

theorem printMessage_eq {buf front : List Byte} (text : List Byte)
    (holds : buf.take (24 + LEVEL_NAME_LEN) = front)
    (frontSize : front.length = 24 + LEVEL_NAME_LEN)
    (size : buf.length = LOG_BUF_LEN) :
    printMessage buf (24 + LEVEL_NAME_LEN) text =
      .ok (front ++ printed text) := by
  have space : messageSpace = 4054 := rfl
  have room : LOG_BUF_LEN = 4096 := rfl
  have eight : LEVEL_NAME_LEN = 8 := rfl
  have storedSize : (vsnprintf messageSpace text).length =
      min (messageSpace - 1) text.length + 1 := by
    simp [vsnprintf, space]
  obtain ⟨stored, storing, sameSize, storedHolds⟩ :=
    store_spec (vsnprintf messageSpace text) holds (by omega)
  have cut := take_part storedHolds frontSize
    (show min messageSpace text.length ≤ _ by omega)
  obtain ⟨ended, ending, endedSize, endedHolds⟩ :=
    store_spec [newline] cut (by
      simp only [List.length_singleton]
      omega)
  rw [List.append_assoc, take_vsnprintf, List.length_singleton] at endedHolds
  obtain ⟨terminated, terminating, _, terminatedHolds⟩ :=
    store_spec [0] endedHolds (by
      simp only [List.length_singleton]
      omega)
  have line := take_part terminatedHolds rfl (Nat.zero_le _)
  rw [List.take_zero, List.append_nil, Nat.add_zero, List.length_append,
    frontSize, length_printed, ← Nat.add_assoc] at line
  have limit : (if messageSpace < text.length then messageSpace
      else text.length) = min messageSpace text.length := by
    split <;> omega
  have named : LOG_BUF_LEN - (24 + LEVEL_NAME_LEN) - 10 = messageSpace := rfl
  simp only [printMessage, named, storing, ok_bind, limit, ending, terminating,
    line]
  rfl

theorem prepareLine_eq {level : Int} {time : LogTime} {garbage : List Byte}
    (text : List Byte) (fourDigits : time.year < 10000)
    (least : LEVEL_FATAL ≤ level) (most : level ≤ LEVEL_TRACE)
    (size : garbage.length = LOG_BUF_LEN) :
    prepareLine level time (some text) garbage =
      .ok (some (time.stamp ++ get_level_name level ++ printed text)) := by
  have stampSize := length_stamp fourDigits
  have nameSize := (get_level_name_spec least most).1
  have room : LOG_BUF_LEN = 4096 := rfl
  have eight : LEVEL_NAME_LEN = 8 := rfl
  have nothing : garbage.take 0 = [] := rfl
  obtain ⟨stamped, stamping, stampedSize, stampedHolds⟩ :=
    store_spec (time.stamp ++ [0]) nothing (by
      simp only [List.length_append, List.length_singleton]
      omega)
  rw [List.nil_append] at stampedHolds
  have stampFront := take_part stampedHolds stampSize (Nat.zero_le _)
  rw [List.take_zero, List.append_nil, Nat.add_zero] at stampFront
  obtain ⟨tagged, tagging, taggedSize, taggedHolds⟩ :=
    store_spec (get_level_name level) stampFront (by omega)
  rw [nameSize] at taggedHolds
  have printing := printMessage_eq text taggedHolds
    (by rw [List.length_append, stampSize, nameSize]) (by omega)
  simp only [prepareLine, stamping, ok_bind, stampSize,
    storeLevelName_eq least most, tagging, printing]
  rfl

/-- A line that is cut cleanly: behind the time stamp of 24 bytes and the tag of
8 bytes stand a beginning of the message and one line feed. -/
structure CutCleanly (level : Int) (time : LogTime) (message line : List Byte) :
    Prop where
  parts : ∃ cut, cut <+: message ∧
    line = time.stamp ++ get_level_name level ++ cut ++ [newline] ∧
    (message.length < messageSpace → cut = message)
  stamp_length : time.stamp.length = 24
  tag_length : (get_level_name level).length = LEVEL_NAME_LEN
  no_nul : 0 ∉ line
  one_newline : line.count newline = 1

theorem cutCleanly_iff {level : Int} {time : LogTime} {message : List Byte}
    (fourDigits : time.year < 10000) (least : LEVEL_FATAL ≤ level)
    (most : level ≤ LEVEL_TRACE) (plain : 0 ∉ message ∧ newline ∉ message) :
    CutCleanly level time message
        (time.stamp ++ get_level_name level ++ printed message) ↔
      message.length < messageSpace := by
  obtain ⟨nameSize, nameVisible⟩ := get_level_name_spec least most
  have visible : Visible (time.stamp ++ get_level_name level) :=
    visible_append.mpr ⟨visible_stamp time, nameVisible⟩
  constructor
  · intro clean
    by_contra long
    exact clean.no_nul (List.mem_append_right _ (zero_mem_printed long))
  · intro fits
    have whole : printed message = message ++ [newline] := if_pos fits
    have noNul : (0 : Byte) ∉ time.stamp ++ get_level_name level :=
      visible.notMem (Nat.succ_pos 31)
    have noFeed : newline ∉ time.stamp ++ get_level_name level := by
      apply visible.notMem
      decide
    rw [whole]
    refine ⟨⟨message, List.prefix_refl _, (List.append_assoc _ _ _).symm,
      fun _ => rfl⟩, length_stamp fourDigits, nameSize, ?_, ?_⟩
    · simp only [List.mem_append, not_or] at noNul ⊢
      exact ⟨noNul, plain.1, by simp [newline]⟩
    · rw [List.count_append, List.count_eq_zero_of_not_mem noFeed,
        List.count_append, List.count_eq_zero_of_not_mem plain.2]
      rfl

variable {logger : Logger} {level : Int} {time : LogTime}
  {message garbage : List Byte}

@[simp] theorem output_rotate (reopened : Bool) :
    (logger.rotate reopened).output = logger.output := by
  unfold rotate
  split <;> rfl

@[simp] theorem output_write (line : List Byte) (reopened : Bool) :
    (logger.write line reopened).output = logger.output ++ line := by
  simp only [write]
  split
  · exact output_rotate reopened
  · rfl

theorem logv_eq (fourDigits : time.year < 10000)
    (least : LEVEL_FATAL ≤ level) (most : level ≤ LEVEL_TRACE)
    (configured : level ≤ logger.level_)
    (size : garbage.length = LOG_BUF_LEN) (reopened : Bool) :
    ∃ ending, logger.logv level time (some message) garbage reopened =
      .ok (logger.write
        (time.stamp ++ get_level_name level ++ printed message) reopened,
        ending) := by
  have shown : ¬ logger.level_ < level := by omega
  have prepared := prepareLine_eq message fourDigits least most size
  simp only [logv, if_neg shown, prepared, ok_bind]
  by_cases fatal : level = LEVEL_FATAL
  · exact ⟨.aborted, by rw [if_pos fatal]; rfl⟩
  · exact ⟨_, by rw [if_neg fatal]; rfl⟩

theorem logv_fatal (fourDigits : time.year < 10000)
    (configured : LEVEL_FATAL ≤ logger.level_)
    (size : garbage.length = LOG_BUF_LEN) (reopened : Bool) :
    ∃ next, logger.logv LEVEL_FATAL time (some message) garbage reopened =
      .ok (next, .aborted) := by
  have shown : ¬ logger.level_ < LEVEL_FATAL := by omega
  have least : LEVEL_FATAL ≤ LEVEL_FATAL := Int.le_refl _
  have most : LEVEL_FATAL ≤ LEVEL_TRACE := by decide
  have prepared := prepareLine_eq message fourDigits least most size
  exact ⟨_, by simp only [logv, if_neg shown, prepared, ok_bind]; rfl⟩

/-- Every line stays in the array, and is cut cleanly exactly if the message and
its terminator fit the space that `vsnprintf` is given. -/
theorem logv_cutCleanly_iff (fourDigits : 1000 ≤ time.year ∧ time.year ≤ 9999)
    (least : LEVEL_FATAL ≤ level) (most : level ≤ LEVEL_TRACE)
    (configured : level ≤ logger.level_)
    (plain : 0 ∉ message ∧ newline ∉ message)
    (size : garbage.length = LOG_BUF_LEN) (reopened : Bool) :
    ∃ next ending line,
      logger.logv level time (some message) garbage reopened =
        .ok (next, ending) ∧
      next.output = logger.output ++ line ∧
      (CutCleanly level time message line ↔ message.length < 4054) := by
  have year : time.year < 10000 := by omega
  obtain ⟨ending, logged⟩ := logv_eq year least most configured size reopened
  exact ⟨_, ending, _, logged, output_write _ _,
    cutCleanly_iff year least most plain⟩

/-- A moment and a logger for the runs on fixed inputs. -/
def noon : LogTime :=
  { year := 2024, month := 3, mday := 9, hour := 12, min := 0, sec := 0,
    usec := 1500, month_le := by omega, mday_le := by omega,
    hour_lt := by omega, min_lt := by omega, sec_le := by omega,
    usec_lt := by omega }

def fresh : Logger :=
  { level_ := LEVEL_TRACE, rotate_size_ := 0, w_curr := 0, w_total := 0,
    output := [] }

theorem logv_cutCleanly_iff_short :
    ∃ next ending line,
      fresh.logv LEVEL_INFO noon (some (ascii "started"))
        (List.replicate LOG_BUF_LEN 7) false = .ok (next, ending) ∧
      next.output = fresh.output ++ line ∧
      CutCleanly LEVEL_INFO noon (ascii "started") line := by
  have fourDigits : 1000 ≤ noon.year ∧ noon.year ≤ 9999 := by decide
  have least : LEVEL_FATAL ≤ LEVEL_INFO := by decide
  have most : LEVEL_INFO ≤ LEVEL_TRACE := by decide
  have configured : LEVEL_INFO ≤ fresh.level_ := by decide
  have plain : 0 ∉ ascii "started" ∧ newline ∉ ascii "started" := by decide
  have size : (List.replicate LOG_BUF_LEN (7 : Byte)).length = LOG_BUF_LEN :=
    List.length_replicate
  have short : (ascii "started").length < 4054 := by decide
  obtain ⟨next, ending, line, logged, output, exactly⟩ :=
    logv_cutCleanly_iff fourDigits least most configured plain size false
  exact ⟨next, ending, line, logged, output, exactly.mpr short⟩

/-- The terminator of `vsnprintf` stands in the line of a message of 4054
characters. -/
theorem logv_writes_nul :
    ∃ next ending line,
      fresh.logv LEVEL_INFO noon (some (List.replicate 4054 97))
        (List.replicate LOG_BUF_LEN 7) false = .ok (next, ending) ∧
      next.output = fresh.output ++ line ∧ 0 ∈ line ∧
      ¬ CutCleanly LEVEL_INFO noon (List.replicate 4054 97) line := by
  have year : noon.year < 10000 := by decide
  have least : LEVEL_FATAL ≤ LEVEL_INFO := by decide
  have most : LEVEL_INFO ≤ LEVEL_TRACE := by decide
  have configured : LEVEL_INFO ≤ fresh.level_ := by decide
  have size : (List.replicate LOG_BUF_LEN (7 : Byte)).length = LOG_BUF_LEN :=
    List.length_replicate
  have long : ¬ (List.replicate 4054 (97 : Byte)).length < messageSpace := by
    rw [List.length_replicate]
    exact Nat.lt_irrefl _
  obtain ⟨ending, logged⟩ := logv_eq year least most configured size false
  have terminator : (0 : Byte) ∈ noon.stamp ++ get_level_name LEVEL_INFO ++
      printed (List.replicate 4054 97) :=
    List.mem_append_right _ (zero_mem_printed long)
  refine ⟨_, ending, _, logged, output_write _ _, terminator, ?_⟩
  intro clean
  exact clean.no_nul terminator

/-- `LOG_FATAL` by its effect on the caller: it does not return, unless the
configured level is lower. -/
def LOG_FATAL (level_ : Int) : Checked Unit :=
  assertThat (level_ < LEVEL_FATAL) .logFatal

end Logger

end Muduo
