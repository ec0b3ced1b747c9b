import Muduo.Base.Logging
import Muduo.Library.CriticalSection

/-!
# Threads that log

`logv` prepares its line without the lock, here from a time of its own.  Under
`mutex_` it writes the line, counts its bytes twice, may rotate the file, and may
abort the process.
-/

namespace Muduo

open Library

universe t

/-- A call of `logv`, with one of the six levels and the date that it prints.  The
array on the stack starts with the bytes of `garbage`. -/
structure LogCall where
  level : Int
  time : LogTime
  message : Option (List Byte)
  garbage : List Byte
  reopened : Bool
  least : Logger.LEVEL_FATAL ≤ level
  most : level ≤ Logger.LEVEL_TRACE
  fourDigits : time.year < 10000
  size : garbage.length = LOG_BUF_LEN

/-- Where `logv` stands with the lock held.  An addition to a counter loads it
and stores the sum. -/
inductive LogStage where
  | fwrite
  | loadCurr
  | storeCurr (w_curr : Nat)
  | loadTotal
  | storeTotal (w_total : Nat)
  | rotate
  | abort
  deriving DecidableEq, Repr

structure LogPoint where
  level : Int
  line : List Byte
  reopened : Bool
  stage : LogStage

namespace LogPoint

/-- The next step of `logv` with the lock held. -/
def advance (point : LogPoint) (logger : Logger) :
    Logger × (LogPoint ⊕ LogEnd) :=
  match point.stage with
  | .fwrite =>
      ({ logger with output := logger.output ++ point.line },
        .inl { point with stage := .loadCurr })
  | .loadCurr =>
      (logger, .inl { point with stage := .storeCurr logger.w_curr })
  | .storeCurr w_curr =>
      ({ logger with w_curr := w_curr + point.line.length },
        .inl { point with stage := .loadTotal })
  | .loadTotal =>
      (logger, .inl { point with stage := .storeTotal logger.w_total })
  | .storeTotal w_total =>
      ({ logger with w_total := w_total + point.line.length },
        .inl { point with stage := .rotate })
  | .rotate =>
      (if 0 < logger.rotate_size_ ∧ logger.rotate_size_ < logger.w_curr then
        logger.rotate point.reopened
      else logger, .inl { point with stage := .abort })
  | .abort =>
      (logger, .inr (if point.level = Logger.LEVEL_FATAL then .aborted
        else .returned point.line.length))

end LogPoint

/-- How the logger comes from `base` when the writing of `line` has come to a
stage. -/
def LogStage.Reached (base : Logger) (line : List Byte) (reopened : Bool)
    (logger : Logger) : LogStage → Prop
  | .fwrite => logger = base
  | .loadCurr => logger = { base with output := base.output ++ line }
  | .storeCurr w_curr =>
      w_curr = base.w_curr ∧
        logger = { base with output := base.output ++ line }
  | .loadTotal =>
      logger = { base with
        output := base.output ++ line, w_curr := base.w_curr + line.length }
  | .storeTotal w_total =>
      w_total = base.w_total ∧ logger = { base with
        output := base.output ++ line, w_curr := base.w_curr + line.length }
  | .rotate =>
      logger = { base with
        output := base.output ++ line
        w_curr := base.w_curr + line.length
        w_total := base.w_total + line.length }
  | .abort => logger = base.write line reopened

namespace LogPoint

structure Follows (base : Logger) (first : LogPoint) (logger : Logger)
    (point : LogPoint) : Prop where
  same : first = { point with stage := .fwrite }
  reached : point.stage.Reached base point.line point.reopened logger

variable {base logger next : Logger} {first point after : LogPoint}

theorem Follows.advance (follows : Follows base first logger point)
    (advanced : point.advance logger = (next, .inl after)) :
    Follows base first next after := by
  obtain ⟨rfl, reached⟩ := follows
  obtain ⟨level, line, reopened, stage⟩ := point
  cases stage with
  | fwrite =>
      obtain rfl : logger = base := reached
      cases advanced
      exact ⟨rfl, rfl⟩
  | loadCurr =>
      obtain rfl : logger = { base with output := base.output ++ line } :=
        reached
      cases advanced
      exact ⟨rfl, rfl, rfl⟩
  | storeCurr w_curr =>
      obtain ⟨rfl, rfl⟩ := reached
      cases advanced
      exact ⟨rfl, rfl⟩
  | loadTotal =>
      obtain rfl : logger = { base with
        output := base.output ++ line, w_curr := base.w_curr + line.length } :=
        reached
      cases advanced
      exact ⟨rfl, rfl, rfl⟩
  | storeTotal w_total =>
      obtain ⟨rfl, rfl⟩ := reached
      cases advanced
      exact ⟨rfl, rfl⟩
  | rotate =>
      obtain rfl : logger = { base with
        output := base.output ++ line
        w_curr := base.w_curr + line.length
        w_total := base.w_total + line.length } := reached
      cases advanced
      exact ⟨rfl, rfl⟩
  | abort => cases advanced

end LogPoint

namespace Logger

/-- `logv` before and after it takes the lock; no thread sets `level_`. -/
def logvSection (level_ : Int) :
    CriticalSection Logger LogCall LogPoint LogEnd Fault where
  prepare call :=
    if level_ < call.level then .ok (.inr (.returned 0))
    else
      match prepareLine call.level call.time call.message call.garbage with
      | .error fault => .error fault
      | .ok none => .ok (.inr (.returned (-1)))
      | .ok (some line) =>
          .ok (.inl ⟨call.level, line, call.reopened, .fwrite⟩)
  advance logger point := point.advance logger
  final ending := ending = .aborted

/-- Calls of `logv`, one after the other. -/
inductive Logs (start : Logger) : List (LogCall × LogEnd) → Logger → Prop where
  | refl : Logs start [] start
  | step {history : List (LogCall × LogEnd)} {logger next : Logger}
      {call : LogCall} {ending : LogEnd} :
      Logs start history logger →
      logger.logv call.level call.time call.message call.garbage
        call.reopened = .ok (next, ending) →
      Logs start (history ++ [(call, ending)]) next

variable {logger base next : Logger} {call : LogCall} {ending : LogEnd}
  {level_ : Int} {first point : LogPoint}

theorem follows_of_advances
    (advances : (logvSection level_).Advances (base, first) (logger, point))
    (begins : first.stage = .fwrite) : first.Follows base logger point := by
  have start : first.Follows base base first := by
    obtain ⟨level, line, reopened, stage⟩ := first
    obtain rfl : stage = .fwrite := begins
    exact ⟨rfl, rfl⟩
  generalize ends : (logger, point) = final at advances
  induction advances generalizing logger point with
  | refl =>
      cases ends
      exact start
  | @tail middle final _ advanced induction =>
      cases ends
      have earlier := induction rfl
      exact earlier.advance advanced

/-- A call that has the logger for itself is a call of `logv`. -/
theorem logv_of_answers
    (answers : (logvSection base.level_).Answers base call next ending) :
    base.logv call.level call.time call.message call.garbage call.reopened =
      .ok (next, ending) := by
  cases answers with
  | direct prepared =>
      simp only [logvSection] at prepared
      unfold logv
      split at prepared
      next quiet =>
        cases Except.ok.inj prepared
        rw [if_pos quiet]
        rfl
      next shown =>
        rw [if_neg shown]
        split at prepared
        next failed => cases prepared
        next failed =>
          cases Except.ok.inj prepared
          rw [failed, ok_bind]
          rfl
        next line printed => cases Except.ok.inj prepared
  | @locked first point middle value result prepared advances advanced =>
      simp only [logvSection] at prepared
      unfold logv
      split at prepared
      next quiet => cases Except.ok.inj prepared
      next shown =>
        rw [if_neg shown]
        split at prepared
        next failed => cases prepared
        next failed => cases Except.ok.inj prepared
        next line printed =>
          cases Except.ok.inj prepared
          obtain ⟨same, reached⟩ := follows_of_advances advances rfl
          obtain ⟨level, text, reopened, stage⟩ := point
          cases same
          cases stage with
          | abort =>
              obtain rfl : middle = _ := reached
              cases advanced
              rw [printed, ok_bind]
              by_cases fatal : call.level = LEVEL_FATAL
              · simp only [if_pos fatal]
                rfl
              · simp only [if_neg fatal]
                rfl
          | fwrite | loadCurr | storeCurr _ | loadTotal | storeTotal _
          | rotate => cases advanced

theorem prepareLine_none (call : LogCall) :
    prepareLine call.level call.time none call.garbage = .ok none := by
  have stampSize := length_stamp call.fourDigits
  have nameSize := (get_level_name_spec call.least call.most).1
  have room : LOG_BUF_LEN = 4096 := rfl
  have eight : LEVEL_NAME_LEN = 8 := rfl
  have size := call.size
  have nothing : call.garbage.take 0 = [] := rfl
  obtain ⟨stamped, stamping, stampedSize, stampedHolds⟩ :=
    store_spec (call.time.stamp ++ [0]) nothing (by
      simp only [List.length_append, List.length_singleton]
      omega)
  have tagging : store stamped 24 (get_level_name call.level) = .ok _ :=
    store_eq (by omega)
  simp only [prepareLine, stamping, ok_bind, stampSize,
    storeLevelName_eq call.least call.most, tagging]
  rfl

end Logger

namespace LogCall

/-- The line of a call, if its level is shown and its message can be printed. -/
def line (level_ : Int) (call : LogCall) : Option (List Byte) :=
  if level_ < call.level then none
  else call.message.map fun message =>
    call.time.stamp ++ Logger.get_level_name call.level ++
      Logger.printed message

def written (level_ : Int) (call : LogCall) : List Byte :=
  (call.line level_).getD []

end LogCall

namespace Logger

variable {logger next : Logger} {call : LogCall} {ending : LogEnd}

theorem prepareLine_call {level_ : Int} (shown : ¬ level_ < call.level) :
    prepareLine call.level call.time call.message call.garbage =
      .ok (call.line level_) := by
  rw [LogCall.line, if_neg shown]
  cases message : call.message with
  | none => exact prepareLine_none call
  | some text =>
      exact prepareLine_eq text call.fourDigits call.least call.most call.size

theorem logv_quiet (quiet : call.line logger.level_ = none) :
    ∃ value, logger.logv call.level call.time call.message call.garbage
      call.reopened = .ok (logger, .returned value) := by
  by_cases hidden : logger.level_ < call.level
  · exact ⟨0, by rw [logv, if_pos hidden]; rfl⟩
  · have prepared := prepareLine_call hidden
    rw [quiet] at prepared
    exact ⟨-1, by rw [logv, if_neg hidden, prepared]; rfl⟩

theorem logv_line {line : List Byte}
    (shown : call.line logger.level_ = some line) :
    logger.logv call.level call.time call.message call.garbage call.reopened =
      .ok (logger.write line call.reopened,
        if call.level = LEVEL_FATAL then .aborted
        else .returned line.length) := by
  have visible : ¬ logger.level_ < call.level := by
    intro hidden
    rw [LogCall.line, if_pos hidden] at shown
    cases shown
  have prepared := prepareLine_call visible
  rw [shown] at prepared
  rw [logv, if_neg visible, prepared, ok_bind]
  by_cases fatal : call.level = LEVEL_FATAL
  · simp only [if_pos fatal]
    rfl
  · simp only [if_neg fatal]
    rfl

theorem write_eq (never : logger.rotate_size_ = 0) (line : List Byte)
    (reopened : Bool) :
    logger.write line reopened = { logger with
      output := logger.output ++ line
      w_curr := logger.w_curr + line.length
      w_total := logger.w_total + line.length } := by
  simp [write, never]

/-- What a call of `logv` does to a logger that never rotates. -/
theorem logv_spec (never : logger.rotate_size_ = 0)
    (logged : logger.logv call.level call.time call.message call.garbage
      call.reopened = .ok (next, ending)) :
    next = { logger with
      output := logger.output ++ call.written logger.level_
      w_curr := logger.w_curr + (call.written logger.level_).length
      w_total := logger.w_total + (call.written logger.level_).length } ∧
    (ending = .aborted → call.level = LEVEL_FATAL) := by
  cases shown : call.line logger.level_ with
  | none =>
      obtain ⟨value, quiet⟩ := logv_quiet shown
      cases Except.ok.inj (logged.symm.trans quiet)
      have nothing : call.written logger.level_ = [] := by
        rw [LogCall.written, shown]
        rfl
      refine ⟨by simp [nothing], ?_⟩
      intro aborted
      cases aborted
  | some line =>
      have written : call.written logger.level_ = line := by
        rw [LogCall.written, shown]
        rfl
      have result := logged.symm.trans (logv_line shown)
      simp only [Except.ok.injEq, Prod.mk.injEq] at result
      obtain ⟨rfl, rfl⟩ := result
      refine ⟨by rw [written, write_eq never], ?_⟩
      intro aborted
      by_contra other
      rw [if_neg other] at aborted
      cases aborted

theorem Logs.spec {start : Logger} {history : List (LogCall × LogEnd)}
    (never : start.rotate_size_ = 0) (logs : Logs start history logger) :
    logger = { start with
      output := start.output ++
        history.flatMap (fun event => event.1.written start.level_)
      w_curr := start.w_curr +
        (history.flatMap (fun event => event.1.written start.level_)).length
      w_total := start.w_total +
        (history.flatMap (fun event => event.1.written start.level_)).length } ∧
    ∀ event ∈ history, event.2 = .aborted → event.1.level = LEVEL_FATAL := by
  induction logs with
  | refl => simp
  | @step history logger next call ending _ logged induction =>
      obtain ⟨reached, fatal⟩ := induction
      have still : logger.rotate_size_ = 0 := by rw [reached, never]
      obtain ⟨wrote, ends⟩ := logv_spec still logged
      have level : logger.level_ = start.level_ := by rw [reached]
      constructor
      · rw [wrote, level, reached]
        simp [Nat.add_assoc]
      · intro event member aborted
        rcases List.mem_append.mp member with early | late
        · exact fatal event early aborted
        · obtain rfl := List.mem_singleton.mp late
          exact ends aborted

theorem logs_of_serial {start base : Logger}
    {history : List (LogCall × LogEnd)} (never : start.rotate_size_ = 0)
    (serial : (logvSection start.level_).Serial start history base) :
    Logs start history base := by
  induction serial with
  | refl => exact .refl
  | @step history middle value call result _ answers induction =>
      have level : middle.level_ = start.level_ := by
        rw [(induction.spec never).1]
      rw [← level] at answers
      exact .step induction (logv_of_answers answers)

theorem prepare_ok (level_ : Int) (call : LogCall) :
    ∃ outcome, (logvSection level_).prepare call = .ok outcome := by
  by_cases hidden : level_ < call.level
  · simp [logvSection, hidden]
  · simp only [logvSection, if_neg hidden, prepareLine_call hidden]
    cases call.line level_ with
    | none => exact ⟨_, rfl⟩
    | some line => exact ⟨_, rfl⟩

theorem line_of_prepare {level_ : Int} {first : LogPoint}
    (prepared : (logvSection level_).prepare call = .ok (.inl first)) :
    call.line level_ = some first.line ∧ first.stage = .fwrite := by
  by_cases hidden : level_ < call.level
  · simp [logvSection, hidden] at prepared
  · simp only [logvSection, if_neg hidden, prepareLine_call hidden] at prepared
    cases shown : call.line level_ with
    | none => simp [shown] at prepared
    | some line =>
        rw [shown] at prepared
        cases Except.ok.inj prepared
        exact ⟨rfl, rfl⟩

theorem final_of_prepare {level_ : Int} (call : LogCall) (ending : LogEnd)
    (prepared : (logvSection level_).prepare call = .ok (.inr ending)) :
    (logvSection level_).final ending = false := by
  by_cases hidden : level_ < call.level
  · simp only [logvSection, if_pos hidden] at prepared
    cases Except.ok.inj prepared
    rfl
  · simp only [logvSection, if_neg hidden, prepareLine_call hidden] at prepared
    cases shown : call.line level_ with
    | none =>
        rw [shown] at prepared
        cases Except.ok.inj prepared
        rfl
    | some line => simp [shown] at prepared

section Runs

variable {Thread : Type t}

/-- The logger and the threads that log. -/
abbrev Threads (Thread : Type t) :=
  CriticalSection.State Thread Logger LogCall LogPoint

/-- The logger as it is constructed, but for its level. -/
def opened (level_ : Int) : Logger := { fresh with level_ }

/-- The line that is written by a call which has not ended. -/
def unfinished (level_ : Int) (state : Threads Thread) : List Byte :=
  match state.owner with
  | none => []
  | some thread =>
      match state.place thread with
      | .inside call point =>
          if point.stage = .fwrite then [] else call.written level_
      | .outside | .called _ | .queued _ _ => []

/-- What has been logged: whole lines in the order in which the calls ended, and
at most the line of a call that goes on.  An abort comes with a fatal level, and
nothing is logged after it. -/
structure Logged [DecidableEq Thread] (level_ : Int)
    (calls : List (Thread × LogCall))
    (returns : List (Thread × LogCall × LogEnd)) (state : Threads Thread) :
    Prop where
  legal : ∃ logger, Logs (opened level_) (returns.map Prod.snd) logger ∧
    (state.owner = none → state.value = logger)
  called : ∀ thread, part thread calls =
    (part thread returns).map Prod.fst ++ (state.place thread).call.toList
  output : state.value.output =
    returns.flatMap (fun event => event.2.1.written level_) ++
      unfinished level_ state
  counted : state.owner = none →
    state.value.w_curr = state.value.output.length ∧
      state.value.w_total = state.value.output.length
  stopped : state.stopped = true → state.owner = none ∧
    ∃ front last, returns = front ++ [last] ∧ last.2.2 = .aborted
  aborted : ∀ event ∈ returns, event.2.2 = .aborted →
    event.2.1.level = LEVEL_FATAL ∧ state.stopped = true

variable [DecidableEq Thread] {state : Threads Thread} {base : Logger}
  {level_ : Int}

omit [DecidableEq Thread] in
/-- What the thread with the lock has added to the output. -/
theorem output_of_partly
    (exclusive : CriticalSection.Exclusive state)
    (free : state.owner = none → state.value = base)
    (partly : ∀ thread, (logvSection level_).Partly base state.value
      (state.place thread)) :
    state.value.output = base.output ++ unfinished level_ state := by
  cases owner : state.owner with
  | none => simp [unfinished, owner, free owner]
  | some thread =>
      have inside := (exclusive thread).mp owner
      have worked := partly thread
      cases place : state.place thread with
      | outside | called _ | queued _ _ =>
          rw [place] at inside
          cases inside
      | inside call point =>
          rw [place] at worked
          obtain ⟨first, prepared, advances⟩ := worked
          obtain ⟨shown, begins⟩ := line_of_prepare prepared
          obtain ⟨same, reached⟩ := follows_of_advances advances begins
          have written : call.written level_ = point.line := by
            rw [LogCall.written, shown, same]
            rfl
          simp only [unfinished, owner, place, written]
          generalize state.value = logger at reached
          obtain ⟨level, line, reopened, stage⟩ := point
          cases stage with
          | fwrite =>
              obtain rfl : logger = base := reached
              simp
          | loadCurr =>
              obtain rfl : logger = _ := reached
              rfl
          | storeCurr w_curr =>
              obtain ⟨_, rfl⟩ := reached
              rfl
          | loadTotal =>
              obtain rfl : logger = _ := reached
              rfl
          | storeTotal w_total =>
              obtain ⟨_, rfl⟩ := reached
              rfl
          | rotate =>
              obtain rfl : logger = _ := reached
              rfl
          | abort =>
              obtain rfl : logger = _ := reached
              simp

/-- In every run of the section, the lines of the output are those of whole calls
of `logv` in the order in which the calls ended, each thread's own calls in their
order; the counters count every byte, and an abort ends the output. -/
theorem logged_of_run {actions : List (CriticalSection.Action Thread LogCall)}
    (run : (logvSection level_).machine.Run (.new (opened level_)) actions
      state) :
    Logged level_
      ((logvSection level_).machine.observed CriticalSection.made
        (.new (opened level_)) actions)
      ((logvSection level_).machine.observed
        (logvSection level_).returned (.new (opened level_)) actions)
      state := by
  have never : (opened level_).rotate_size_ = 0 := rfl
  have serialized := CriticalSection.run_serialized run
  obtain ⟨base, serial, free, partly⟩ := serialized.legal
  have logs : Logs (opened level_) _ base := logs_of_serial never serial
  obtain ⟨reached, fatal⟩ := logs.spec never
  have output := output_of_partly serialized.exclusive free partly
  have lines : base.output = _ := congrArg Logger.output reached
  rw [List.flatMap_map] at lines
  refine ⟨⟨base, logs, free⟩, serialized.called, ?_, ?_, ?_, ?_⟩
  · rw [output, lines]
    rfl
  · intro unlocked
    rw [free unlocked, reached]
    constructor
    · exact (Nat.zero_add _).trans (by rfl)
    · exact (Nat.zero_add _).trans (by rfl)
  · intro ended
    refine ⟨CriticalSection.owner_of_stopped final_of_prepare run ended, ?_⟩
    obtain ⟨front, last, split, final⟩ := serialized.last_of_stopped ended
    exact ⟨front, last, split, of_decide_eq_true final⟩
  · intro event member aborted
    exact ⟨fatal event.2 (List.mem_map_of_mem member) aborted,
      serialized.stopped_of_final member (decide_eq_true aborted)⟩

theorem section_safe (level_ : Int) :
    (logvSection level_).machine.Safe
      (.new (opened level_) : Threads Thread) :=
  CriticalSection.safe_of_prepare (prepare_ok level_)

end Runs

end Logger

end Muduo
