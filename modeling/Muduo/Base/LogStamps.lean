import Muduo.Base.LogThreads
import Muduo.Library.Refinement
import Mathlib.Data.List.Forall2

/-!
# The time stamps of threads that log

`localtime` fills one `struct tm` of the whole process, and `logv` reads it member
by member, before it takes the lock.  Threads that do so at the same time may print
members of each other's dates; behind that the calls go through the section under
`mutex_`.  The other call of `localtime`, in `rotate`, is not reached: nothing sets
`rotate_size_`.
-/

namespace Muduo

open Library

universe t

/-- The members of `struct tm` that `logv` prints, the year in full and the month
from 1 on. -/
inductive TmMember where
  | year
  | month
  | mday
  | hour
  | min
  | sec
  deriving DecidableEq, Repr

def TmMember.bound : TmMember → Nat
  | year => 10000
  | month => 13
  | mday => 32
  | hour => 24
  | min => 60
  | sec => 61

def tmMembers : List TmMember := [.year, .month, .mday, .hour, .min, .sec]

abbrev Tm := (member : TmMember) → Fin member.bound

/-- The arguments of `log_write`, as the macros pass them, with the date that
`localtime` makes of the time and the microseconds. -/
structure LogRequest where
  level : Int
  tm : Tm
  usec : Fin 1000000
  message : Option (List Byte)
  garbage : List Byte
  reopened : Bool
  least : Logger.LEVEL_FATAL ≤ level
  most : level ≤ Logger.LEVEL_TRACE
  size : garbage.length = LOG_BUF_LEN

/-- The call that prints a date. -/
def LogRequest.call (request : LogRequest) (tm : Tm) : LogCall where
  level := request.level
  time :=
    { year := tm .year, month := tm .month, mday := tm .mday
      hour := tm .hour, min := tm .min, sec := tm .sec, usec := request.usec
      month_le := Nat.le_of_lt_succ (tm .month).isLt
      mday_le := Nat.le_of_lt_succ (tm .mday).isLt
      hour_lt := (tm .hour).isLt
      min_lt := (tm .min).isLt
      sec_le := Nat.le_of_lt_succ (tm .sec).isLt
      usec_lt := request.usec.isLt }
  message := request.message
  garbage := request.garbage
  reopened := request.reopened
  least := request.least
  most := request.most
  fourDigits := (tm .year).isLt
  size := request.size

/-- Where a thread stands in `logv` before the line is printed: members that
`localtime` has still to store, or that are still to be read. -/
inductive StampPlace where
  | idle
  | storing (request : LogRequest) (left : List TmMember)
  | loading (request : LogRequest) (left : List TmMember) (loaded : Tm)

namespace StampPlace

def isIdle : StampPlace → Bool
  | idle => true
  | storing _ _ | loading _ _ _ => false

def request : StampPlace → Option LogRequest
  | idle => none
  | storing request _ | loading request _ _ => some request

def toStore : StampPlace → List TmMember
  | storing _ left => left
  | idle | loading _ _ _ => []

def toLoad : StampPlace → List TmMember
  | loading _ left _ => left
  | idle | storing _ _ => []

/-- The call that is made, once all members are read. -/
def made : StampPlace → Option LogCall
  | loading request [] loaded => some (request.call loaded)
  | idle | storing _ _ | loading _ (_ :: _) _ => none

end StampPlace

namespace Logger

/-- The static `struct tm`, the threads in front of the lock, and the section. -/
structure Stamping (Thread : Type t) where
  tm : Tm
  place : Thread → StampPlace
  threads : Threads Thread

inductive StampAction (Thread : Type t) where
  | log (thread : Thread) (request : LogRequest)
  | store (thread : Thread) (member : TmMember)
  | load (thread : Thread) (member : TmMember)
  | print (thread : Thread)
  | proceed (thread : Thread)

variable {Thread : Type t} [DecidableEq Thread]

namespace Stamping

def new (tm : Tm) (logger : Logger) : Stamping Thread :=
  { tm, place := fun _ => .idle, threads := .new logger }

def set (state : Stamping Thread) (thread : Thread) (place : StampPlace) :
    Stamping Thread :=
  { state with place := Function.update state.place thread place }

/-- The section receives a call. -/
def enter (state : Stamping Thread) (thread : Thread) (call : LogCall) :
    Stamping Thread :=
  { state with threads := state.threads.set thread (.called call) }

end Stamping

def StampEnabled (state : Stamping Thread) : StampAction Thread → Prop
  | .log thread _ =>
      state.threads.stopped = false ∧
        (state.threads.place thread).idle = true ∧
        (state.place thread).isIdle = true
  | .store thread member =>
      state.threads.stopped = false ∧ member ∈ (state.place thread).toStore
  | .load thread member =>
      state.threads.stopped = false ∧ member ∈ (state.place thread).toLoad
  | .print thread =>
      state.threads.stopped = false ∧ (state.place thread).made.isSome = true
  | .proceed thread =>
      CriticalSection.Enabled state.threads (.proceed thread)

instance (state : Stamping Thread) (action : StampAction Thread) :
    Decidable (StampEnabled state action) :=
  match action with
  | .log _ _ => inferInstanceAs (Decidable (_ ∧ _ ∧ _))
  | .store _ _ | .load _ _ | .print _ => inferInstanceAs (Decidable (_ ∧ _))
  | .proceed _ => inferInstanceAs (Decidable (_ ∧ _ ∧ (_ → _)))

variable (level_ : Int)

/-- A message above `level_` is not printed, and `localtime` is not called. -/
def stampStep (state : Stamping Thread) :
    StampAction Thread → Except Fault (Stamping Thread)
  | .log thread request =>
      if level_ < request.level then
        .ok (state.enter thread (request.call request.tm))
      else .ok (state.set thread (.storing request tmMembers))
  | .store thread member =>
      match state.place thread with
      | .storing request left =>
          let rest := left.erase member
          .ok { state.set thread
              (if rest = [] then .loading request tmMembers request.tm
              else .storing request rest) with
            tm := Function.update state.tm member (request.tm member) }
      | .idle | .loading _ _ _ => .ok state
  | .load thread member =>
      match state.place thread with
      | .loading request left loaded =>
          .ok (state.set thread (.loading request (left.erase member)
            (Function.update loaded member (state.tm member))))
      | .idle | .storing _ _ => .ok state
  | .print thread =>
      match (state.place thread).made with
      | some call => .ok ((state.set thread .idle).enter thread call)
      | none => .ok state
  | .proceed thread => do
      let threads ← (logvSection level_).step state.threads (.proceed thread)
      return { state with threads }

def stampMachine : Machine (Stamping Thread) (StampAction Thread) Fault where
  enabled := StampEnabled
  step := stampStep level_

instance (state : Stamping Thread) (action : StampAction Thread) :
    Decidable ((stampMachine level_).enabled state action) :=
  inferInstanceAs (Decidable (StampEnabled state action))

/-- What a step is in the section. -/
def inSection (state : Stamping Thread) :
    StampAction Thread → Option (CriticalSection.Action Thread LogCall)
  | .log thread request =>
      if level_ < request.level then
        some (.call thread (request.call request.tm))
      else none
  | .store _ _ | .load _ _ => none
  | .print thread => (state.place thread).made.map (.call thread)
  | .proceed thread => some (.proceed thread)

/-- A thread calls `logv`. -/
def asked (_ : Stamping Thread) :
    StampAction Thread → List (Thread × LogRequest)
  | .log thread request => [(thread, request)]
  | .store _ _ | .load _ _ | .print _ | .proceed _ => []

/-- A call is made with the date that it prints. -/
def dated (state : Stamping Thread) (action : StampAction Thread) :
    List (Thread × LogCall) :=
  (inSection level_ state action).toList.flatMap
    (CriticalSection.made state.threads)

/-- A call ends. -/
def ended (state : Stamping Thread) (action : StampAction Thread) :
    List (Thread × LogCall × LogEnd) :=
  (inSection level_ state action).toList.flatMap
    ((logvSection level_).returned state.threads)

/-- Nobody else is in front of the lock when a thread stores a member. -/
def Alone (state : Stamping Thread) : StampAction Thread → Prop
  | .store thread _ => ∀ other, other ≠ thread →
      (state.place other).isIdle = true
  | .log _ _ | .load _ _ | .print _ | .proceed _ => True

/-- The member has a value that one of the requests asks for. -/
def Origin (requests : List LogRequest) (member : TmMember)
    (value : Fin member.bound) : Prop :=
  ∃ request ∈ requests, value = request.tm member

/-- The call prints what is asked for, with a date that comes from `requests`. -/
def Prints (requests : List LogRequest) (request : LogRequest)
    (call : LogCall) : Prop :=
  ∃ tm, call = request.call tm ∧
    ∀ member, Origin requests member (tm member)

/-- Each thread's calls are those it has asked for, in order, but for one that it
has not yet printed; `sources` are the requests whose dates may be printed. -/
def DatedBy (sources : LogRequest → List LogRequest)
    (requests : List (Thread × LogRequest)) (calls : List (Thread × LogCall))
    (places : Thread → StampPlace) : Prop :=
  ∀ thread, ∃ printed,
    part thread requests = printed ++ (places thread).request.toList ∧
    List.Forall₂ (fun request call => Prints (sources request) request call)
      printed (part thread calls)

section Steps

variable {level_ : Int} {state next : Stamping Thread}
  {action : StampAction Thread}

variable (level_) in
/-- What a step does. -/
inductive StampMoves (state : Stamping Thread) :
    StampAction Thread → Stamping Thread → Prop where
  | hide {thread : Thread} {request : LogRequest}
      (outside : state.threads.place thread = .outside)
      (idle : state.place thread = .idle)
      (hidden : level_ < request.level) :
      StampMoves state (.log thread request)
        (state.enter thread (request.call request.tm))
  | start {thread : Thread} {request : LogRequest}
      (outside : state.threads.place thread = .outside)
      (idle : state.place thread = .idle)
      (shown : ¬ level_ < request.level) :
      StampMoves state (.log thread request)
        (state.set thread (.storing request tmMembers))
  | store {thread : Thread} {request : LogRequest} {left : List TmMember}
      {member : TmMember} {place : StampPlace}
      (storing : state.place thread = .storing request left)
      (further : place = .storing request (left.erase member) ∨
        left.erase member = [] ∧ place = .loading request tmMembers request.tm) :
      StampMoves state (.store thread member)
        { state.set thread place with
          tm := Function.update state.tm member (request.tm member) }
  | load {thread : Thread} {request : LogRequest} {left : List TmMember}
      {loaded : Tm} {member : TmMember}
      (loading : state.place thread = .loading request left loaded) :
      StampMoves state (.load thread member)
        (state.set thread (.loading request (left.erase member)
          (Function.update loaded member (state.tm member))))
  | print {thread : Thread} {request : LogRequest} {loaded : Tm}
      (loading : state.place thread = .loading request [] loaded) :
      StampMoves state (.print thread)
        ((state.set thread .idle).enter thread (request.call loaded))
  | proceed {thread : Thread} {threads : Threads Thread}
      (enabled : CriticalSection.Enabled state.threads (.proceed thread))
      (stepped : (logvSection level_).step state.threads (.proceed thread) =
        .ok threads) :
      StampMoves state (.proceed thread) { state with threads }

theorem place_of_made {place : StampPlace} {call : LogCall}
    (made : place.made = some call) :
    ∃ request loaded, place = .loading request [] loaded ∧
      call = request.call loaded := by
  cases place with
  | idle | storing _ _ => cases made
  | loading request left loaded =>
      cases left with
      | nil => exact ⟨request, loaded, rfl, (Option.some.inj made).symm⟩
      | cons _ _ => cases made

theorem outside_of_idle {place : CriticalSection.Place LogCall LogPoint}
    (idle : place.idle = true) : place = .outside := by
  cases place with
  | outside => rfl
  | called _ | queued _ _ | inside _ _ => cases idle

theorem StampMoves.of_step (enabled : StampEnabled state action)
    (stepped : stampStep level_ state action = .ok next) :
    StampMoves level_ state action next := by
  cases action with
  | log thread request =>
      obtain ⟨_, outside, idle⟩ := enabled
      have place : state.place thread = .idle := by
        cases place : state.place thread with
        | idle => rfl
        | storing _ _ | loading _ _ _ => simp [place, StampPlace.isIdle] at idle
      simp only [stampStep] at stepped
      split at stepped
      next hidden =>
        cases Except.ok.inj stepped
        exact .hide (outside_of_idle outside) place hidden
      next shown =>
        cases Except.ok.inj stepped
        exact .start (outside_of_idle outside) place shown
  | store thread member =>
      obtain ⟨_, here⟩ := enabled
      cases place : state.place thread with
      | idle | loading _ _ _ => simp [place, StampPlace.toStore] at here
      | storing request left =>
          simp only [stampStep, place] at stepped
          cases Except.ok.inj stepped
          apply StampMoves.store place
          by_cases last : left.erase member = []
          · exact .inr ⟨last, if_pos last⟩
          · exact .inl (if_neg last)
  | load thread member =>
      obtain ⟨_, here⟩ := enabled
      cases place : state.place thread with
      | idle | storing _ _ => simp [place, StampPlace.toLoad] at here
      | loading request left loaded =>
          simp only [stampStep, place] at stepped
          cases Except.ok.inj stepped
          exact .load place
  | print thread =>
      obtain ⟨_, here⟩ := enabled
      obtain ⟨call, made⟩ := Option.isSome_iff_exists.mp here
      simp only [stampStep, made] at stepped
      cases Except.ok.inj stepped
      obtain ⟨request, loaded, place, rfl⟩ := place_of_made made
      exact .print place
  | proceed thread =>
      simp only [stampStep] at stepped
      cases moved : (logvSection level_).step state.threads
          (.proceed thread) with
      | error fault =>
          rw [moved] at stepped
          cases stepped
      | ok threads =>
          rw [moved] at stepped
          cases Except.ok.inj stepped
          exact .proceed enabled moved

end Steps

section Origins

variable {requests more : List LogRequest} {member other : TmMember} {tm : Tm}
  {sources wider : LogRequest → List LogRequest} {place : StampPlace}

theorem Origin.mono {value : Fin member.bound}
    (origin : Origin requests member value) (subset : requests ⊆ more) :
    Origin more member value := by
  obtain ⟨request, present, same⟩ := origin
  exact ⟨request, subset present, same⟩

theorem Prints.mono {request : LogRequest} {call : LogCall}
    (prints : Prints requests request call) (subset : requests ⊆ more) :
    Prints more request call := by
  obtain ⟨tm, same, origins⟩ := prints
  exact ⟨tm, same, fun member => (origins member).mono subset⟩

theorem origin_update {value : Fin member.bound}
    (new : Origin requests member value)
    (old : other ≠ member → Origin requests other (tm other)) :
    Origin requests other (Function.update tm member value other) := by
  by_cases same : other = member
  · subst same
    rw [Function.update_self]
    exact new
  · rw [Function.update_of_ne same]
    exact old same

/-- What a thread has stored, and what it has read, comes from its sources. -/
def FromSources (sources : LogRequest → List LogRequest) (tm : Tm) :
    StampPlace → Prop
  | .idle => True
  | .storing request left => ∀ member, member ∉ left →
      Origin (sources request) member (tm member)
  | .loading request _ loaded => ∀ member,
      Origin (sources request) member (tm member) ∧
        Origin (sources request) member (loaded member)

theorem FromSources.mono (comes : FromSources sources tm place)
    (subset : ∀ request, sources request ⊆ wider request) :
    FromSources wider tm place := by
  cases place with
  | idle => trivial
  | storing request left =>
      intro member stored
      exact (comes member stored).mono (subset request)
  | loading request left loaded =>
      intro member
      exact ⟨(comes member).1.mono (subset request),
        (comes member).2.mono (subset request)⟩

/-- A store by somebody else, from among the sources. -/
theorem FromSources.update (comes : FromSources sources tm place)
    {value : Fin member.bound}
    (shares : ∀ request, place.request = some request →
      Origin (sources request) member value) :
    FromSources sources (Function.update tm member value) place := by
  cases place with
  | idle => trivial
  | storing request left =>
      intro other stored
      exact origin_update (shares request rfl) fun _ => comes other stored
  | loading request left loaded =>
      intro other
      exact ⟨origin_update (shares request rfl) fun _ => (comes other).1,
        (comes other).2⟩

theorem FromSources.store {request : LogRequest} {left : List TmMember}
    (comes : FromSources sources tm (.storing request left))
    (own : request ∈ sources request)
    (further : place = .storing request (left.erase member) ∨
      left.erase member = [] ∧
        place = .loading request tmMembers request.tm) :
    FromSources sources (Function.update tm member (request.tm member))
      place := by
  have new : Origin (sources request) member (request.tm member) :=
    ⟨request, own, rfl⟩
  rcases further with rfl | ⟨last, rfl⟩
  · intro other stored
    apply origin_update new
    intro distinct
    exact comes other fun here =>
      stored ((List.mem_erase_of_ne distinct).mpr here)
  · intro other
    refine ⟨origin_update new ?_, request, own, rfl⟩
    intro distinct
    apply comes other
    intro here
    have behind := (List.mem_erase_of_ne distinct).mpr here
    rw [last] at behind
    cases behind

theorem FromSources.load {request : LogRequest} {left : List TmMember}
    {loaded : Tm} (comes : FromSources sources tm (.loading request left loaded))
    (member : TmMember) :
    FromSources sources tm (.loading request (left.erase member)
      (Function.update loaded member (tm member))) := by
  intro other
  exact ⟨(comes other).1,
    origin_update (comes member).1 fun _ => (comes other).2⟩

theorem mem_tmMembers (member : TmMember) : member ∈ tmMembers := by
  cases member <;> decide

end Origins

section Histories

variable {sources wider : LogRequest → List LogRequest}
variable {requests : List (Thread × LogRequest)}
variable {calls : List (Thread × LogCall)} {places : Thread → StampPlace}
variable {thread : Thread} {place : StampPlace} {request : LogRequest}
variable {call : LogCall}

theorem DatedBy.mono (dated : DatedBy sources requests calls places)
    (subset : ∀ request, sources request ⊆ wider request) :
    DatedBy wider requests calls places := by
  intro thread
  obtain ⟨printed, split, prints⟩ := dated thread
  exact ⟨printed, split,
    prints.imp fun request call prints => prints.mono (subset request)⟩

theorem DatedBy.stay (dated : DatedBy sources requests calls places)
    (same : place.request = (places thread).request) :
    DatedBy sources requests calls (Function.update places thread place) := by
  intro other
  obtain ⟨printed, split, prints⟩ := dated other
  refine ⟨printed, ?_, prints⟩
  by_cases here : other = thread
  · subst here
    rw [Function.update_self, same]
    exact split
  · rw [Function.update_of_ne here]
    exact split

theorem DatedBy.ask (dated : DatedBy sources requests calls places)
    (idle : places thread = .idle) (asks : place.request = some request) :
    DatedBy sources (requests ++ [(thread, request)]) calls
      (Function.update places thread place) := by
  intro other
  obtain ⟨printed, split, prints⟩ := dated other
  refine ⟨printed, ?_, prints⟩
  by_cases here : other = thread
  · subst here
    rw [idle] at split
    rw [CriticalSection.part_concat_same, split, Function.update_self, asks]
    simp [StampPlace.request]
  · rw [CriticalSection.part_concat_other here, Function.update_of_ne here]
    exact split

theorem DatedBy.print (dated : DatedBy sources requests calls places)
    (asked : (places thread).request = some request)
    (prints : Prints (sources request) request call) :
    DatedBy sources requests (calls ++ [(thread, call)])
      (Function.update places thread .idle) := by
  intro other
  obtain ⟨printed, split, earlier⟩ := dated other
  by_cases here : other = thread
  · subst here
    refine ⟨printed ++ [request], ?_, ?_⟩
    · rw [split, asked, Function.update_self]
      simp [StampPlace.request]
    · rw [CriticalSection.part_concat_same]
      exact List.rel_append earlier (.cons prints .nil)
  · refine ⟨printed, ?_, ?_⟩
    · rw [Function.update_of_ne here]
      exact split
    · rw [CriticalSection.part_concat_other here]
      exact earlier

theorem DatedBy.direct (dated : DatedBy sources requests calls places)
    (idle : places thread = .idle)
    (prints : Prints (sources request) request call) :
    DatedBy sources (requests ++ [(thread, request)])
      (calls ++ [(thread, call)]) places := by
  have asks : StampPlace.request (.storing request []) = some request := rfl
  have between := dated.ask idle asks
  have pending : (Function.update places thread (.storing request [])
      thread).request = some request := by
    rw [Function.update_self]
    rfl
  have done := between.print pending prints
  rwa [Function.update_idem, ← idle, Function.update_eq_self] at done

end Histories

section Runs

variable {level_ : Int} {tm : Tm} {state next : Stamping Thread}
variable {action : StampAction Thread} {actions : List (StampAction Thread)}
variable {sources wider : LogRequest → List LogRequest}
variable {requests : List (Thread × LogRequest)}
variable {calls : List (Thread × LogCall)}

/-- A thread in front of the lock has no call in the section, and all that is
stored and read comes from the sources. -/
structure Stamped (sources : LogRequest → List LogRequest)
    (requests : List (Thread × LogRequest)) (calls : List (Thread × LogCall))
    (state : Stamping Thread) : Prop where
  outside : ∀ thread, (state.place thread).isIdle = false →
    state.threads.place thread = .outside
  ordered : DatedBy sources requests calls state.place
  comes : ∀ thread, FromSources sources state.tm (state.place thread)

theorem stamped_new (level_ : Int) (tm : Tm)
    (sources : LogRequest → List LogRequest) :
    Stamped sources [] [] (.new tm (opened level_) : Stamping Thread) where
  outside _ _ := rfl
  ordered _ := ⟨[], rfl, .nil⟩
  comes _ := trivial

theorem asked_of_pending (dated : DatedBy sources requests calls state.place)
    {thread : Thread} {request : LogRequest}
    (pending : (state.place thread).request = some request) :
    (thread, request) ∈ requests := by
  obtain ⟨printed, split, _⟩ := dated thread
  rw [pending] at split
  have member : request ∈ part thread requests := by
    rw [split]
    exact List.mem_append_right _ List.mem_cons_self
  obtain ⟨⟨source, item⟩, here, rfl⟩ := List.mem_map.mp member
  obtain ⟨present, same⟩ := List.mem_filter.mp here
  obtain rfl : source = thread := of_decide_eq_true same
  exact present

theorem comes_update {places : Thread → StampPlace} {tm : Tm}
    {thread : Thread} {place : StampPlace}
    (own : FromSources sources tm place)
    (others : ∀ other, other ≠ thread →
      FromSources sources tm (places other)) (other : Thread) :
    FromSources sources tm (Function.update places thread place other) := by
  by_cases here : other = thread
  · subst here
    rw [Function.update_self]
    exact own
  · rw [Function.update_of_ne here]
    exact others other here

theorem outside_update {state : Stamping Thread} {thread : Thread}
    {place : StampPlace}
    (outside : ∀ other, (state.place other).isIdle = false →
      state.threads.place other = .outside)
    (here : place.isIdle = false → state.threads.place thread = .outside)
    (other : Thread)
    (busy : (Function.update state.place thread place other).isIdle = false) :
    state.threads.place other = .outside := by
  by_cases same : other = thread
  · subst same
    rw [Function.update_self] at busy
    exact here busy
  · rw [Function.update_of_ne same] at busy
    exact outside other busy

theorem outside_enter {state : Stamping Thread} {thread : Thread}
    {call : LogCall}
    (outside : ∀ other, (state.place other).isIdle = false →
      state.threads.place other = .outside) (other : Thread)
    (busy : (Function.update state.place thread .idle other).isIdle = false) :
    (state.threads.set thread (.called call)).place other = .outside := by
  by_cases same : other = thread
  · subst same
    rw [Function.update_self] at busy
    cases busy
  · rw [Function.update_of_ne same] at busy
    exact (Function.update_of_ne same _ _).trans (outside other busy)

/-- The members that a thread stores may be printed by those that it overtakes. -/
def Shared (wider : LogRequest → List LogRequest) (state : Stamping Thread) :
    StampAction Thread → Prop
  | .store thread _ => ∀ other, other ≠ thread →
      ∀ request ∈ (state.place other).request,
        ∀ stored ∈ (state.place thread).request, stored ∈ wider request
  | .log _ _ | .load _ _ | .print _ | .proceed _ => True

theorem Stamped.moves (stamped : Stamped sources requests calls state)
    (moves : StampMoves level_ state action next)
    (subset : ∀ request, sources request ⊆ wider request)
    (own : ∀ thread request,
      (thread, request) ∈ requests ++ asked state action →
      request ∈ wider request)
    (shared : Shared wider state action) :
    Stamped wider (requests ++ asked state action)
      (calls ++ dated level_ state action) next := by
  have earlier := stamped.ordered.mono subset
  have comes : ∀ thread, FromSources wider state.tm (state.place thread) :=
    fun thread => (stamped.comes thread).mono subset
  cases moves with
  | @hide thread request outside idle hidden =>
      have event : dated level_ state (.log thread request) =
          [(thread, request.call request.tm)] := by
        simp [dated, inSection, hidden, CriticalSection.made]
      have here := own thread request
        (List.mem_append_right _ List.mem_cons_self)
      rw [event]
      refine ⟨?_, ?_, comes⟩
      · intro other busy
        apply outside_enter stamped.outside other
        rw [← idle, Function.update_eq_self]
        exact busy
      · exact earlier.direct idle
          ⟨request.tm, rfl, fun member => ⟨request, here, rfl⟩⟩
  | @start thread request outside idle shown =>
      have event : dated level_ state (.log thread request) = [] := by
        simp [dated, inSection, shown]
      rw [event, List.append_nil]
      refine ⟨?_, earlier.ask idle rfl, ?_⟩
      · exact outside_update stamped.outside fun _ => outside
      · apply comes_update ?_ fun other _ => comes other
        intro member missing
        exact absurd (mem_tmMembers member) missing
  | @store thread request left member place storing further =>
      have event : dated level_ state (.store thread member) = [] := rfl
      have pending : (state.place thread).request = some request := by
        rw [storing]
        rfl
      have same : place.request = (state.place thread).request := by
        rw [pending]
        rcases further with rfl | ⟨_, rfl⟩ <;> rfl
      have busy : (state.place thread).isIdle = false := by
        rw [storing]
        rfl
      have nothing : asked state (.store thread member) = [] := rfl
      have here := own thread request
        (List.mem_append_left _ (asked_of_pending stamped.ordered pending))
      rw [event, nothing, List.append_nil, List.append_nil]
      refine ⟨?_, earlier.stay same, ?_⟩
      · exact outside_update stamped.outside fun _ =>
          stamped.outside thread busy
      · have mine := comes thread
        rw [storing] at mine
        apply comes_update (mine.store here further)
        intro other distinct
        apply (comes other).update
        intro waiting asks
        exact ⟨request, shared other distinct waiting asks request pending, rfl⟩
  | @load thread request left loaded member loading =>
      have event : dated level_ state (.load thread member) = [] := rfl
      have nothing : asked state (.load thread member) = [] := rfl
      have busy : (state.place thread).isIdle = false := by
        rw [loading]
        rfl
      rw [event, nothing, List.append_nil, List.append_nil]
      refine ⟨?_, earlier.stay (by rw [loading]; rfl), ?_⟩
      · exact outside_update stamped.outside fun _ =>
          stamped.outside thread busy
      · have mine := comes thread
        rw [loading] at mine
        exact comes_update (mine.load member) fun other _ => comes other
  | @print thread request loaded loading =>
      have event : dated level_ state (.print thread) =
          [(thread, request.call loaded)] := by
        simp [dated, inSection, loading, StampPlace.made, CriticalSection.made]
      have nothing : asked state (.print thread) = [] := rfl
      have pending : (state.place thread).request = some request := by
        rw [loading]
        rfl
      have mine := comes thread
      rw [loading] at mine
      rw [event, nothing, List.append_nil]
      refine ⟨?_, earlier.print pending
        ⟨loaded, rfl, fun member => (mine member).2⟩, ?_⟩
      · exact outside_enter stamped.outside
      · exact comes_update trivial fun other _ => comes other
  | @proceed thread threads enabled stepped =>
      have event : dated level_ state (.proceed thread) = [] := rfl
      have nothing : asked state (.proceed thread) = [] := rfl
      rw [event, nothing, List.append_nil, List.append_nil]
      refine ⟨?_, earlier, comes⟩
      intro other busy
      have outside := stamped.outside other busy
      have distinct : other ≠ thread := by
        rintro rfl
        obtain ⟨_, inside, _⟩ := enabled
        rw [outside] at inside
        cases inside
      have moved : (logvSection level_).Moves state.threads
          (.proceed thread) threads := .of_step enabled stepped
      exact (moved.place_other distinct).trans outside

/-- All that has been asked for may be printed. -/
theorem Stamped.step
    (stamped : Stamped (fun _ => requests.map Prod.snd) requests calls state)
    (moves : StampMoves level_ state action next) :
    Stamped (fun _ => (requests ++ asked state action).map Prod.snd)
      (requests ++ asked state action) (calls ++ dated level_ state action)
      next := by
  apply stamped.moves moves
  · intro _
    exact List.map_subset _ (List.subset_append_left _ _)
  · intro thread request member
    exact List.mem_map_of_mem member
  · cases action with
    | log _ _ | load _ _ | print _ | proceed _ => trivial
    | store thread member =>
        intro other _ request _ stored pending
        have before := asked_of_pending stamped.ordered pending
        exact List.mem_map_of_mem (List.mem_append_left _ before)

/-- Threads that are alone print their own dates. -/
theorem Stamped.step_alone
    (stamped : Stamped (fun request => [request]) requests calls state)
    (moves : StampMoves level_ state action next)
    (alone : Alone state action) :
    Stamped (fun request => [request]) (requests ++ asked state action)
      (calls ++ dated level_ state action) next := by
  apply stamped.moves moves
  · intro request
    exact List.Subset.refl _
  · intro thread request _
    exact List.mem_cons_self
  · cases action with
    | log _ _ | load _ _ | print _ | proceed _ => trivial
    | store thread member =>
        intro other distinct request pending
        have idle := alone other distinct
        cases place : state.place other with
        | idle =>
            rw [place] at pending
            cases pending
        | storing _ _ | loading _ _ _ =>
            rw [place] at idle
            cases idle

theorem stamped_of_run
    (run : (stampMachine level_).Run (.new tm (opened level_)) actions
      state) :
    Stamped (fun _ => ((stampMachine level_).observed asked
        (.new tm (opened level_)) actions).map Prod.snd)
      ((stampMachine level_).observed asked (.new tm (opened level_)) actions)
      ((stampMachine level_).observed (dated level_)
        (.new tm (opened level_)) actions) state := by
  induction run with
  | refl => exact stamped_new level_ tm _
  | step before enabled stepped induction =>
      rw [before.observed_concat stepped, before.observed_concat stepped]
      exact induction.step (.of_step enabled stepped)

theorem stamped_of_alone
    (run : ((stampMachine level_).restrict Alone).Run
      (.new tm (opened level_)) actions state) :
    Stamped (fun request => [request])
      ((stampMachine level_).observed asked (.new tm (opened level_)) actions)
      ((stampMachine level_).observed (dated level_)
        (.new tm (opened level_)) actions) state := by
  induction run with
  | refl => exact stamped_new level_ tm _
  | step before enabled stepped induction =>
      rw [before.of_restrict.observed_concat stepped,
        before.of_restrict.observed_concat stepped]
      exact induction.step_alone (.of_step enabled.1 stepped) enabled.2

theorem stamped_start (level_ : Int) (tm : Tm) : ∃ requests calls,
    Stamped (fun _ => requests.map Prod.snd) requests calls
      (.new tm (opened level_) : Stamping Thread) :=
  ⟨[], [], stamped_new level_ tm _⟩

/-- Behind the time stamps there are threads that go through the section. -/
theorem stamp_refines (level_ : Int) :
    (stampMachine level_ :
      Machine (Stamping Thread) (StampAction Thread) Fault).Refines
      (logvSection level_).machine
      (fun state => ∃ requests calls,
        Stamped (fun _ => requests.map Prod.snd) requests calls state)
      Stamping.threads (inSection level_) := by
  constructor
  · intro state action next stamped enabled stepped
    obtain ⟨requests, calls, stamped⟩ := stamped
    exact ⟨_, _, stamped.step (.of_step enabled stepped)⟩
  · intro state action next _ enabled stepped unseen
    have moves : StampMoves level_ state action next :=
      .of_step enabled stepped
    cases moves with
    | hide outside idle hidden =>
        rw [inSection, if_pos hidden] at unseen
        cases unseen
    | start _ _ _ | store _ _ | load _ => rfl
    | print loading =>
        rw [inSection, loading] at unseen
        cases unseen
    | proceed _ _ => cases unseen
  · intro state action next seen stamped enabled stepped visible
    obtain ⟨requests, calls, stamped⟩ := stamped
    have moves : StampMoves level_ state action next :=
      .of_step enabled stepped
    cases moves with
    | hide outside idle hidden =>
        rw [inSection, if_pos hidden] at visible
        cases visible
        obtain ⟨going, free, _⟩ := enabled
        exact ⟨⟨going, free⟩, rfl⟩
    | start outside idle shown =>
        rw [inSection, if_neg shown] at visible
        cases visible
    | store _ _ | load _ => cases visible
    | @print thread request loaded loading =>
        rw [inSection, loading] at visible
        cases visible
        obtain ⟨going, _⟩ := enabled
        have outside := stamped.outside thread (by rw [loading]; rfl)
        exact ⟨⟨going, by rw [outside]; rfl⟩, rfl⟩
    | proceed allowed moved =>
        cases visible
        exact ⟨allowed, moved⟩

theorem logged_of_stamps
    (run : (stampMachine level_).Run (.new tm (opened level_)) actions
      state) :
    Logged level_
      ((stampMachine level_).observed (dated level_)
        (.new tm (opened level_)) actions)
      ((stampMachine level_).observed (ended level_)
        (.new tm (opened level_)) actions) state.threads := by
  obtain ⟨_, below⟩ := (stamp_refines level_).run (stamped_start level_ tm) run
  have logged := logged_of_run below
  have calls : _ = (stampMachine level_).observed (dated level_) _ _ :=
    (stamp_refines level_).observed_eq (stamped_start level_ tm) CriticalSection.made run
  have returns : _ = (stampMachine level_).observed (ended level_) _ _ :=
    (stamp_refines level_).observed_eq (stamped_start level_ tm)
      (logvSection level_).returned run
  rw [← calls, ← returns]
  exact logged

theorem stamp_safe (level_ : Int) (tm : Tm) :
    (stampMachine level_).Safe
      (.new tm (opened level_) : Stamping Thread) := by
  intro actions state action run enabled
  cases action with
  | log thread request =>
      by_cases hidden : level_ < request.level
      · exact ⟨_, if_pos hidden⟩
      · exact ⟨_, if_neg hidden⟩
  | store thread member =>
      show ∃ next, stampStep level_ state (.store thread member) = .ok next
      cases place : state.place thread with
      | idle | storing _ _ | loading _ _ _ => simp [stampStep, place]
  | load thread member =>
      show ∃ next, stampStep level_ state (.load thread member) = .ok next
      cases place : state.place thread with
      | idle | storing _ _ | loading _ _ _ => simp [stampStep, place]
  | print thread =>
      show ∃ next, stampStep level_ state (.print thread) = .ok next
      cases made : (state.place thread).made with
      | none | some call => simp [stampStep, made]
  | proceed thread =>
      obtain ⟨_, below⟩ :=
        (stamp_refines level_).run (stamped_start level_ tm) run
      obtain ⟨threads, moved⟩ :=
        section_safe level_ _ _ (.proceed thread) below enabled
      have moved : (logvSection level_).step state.threads
          (.proceed thread) = .ok threads := moved
      exact ⟨{ state with threads }, by
        show stampStep level_ state (.proceed thread) = _
        rw [stampStep, moved]
        rfl⟩

/-- The last day of a February and the first of a March. -/
def leapDay : Tm
  | .year => ⟨2024, by decide⟩
  | .month => ⟨2, by decide⟩
  | .mday => ⟨29, by decide⟩
  | .hour => ⟨23, by decide⟩
  | .min => ⟨59, by decide⟩
  | .sec => ⟨59, by decide⟩

def nextDay : Tm
  | .year => ⟨2024, by decide⟩
  | .month => ⟨3, by decide⟩
  | .mday => ⟨1, by decide⟩
  | .hour | .min | .sec => ⟨0, by decide⟩

def started : LogRequest :=
  { level := LEVEL_INFO, tm := leapDay, usec := 999000
    message := some (ascii "started")
    garbage := List.replicate LOG_BUF_LEN 7, reopened := false
    least := by decide, most := by decide, size := List.length_replicate }

def failed : LogRequest :=
  { started with
    level := LEVEL_FATAL, tm := nextDay, usec := 0
    message := some (ascii "failed"), least := by decide, most := by decide }

/-- The fatal message's month is stored before the other thread has read its own;
then the fatal call waits for the lock, and aborts. -/
def mixedRun : List (StampAction (Fin 2)) :=
  [.log 0 started, .log 1 failed] ++ tmMembers.map (.store 0) ++
    [.store 1 .month] ++ tmMembers.map (.load 0) ++
    (tmMembers.erase .month).map (.store 1) ++ tmMembers.map (.load 1) ++
    [.print 0, .print 1, .proceed 0, .proceed 1, .proceed 0] ++
    List.replicate 7 (.proceed 0) ++ List.replicate 8 (.proceed 1)

end Runs

end Logger

end Muduo
