import Muduo.Base.Buffer
import Muduo.Base.Logging
import Muduo.Library.Machine
import Muduo.Library.Ownership

/-!
# The listening socket

`handleRead` accepts a connection and hands its descriptor to the owner.  For the
time when the process has no descriptors left, `idleFd_` keeps one in reserve.
The owner and the rest of the program open and close descriptors in between.
-/

namespace Muduo

open Library

namespace Errno

def EMFILE : Errno := .other 24

def EBADF : Errno := .other 9

def ECONNABORTED : Errno := .other 103

end Errno

/-- What an open descriptor is; `accepted` is a connection that nobody has taken
over yet. -/
inductive FileKind where
  | listening
  | devNull
  | accepted
  | owned
  | other
  deriving DecidableEq, Repr

structure OpenFile where
  kind : FileKind
  nonBlock : Bool
  closeOnExec : Bool
  deriving DecidableEq, Repr

/-- The descriptor table of the process. -/
abbrev Files := Nat → Option OpenFile

namespace Files

/-- `close`, which does nothing for -1. -/
def close (files : Files) : Option Nat → Files
  | none => files
  | some fd => write files fd none

/-- The four `fcntl` calls in `accept`, with the value that they leave in `errno`
when they fail. -/
def setFlags (files : Files) (errno : Option Errno) :
    Option Nat → Files × Option Errno
  | none => (files, some Errno.EBADF)
  | some fd =>
      (write files fd ((files fd).map fun file =>
        { file with nonBlock := true, closeOnExec := true }), errno)

end Files

/-- What `accept(2)` answers. -/
inductive Accepted (Address : Type) where
  | connection (fd : Nat) (peer : Address)
  | error (errno : Errno)
  deriving DecidableEq, Repr

namespace Accepted

variable {Address : Type}

def connection? : Accepted Address → Option (Nat × Address)
  | connection fd peer => some (fd, peer)
  | error _ => none

def fd? (outcome : Accepted Address) : Option Nat :=
  outcome.connection?.map Prod.fst

def errno? : Accepted Address → Option Errno
  | connection _ _ => none
  | error errno => some errno

/-- The table after `accept(2)`. -/
def opens (outcome : Accepted Address) (files : Files) : Files :=
  match outcome with
  | connection fd _ => write files fd (some ⟨.accepted, false, false⟩)
  | error _ => files

end Accepted

/-- The answers of the kernel while one event is handled. -/
structure ListenEvent (Address : Type) where
  accepted : Accepted Address
  again : Accepted Address
  reopened : Option Nat
  deriving DecidableEq, Repr

/-- `newConnections` are the calls of the owner's `newConnection`. -/
structure ListeningSocket (Address : Type) where
  fd_ : Nat
  idleFd_ : Option Nat
  files : Files
  newConnections : List (Nat × Address)

namespace ListeningSocket

variable {Address : Type}

/-- `accept`, for a logger that is configured for `level_`. -/
def accept (level_ : Int) (outcome : Accepted Address) (files : Files) :
    Checked (Option (Nat × Address) × Option Errno × Files) := do
  let connfd := outcome.connection?
  if connfd = none then
    Logger.LOG_FATAL level_
  let (files, errno) :=
    (outcome.opens files).setFlags outcome.errno? (connfd.map Prod.fst)
  return (connfd, errno, files)

/-- The owner takes the descriptor over. -/
def newConnection (socket : ListeningSocket Address) (connfd : Nat)
    (peer : Address) : ListeningSocket Address :=
  { socket with
    files := write socket.files connfd
      ((socket.files connfd).map fun file => { file with kind := .owned })
    newConnections := socket.newConnections ++ [(connfd, peer)] }

/-- With the reserve given up, one connection can be accepted and closed. -/
def recover (socket : ListeningSocket Address) (event : ListenEvent Address) :
    ListeningSocket Address :=
  let closed := socket.files.close socket.idleFd_
  let accepted := event.again.opens closed
  let dropped := accepted.close event.again.fd?
  match event.reopened with
  | none => { socket with files := dropped, idleFd_ := none }
  | some fd =>
      { socket with
        files := write dropped fd (some ⟨.devNull, false, true⟩)
        idleFd_ := some fd }

def handleRead (level_ : Int) (event : ListenEvent Address)
    (socket : ListeningSocket Address) : Checked (ListeningSocket Address) := do
  let (connfd, errno, files) ← accept level_ event.accepted socket.files
  match connfd with
  | some (fd, peer) => return { socket with files }.newConnection fd peer
  | none =>
      if errno = some Errno.EMFILE then
        return { socket with files }.recover event
      return { socket with files }

theorem accept_connection (level_ : Int) (fd : Nat) (peer : Address)
    (files : Files) :
    accept level_ (.connection fd peer) files =
      .ok (some (fd, peer), none,
        write files fd (some ⟨.accepted, true, true⟩)) := by
  simp [accept, Accepted.connection?, Accepted.opens, Accepted.errno?,
    Files.setFlags, write_write, pure, Except.pure]

theorem accept_error_fatal {level_ : Int}
    (fatal : Logger.LEVEL_FATAL ≤ level_) (errno : Errno) (files : Files) :
    accept level_ (.error errno : Accepted Address) files =
      .error .logFatal := by
  have aborts : ¬ level_ < Logger.LEVEL_FATAL := by omega
  simp [accept, Accepted.connection?, Logger.LOG_FATAL, aborts]

/-- Where `LOG_FATAL` is not configured, `fcntl` hides the error. -/
theorem accept_error_quiet {level_ : Int}
    (quiet : level_ < Logger.LEVEL_FATAL) (errno : Errno) (files : Files) :
    accept level_ (.error errno : Accepted Address) files =
      .ok (none, some Errno.EBADF, files) := by
  simp [accept, Accepted.connection?, Logger.LOG_FATAL, quiet, Accepted.opens,
    Files.setFlags, pure, Except.pure]

variable {socket : ListeningSocket Address} {event : ListenEvent Address}

theorem handleRead_connection (level_ : Int) {fd : Nat} {peer : Address}
    (connected : event.accepted = .connection fd peer) :
    socket.handleRead level_ event =
      .ok { socket with
        files := write socket.files fd (some ⟨.owned, true, true⟩)
        newConnections := socket.newConnections ++ [(fd, peer)] } := by
  simp [handleRead, connected, accept_connection, newConnection, write_write,
    pure, Except.pure]

theorem handleRead_error_fatal {level_ : Int}
    (fatal : Logger.LEVEL_FATAL ≤ level_) {errno : Errno}
    (failed : event.accepted = .error errno) :
    socket.handleRead level_ event = .error .logFatal := by
  rw [handleRead, failed, accept_error_fatal fatal]
  rfl

theorem handleRead_error_quiet {level_ : Int}
    (quiet : level_ < Logger.LEVEL_FATAL) {errno : Errno}
    (failed : event.accepted = .error errno) :
    socket.handleRead level_ event = .ok socket := by
  have other : some Errno.EBADF ≠ some Errno.EMFILE := by decide
  simp [handleRead, failed, accept_error_quiet quiet, other, pure, Except.pure]

end ListeningSocket

/-- The socket between two events.  `accepted` are the connections that `accept`
took from the kernel; after an abort nothing happens any more. -/
structure Listener (Address : Type) where
  socket : ListeningSocket Address
  accepted : List (Nat × Address)
  aborted : Bool

inductive ListenAction (Address : Type) where
  | handleRead (event : ListenEvent Address)
  | ownerCloses (fd : Nat)
  | otherOpens (fd : Nat)
  | otherCloses (fd : Nat)
  deriving DecidableEq, Repr

namespace Listener

variable {Address : Type}

/-- A new socket, whose `open` of the reserve may have failed. -/
def new (fd : Nat) (idle : Option Nat) : Listener Address :=
  let listening : Files :=
    write (fun _ => none) fd (some ⟨.listening, true, true⟩)
  let files :=
    match idle with
    | none => listening
    | some reserve => write listening reserve (some ⟨.devNull, false, true⟩)
  { socket := { fd_ := fd, idleFd_ := idle, files, newConnections := [] }
    accepted := []
    aborted := false }

def setFile (listener : Listener Address) (fd : Nat) (file : Option OpenFile) :
    Listener Address :=
  { listener with socket := { listener.socket with
      files := write listener.socket.files fd file } }

def step (level_ : Int) (listener : Listener Address) :
    ListenAction Address → Checked (Listener Address)
  | .handleRead event =>
      match listener.socket.handleRead level_ event with
      | .ok socket => .ok
          { listener with
            socket
            accepted := listener.accepted ++ event.accepted.connection?.toList }
      | .error _ => .ok { listener with aborted := true }
  | .ownerCloses fd => .ok (listener.setFile fd none)
  | .otherOpens fd => .ok (listener.setFile fd (some ⟨.other, false, false⟩))
  | .otherCloses fd => .ok (listener.setFile fd none)

/-- A descriptor that the kernel can hand out. -/
def Free (listener : Listener Address) (fd : Nat) : Prop :=
  listener.socket.files fd = none

/-- What a descriptor is open for. -/
def kind (listener : Listener Address) (fd : Nat) : Option FileKind :=
  (listener.socket.files fd).map OpenFile.kind

/-- The kernel hands out free descriptors, the reserve among them once it was
closed; descriptors are closed by those who have them. -/
def Allowed (listener : Listener Address) : ListenAction Address → Prop
  | .handleRead event =>
      (∀ fd ∈ event.accepted.fd?, listener.Free fd) ∧
      (∀ fd ∈ event.again.fd?,
        listener.Free fd ∨ listener.socket.idleFd_ = some fd) ∧
      ∀ fd ∈ event.reopened,
        listener.Free fd ∨ listener.socket.idleFd_ = some fd
  | .ownerCloses fd => listener.kind fd = some .owned
  | .otherOpens fd => listener.Free fd
  | .otherCloses fd => listener.kind fd = some .other

def machine (Address : Type) (level_ : Int) :
    Machine (Listener Address) (ListenAction Address) Fault where
  enabled listener action := listener.aborted = false ∧ listener.Allowed action
  step := step level_

/-- All is well between two events. -/
structure Survived (listener : Listener Address) : Prop where
  running : listener.aborted = false
  served : listener.socket.newConnections = listener.accepted
  reserve : ∀ idle, listener.socket.idleFd_ = some idle →
    listener.kind idle = some .devNull
  owned : ∀ fd, listener.kind fd ≠ some .accepted

/-- The kernel has a connection for each event. -/
def Accepts (_ : Listener Address) : ListenAction Address → Prop
  | .handleRead event => ∃ fd peer, event.accepted = .connection fd peer
  | .ownerCloses _ | .otherOpens _ | .otherCloses _ => True

theorem kind_setFile (listener : Listener Address) (fd other : Nat)
    (file : Option OpenFile) :
    (listener.setFile fd file).kind other =
      if other = fd then file.map OpenFile.kind else listener.kind other := by
  by_cases here : other = fd
  · simp [kind, setFile, here]
  · simp [kind, setFile, write_other here, here]

theorem survived_new (fd : Nat) (idle : Option Nat) :
    (new fd idle : Listener Address).Survived where
  running := rfl
  served := rfl
  reserve := by
    intro reserve opened
    obtain rfl : idle = some reserve := opened
    simp [kind, new]
  owned := by
    intro other
    have listening : ((write (fun _ => none) fd
        (some ⟨.listening, true, true⟩) : Files) other).map OpenFile.kind ≠
          some .accepted := by
      by_cases here : other = fd
      · simp [here]
      · simp [write_other here]
    cases idle with
    | none => exact listening
    | some reserve =>
        by_cases here : other = reserve
        · simp [kind, new, here]
        · simpa [kind, new, write_other here] using listening

theorem Survived.setFile {listener : Listener Address}
    (survived : listener.Survived) {fd : Nat} {file : Option OpenFile}
    (elsewhere : listener.kind fd ≠ some .devNull)
    (other : file.map OpenFile.kind ≠ some .accepted) :
    (listener.setFile fd file).Survived where
  running := survived.running
  served := survived.served
  reserve := by
    intro idle opened
    have reserve := survived.reserve idle opened
    rw [kind_setFile, if_neg]
    · exact reserve
    · intro here
      rw [here] at reserve
      exact elsewhere reserve
  owned := by
    intro index
    rw [kind_setFile]
    split
    · exact other
    · exact survived.owned index

theorem kind_eq_none {listener : Listener Address} {fd : Nat}
    (free : listener.Free fd) : listener.kind fd = none :=
  congrArg (Option.map OpenFile.kind) free

theorem Survived.connection {listener : Listener Address}
    (survived : listener.Survived) {fd : Nat} (peer : Address)
    (free : listener.Free fd) :
    Survived { listener with
      socket := { listener.socket with
        files := write listener.socket.files fd (some ⟨.owned, true, true⟩)
        newConnections := listener.socket.newConnections ++ [(fd, peer)] }
      accepted := listener.accepted ++ [(fd, peer)] } := by
  have taken : (listener.setFile fd (some ⟨.owned, true, true⟩)).Survived := by
    apply survived.setFile
    · rw [kind_eq_none free]
      simp
    · simp
  refine ⟨survived.running, ?_, taken.reserve, taken.owned⟩
  exact congrArg (· ++ [(fd, peer)]) survived.served

/-- The recovery keeps no connection, and has its reserve again if `open` had a
descriptor for it. -/
theorem Survived.recover {listener : Listener Address}
    (survived : listener.Survived) (event : ListenEvent Address) :
    Survived { listener with socket := listener.socket.recover event } := by
  have dropped : ∀ fd, (((event.again.opens
      (listener.socket.files.close listener.socket.idleFd_)).close
        event.again.fd?) fd).map OpenFile.kind ≠ some .accepted := by
    intro fd
    have before : ((listener.socket.files.close listener.socket.idleFd_)
        fd).map OpenFile.kind ≠ some .accepted := by
      cases listener.socket.idleFd_ with
      | none => exact survived.owned fd
      | some idle =>
          by_cases here : fd = idle
          · simp [Files.close, here]
          · simpa [kind, Files.close, write_other here] using survived.owned fd
    cases event.again with
    | error errno => exact before
    | connection again peer =>
        by_cases here : fd = again
        · simp [Accepted.opens, Accepted.fd?, Accepted.connection?,
            Files.close, here]
        · simpa [Accepted.opens, Accepted.fd?, Accepted.connection?,
            Files.close, write_other here] using before
  cases reopened : event.reopened with
  | none =>
      refine ⟨survived.running, ?_, ?_, ?_⟩
      · simpa [ListeningSocket.recover, reopened] using survived.served
      · simp [ListeningSocket.recover, reopened]
      · intro fd
        simpa [kind, ListeningSocket.recover, reopened] using dropped fd
  | some reserve =>
      refine ⟨survived.running, ?_, ?_, ?_⟩
      · simpa [ListeningSocket.recover, reopened] using survived.served
      · simp [kind, ListeningSocket.recover, reopened]
      · intro fd
        by_cases here : fd = reserve
        · simp [kind, ListeningSocket.recover, reopened, here]
        · simpa [kind, ListeningSocket.recover, reopened, write_other here]
            using dropped fd

theorem step_setFile {level_ : Int} {listener next : Listener Address}
    {action : ListenAction Address}
    (other : ∀ event, action ≠ .handleRead event)
    (allowed : listener.Allowed action)
    (stepped : listener.step level_ action = .ok next) :
    ∃ fd file, next = listener.setFile fd file ∧
      listener.kind fd ≠ some .devNull ∧
      file.map OpenFile.kind ≠ some .accepted := by
  cases action with
  | handleRead event => exact absurd rfl (other event)
  | ownerCloses fd =>
      have closed : listener.kind fd = some .owned := allowed
      refine ⟨fd, none, (Except.ok.inj stepped).symm, ?_, by simp⟩
      simp [closed]
  | otherOpens fd =>
      have free : listener.Free fd := allowed
      refine ⟨fd, _, (Except.ok.inj stepped).symm, ?_, by simp⟩
      simp [kind_eq_none free]
  | otherCloses fd =>
      have closed : listener.kind fd = some .other := allowed
      refine ⟨fd, none, (Except.ok.inj stepped).symm, ?_, by simp⟩
      simp [closed]

/-- One event is survived exactly if it brings a connection. -/
theorem survived_iff_accepts {level_ : Int}
    (fatal : Logger.LEVEL_FATAL ≤ level_) {listener next : Listener Address}
    {action : ListenAction Address} (survived : listener.Survived)
    (allowed : listener.Allowed action)
    (stepped : listener.step level_ action = .ok next) :
    next.Survived ↔ listener.Accepts action := by
  cases action with
  | handleRead event =>
      cases outcome : event.accepted with
      | connection fd peer =>
          have free : listener.Free fd := allowed.1 fd (by
            simp [outcome, Accepted.fd?, Accepted.connection?])
          have handled : listener.socket.handleRead level_ event = _ :=
            ListeningSocket.handleRead_connection level_ outcome
          simp only [step, handled, outcome] at stepped
          obtain rfl := Except.ok.inj stepped
          exact iff_of_true (survived.connection peer free)
            ⟨fd, peer, outcome⟩
      | error errno =>
          have handled : listener.socket.handleRead level_ event = _ :=
            ListeningSocket.handleRead_error_fatal fatal outcome
          simp only [step, handled] at stepped
          obtain rfl := Except.ok.inj stepped
          refine iff_of_false ?_ ?_
          · intro after
            cases after.running
          · rintro ⟨fd, peer, connected⟩
            cases outcome.symm.trans connected
  | ownerCloses fd | otherOpens fd | otherCloses fd =>
      obtain ⟨index, file, rfl, elsewhere, kind⟩ :=
        step_setFile (by simp) allowed stepped
      exact iff_of_true (survived.setFile elsewhere kind) trivial

/-- In all states of a run everything is well exactly if all events of the run
bring a connection. -/
theorem survived_iff {level_ : Int} (fatal : Logger.LEVEL_FATAL ≤ level_)
    {fd : Nat} {idle : Option Nat} {actions : List (ListenAction Address)}
    {final : Listener Address}
    (run : (machine Address level_).Run (new fd idle) actions final) :
    (∀ first second middle, actions = first ++ second →
      (machine Address level_).Run (new fd idle) first middle →
      middle.Survived) ↔
    ((machine Address level_).restrict Accepts).Run (new fd idle) actions
      final := by
  let always : Listener Address → Prop := fun _ => True
  have base : always (new fd idle) := trivial
  apply run.always_iff_restrict base (survived_new fd idle)
  · intro _ _ _ _ _ _
    trivial
  · intro listener action next _ survived enabled stepped
    exact survived_iff_accepts fatal survived enabled.2 stepped

instance (listener : Listener Nat) (action : ListenAction Nat) :
    Decidable (listener.Allowed action) :=
  match action with
  | .handleRead event => inferInstanceAs (Decidable (
      (∀ fd ∈ event.accepted.fd?, listener.socket.files fd = none) ∧
      (∀ fd ∈ event.again.fd?, listener.socket.files fd = none ∨
        listener.socket.idleFd_ = some fd) ∧
      ∀ fd ∈ event.reopened, listener.socket.files fd = none ∨
        listener.socket.idleFd_ = some fd))
  | .ownerCloses fd =>
      inferInstanceAs (Decidable (listener.kind fd = some .owned))
  | .otherOpens fd =>
      inferInstanceAs (Decidable (listener.socket.files fd = none))
  | .otherCloses fd =>
      inferInstanceAs (Decidable (listener.kind fd = some .other))

instance (level_ : Int) (listener : Listener Nat) (action : ListenAction Nat) :
    Decidable ((machine Nat level_).enabled listener action) :=
  inferInstanceAs (Decidable (listener.aborted = false ∧
    listener.Allowed action))

instance (listener : Listener Nat) (action : ListenAction Nat) :
    Decidable (listener.Accepts action) :=
  match action with
  | .handleRead event =>
      match outcome : event.accepted with
      | .connection fd peer => .isTrue ⟨fd, peer, outcome⟩
      | .error _ => .isFalse (by
          rintro ⟨fd, peer, connected⟩
          cases outcome.symm.trans connected)
  | .ownerCloses _ | .otherOpens _ | .otherCloses _ => .isTrue trivial

/-- An event with a connection, or with an error, when descriptor 3 is free for a
second attempt and for the reserve. -/
def eventOf (accepted : Accepted Nat) : ListenAction Nat :=
  .handleRead { accepted, again := .connection 3 0, reopened := some 3 }

/-- Two connections and other descriptors in between. -/
theorem survived_iff_two :
    ∃ final, (machine Nat Logger.LEVEL_TRACE).Run (new 4 (some 3))
        [eventOf (.connection 5 80), .otherOpens 6, .ownerCloses 5,
          eventOf (.connection 5 81)] final ∧
      final.Survived ∧
      final.socket.newConnections = [(5, 80), (5, 81)] := by
  have configured : Logger.LEVEL_FATAL ≤ Logger.LEVEL_TRACE := by decide
  have found : (((machine Nat Logger.LEVEL_TRACE).restrict Accepts).execute
      (new 4 (some 3)) [eventOf (.connection 5 80), .otherOpens 6,
        .ownerCloses 5, eventOf (.connection 5 81)]).any
      (fun final => final.socket.newConnections = [(5, 80), (5, 81)]) =
        true := by decide +kernel
  obtain ⟨final, restricted, served⟩ := Machine.run_of_execute found
  have run := restricted.of_restrict
  have always := (survived_iff configured run).mpr restricted
  exact ⟨final, run, always _ [] final (List.append_nil _).symm run,
    of_decide_eq_true served⟩

/-- A peer that is gone before it is accepted stops the process, and so does the
want of descriptors. -/
theorem accept_error_aborts :
    (∃ final, (machine Nat Logger.LEVEL_TRACE).Run (new 4 (some 3))
      [eventOf (.connection 5 80), eventOf (.error Errno.ECONNABORTED)]
        final ∧ ¬ final.Survived) ∧
    ∃ final, (machine Nat Logger.LEVEL_TRACE).Run (new 4 (some 3))
      [eventOf (.error Errno.EMFILE)] final ∧ ¬ final.Survived := by
  have first : ((machine Nat Logger.LEVEL_TRACE).execute (new 4 (some 3))
      [eventOf (.connection 5 80),
        eventOf (.error Errno.ECONNABORTED)]).any (·.aborted) = true := by
    decide +kernel
  have second : ((machine Nat Logger.LEVEL_TRACE).execute (new 4 (some 3))
      [eventOf (.error Errno.EMFILE)]).any (·.aborted) = true := by
    decide +kernel
  obtain ⟨afterAborted, firstRun, firstAborted⟩ := Machine.run_of_execute first
  obtain ⟨afterFull, secondRun, secondAborted⟩ := Machine.run_of_execute second
  refine ⟨⟨afterAborted, firstRun, ?_⟩, ⟨afterFull, secondRun, ?_⟩⟩
  · intro survived
    cases survived.running.symm.trans firstAborted
  · intro survived
    cases survived.running.symm.trans secondAborted

/-- Whatever the configured level is, `handleRead` never gives the reserve up: an
error either aborts, or `accept` has replaced it when `errno` is compared. -/
theorem idleFd_constant {level_ : Int} {fd : Nat} {idle : Option Nat}
    {actions : List (ListenAction Address)} {final : Listener Address}
    (run : (machine Address level_).Run (new fd idle) actions final) :
    final.socket.idleFd_ = idle := by
  apply run.state_invariant (fun listener => listener.socket.idleFd_ = idle) rfl
  intro listener action next same enabled taken
  have stepped : listener.step level_ action = .ok next := taken
  cases action with
  | handleRead event =>
      cases outcome : event.accepted with
      | connection fd peer =>
          have handled : listener.socket.handleRead level_ event = _ :=
            ListeningSocket.handleRead_connection level_ outcome
          simp only [step, handled] at stepped
          obtain rfl := Except.ok.inj stepped
          exact same
      | error errno =>
          by_cases fatal : Logger.LEVEL_FATAL ≤ level_
          · have handled : listener.socket.handleRead level_ event = _ :=
              ListeningSocket.handleRead_error_fatal fatal outcome
            simp only [step, handled] at stepped
            obtain rfl := Except.ok.inj stepped
            exact same
          · have quiet : level_ < Logger.LEVEL_FATAL := by omega
            have handled : listener.socket.handleRead level_ event = _ :=
              ListeningSocket.handleRead_error_quiet quiet outcome
            simp only [step, handled] at stepped
            obtain rfl := Except.ok.inj stepped
            exact same
  | ownerCloses other | otherOpens other | otherCloses other =>
      obtain ⟨index, file, rfl, _, _⟩ :=
        step_setFile (by simp) enabled.2 stepped
      exact same

end Listener

end Muduo
