import Muduo.Net.PollBatches

/-!
# Handlers that come and go

The handlers of all loops of a process that own their descriptors: each is
constructed for an open descriptor, takes it over from other code and closes it in
`~FdHandler`, and nobody else does.  The links of a `TcpServer`,
`ListeningSocket` and `WakeupFd` are such handlers; `ConnectSocket`, which begins
with -1 and later shares the descriptor of its link, and `TimerQueue`, whose
destructor closes it a second time, are not.  Addresses and descriptors are used again.  Nothing that a
poller or the kernel has of a handler outlives it.
-/

namespace Muduo

open Library

/-- An allocated handler with its loop and its interest at its last update;
`removed` says that its destructor has removed it from the poller. -/
structure LiveHandler (Loop : Type) where
  loop : Loop
  handler : FdHandler
  lastEvents : EventMask
  removed : Bool

/-- The pollers of all loops, the handlers at their addresses, and the open
descriptors, each with the handler that will close it or `none` for other code. -/
structure Process (Loop Address : Type) where
  pollers : Loop → Epoll Address
  heap : Address → Option (LiveHandler Loop)
  files : Int → Option (Option Address)

/-- Other code opens and closes descriptors; a handler takes one over when it is
constructed.  `remove` and `close` are the two halves of `~FdHandler`. -/
inductive ProcessAction (Loop Address : Type) where
  | opens (fd : Int)
  | closes (fd : Int)
  | construct (address : Address) (loop : Loop) (fd : Int)
  | call (address : Address) (call : HandlerCall)
  | remove (address : Address)
  | close (address : Address)

/-- What the asserts let through, by the handler alone. -/
def FdHandler.Accepts (handler : FdHandler) : HandlerCall → Prop
  | .updateInPoll .AddEvent => handler.stateInPoll ≠ .Added
  | .updateInPoll .ModEvent => handler.stateInPoll = .Added
  | .updateInPoll .DelEvent =>
      handler.stateInPoll ≠ .New ∧ handler.isNoneEvent = true
  | _ => True

namespace LiveHandler

variable {Loop Address : Type} [DecidableEq Address]

def call (live : LiveHandler Loop) (poller : Epoll Address)
    (this : Address) :
    HandlerCall → Checked (Epoll Address × LiveHandler Loop)
  | .enableReading => .ok
      (poller, { live with handler := live.handler.enableReading })
  | .enableWriting => .ok
      (poller, { live with handler := live.handler.enableWriting })
  | .disableReading => .ok
      (poller, { live with handler := live.handler.disableReading })
  | .disableWriting => .ok
      (poller, { live with handler := live.handler.disableWriting })
  | .disableAll => .ok
      (poller, { live with handler := live.handler.disableAll })
  | .updateInPoll flag => do
      let (poller, handler) ← poller.updateInPoll this live.handler flag
      return (poller,
        { live with handler, lastEvents := live.handler.events })

/-- The first half of `~FdHandler`. -/
def remove (live : LiveHandler Loop) (poller : Epoll Address)
    (this : Address) : Checked (Epoll Address × LiveHandler Loop) := do
  let (poller, live) ← live.call poller this .disableAll
  let (poller, live) ← live.call poller this (.updateInPoll .DelEvent)
  return (poller, { live with removed := true })

end LiveHandler

namespace Process

section Steps

variable {Loop Address : Type}

def new : Process Loop Address :=
  { pollers := fun _ => .new, heap := fun _ => none, files := fun _ => none }

/-- The kernel closes a descriptor and forgets it in every interest list. -/
def closeFile (process : Process Loop Address) (fd : Int) :
    Process Loop Address :=
  { process with
    pollers := fun loop => (process.pollers loop).closed fd
    files := write process.files fd none }

variable [DecidableEq Loop] [DecidableEq Address]

/-- What a handler does to itself and to the poller of its loop. -/
def perform (process : Process Loop Address) (this : Address)
    (body : LiveHandler Loop → Epoll Address →
      Checked (Epoll Address × LiveHandler Loop)) :
    Checked (Process Loop Address) :=
  match process.heap this with
  | none => .ok process
  | some live => do
      let (poller, after) ← body live (process.pollers live.loop)
      return { process with
        pollers := Function.update process.pollers live.loop poller
        heap := write process.heap this (some after) }

def step (process : Process Loop Address) :
    ProcessAction Loop Address → Checked (Process Loop Address)
  | .opens fd => .ok
      { process with files := write process.files fd (some none) }
  | .closes fd => .ok (process.closeFile fd)
  | .construct address loop fd => .ok
      { process with
        heap := write process.heap address
          (some ⟨loop, .new fd, kNoneEvent, false⟩)
        files := write process.files fd (some (some address)) }
  | .call address call =>
      process.perform address fun live poller =>
        live.call poller address call
  | .remove address =>
      process.perform address fun live poller => live.remove poller address
  | .close address =>
      match process.heap address with
      | none => .ok process
      | some live => .ok
          { process.closeFile live.handler.fd with
            heap := write process.heap address none }

omit [DecidableEq Loop] [DecidableEq Address] in
/-- The kernel opens what is closed, and the allocator gives out what is free.  A
handler takes over an open descriptor that no other handler owns, and other code
does not close it any more. -/
def Enabled (process : Process Loop Address) :
    ProcessAction Loop Address → Prop
  | .opens fd => (process.files fd).isNone = true
  | .closes fd => process.files fd = some none
  | .construct address _ fd =>
      (process.heap address).isNone = true ∧ process.files fd = some none
  | .call address _ | .remove address =>
      (process.heap address).any (fun live => !live.removed) = true
  | .close address => (process.heap address).any LiveHandler.removed = true

omit [DecidableEq Loop] in
instance decidableEnabled (process : Process Loop Address)
    (action : ProcessAction Loop Address) :
    Decidable (process.Enabled action) :=
  match action with
  | .opens fd =>
      inferInstanceAs (Decidable ((process.files fd).isNone = true))
  | .closes fd =>
      inferInstanceAs (Decidable (process.files fd = some none))
  | .construct address _ fd =>
      inferInstanceAs (Decidable ((process.heap address).isNone = true ∧
        process.files fd = some none))
  | .call address _ | .remove address =>
      inferInstanceAs (Decidable
        ((process.heap address).any (fun live => !live.removed) = true))
  | .close address =>
      inferInstanceAs (Decidable
        ((process.heap address).any LiveHandler.removed = true))

def machine (Loop Address : Type) [DecidableEq Loop] [DecidableEq Address] :
    Machine (Process Loop Address) (ProcessAction Loop Address) Fault where
  enabled := Enabled
  step := step

instance decidableMachine (process : Process Loop Address)
    (action : ProcessAction Loop Address) :
    Decidable ((machine Loop Address).enabled process action) :=
  process.decidableEnabled action

/-- The destructor runs into an assert if the handler is not in the poller. -/
def Accepts (process : Process Loop Address) :
    ProcessAction Loop Address → Prop
  | .call address call => ∀ live, process.heap address = some live →
      live.handler.Accepts call
  | .remove address => ∀ live, process.heap address = some live →
      live.handler.stateInPoll ≠ .New
  | _ => True

end Steps

end Process

namespace LiveHandler

variable {Loop Address : Type} {live after : LiveHandler Loop}
variable {poller next : Epoll Address} {this : Address}

/-- What an update leaves: the poller mirrors the handler, and has what it had
under all other descriptors. -/
structure Updates (this : Address) (live : LiveHandler Loop)
    (poller : Epoll Address) (after : LiveHandler Loop)
    (next : Epoll Address) : Prop where
  loop : after.loop = live.loop
  fd : after.handler.fd = live.handler.fd
  mirrors : Mirrors next this after.handler after.lastEvents
  known : ∀ fd, fd ≠ live.handler.fd →
    next.fd2handler fd = poller.fd2handler fd
  watched : ∀ fd, fd ≠ live.handler.fd → next.interest fd = poller.interest fd

theorem updates_interest
    (mirrors : Mirrors poller this live.handler live.lastEvents)
    {handler : FdHandler} (fd : handler.fd = live.handler.fd)
    (state : handler.stateInPoll = live.handler.stateInPoll) :
    Updates this live poller { live with handler } poller where
  loop := rfl
  fd := fd
  mirrors := mirrors.interested fd state
  known _ _ := rfl
  watched _ _ := rfl

variable [DecidableEq Address]

theorem call_updates
    (mirrors : Mirrors poller this live.handler live.lastEvents)
    {call : HandlerCall} (called : live.call poller this call =
      .ok (next, after)) :
    Updates this live poller after next ∧ after.removed = live.removed := by
  cases call with
  | enableReading | enableWriting | disableReading | disableWriting
  | disableAll =>
      cases called
      exact ⟨updates_interest mirrors rfl rfl, rfl⟩
  | updateInPoll flag =>
      obtain ⟨⟨updated, handler⟩, changed, result⟩ := bind_eq_ok called
      cases result
      obtain ⟨rfl, fd, events⟩ := mirrors.of_updateInPoll changed
      refine ⟨⟨rfl, fd, ?_, ?_, ?_⟩, rfl⟩
      · rw [← events]
        exact Epoll.record_mirrors
      · intro other apart
        rw [← fd] at apart
        exact write_other apart
      · intro other apart
        rw [← fd] at apart
        exact write_other apart

theorem updateInPoll_ok {handler : FdHandler} {last : EventMask}
    (mirrors : Mirrors poller this handler last) {flag : OptFlag} :
    (∃ result, poller.updateInPoll this handler flag = .ok result) ↔
      handler.Accepts (.updateInPoll flag) := by
  by_cases old : flag = .DelEvent → handler.stateInPoll ≠ .New
  · rw [mirrors.updateInPoll_eq old]
    cases flag with
    | AddEvent =>
        by_cases unwatched : handler.stateInPoll ≠ .Added
        · simp [FdHandler.updateInPoll, FdHandler.Accepts, unwatched, pure,
            Except.pure, Except.map]
        · simp [FdHandler.updateInPoll, FdHandler.Accepts, unwatched,
            Except.map]
    | ModEvent =>
        by_cases added : handler.stateInPoll = .Added
        · simp [FdHandler.updateInPoll, FdHandler.Accepts, added, pure,
            Except.pure, Except.map]
        · simp [FdHandler.updateInPoll, FdHandler.Accepts, added, Except.map]
    | DelEvent =>
        by_cases silent : handler.isNoneEvent = true
        · simp [FdHandler.updateInPoll, FdHandler.removeHandler,
            FdHandler.Accepts, silent, old rfl, pure, Except.pure, Except.map]
        · simp [FdHandler.updateInPoll, FdHandler.removeHandler,
            FdHandler.Accepts, silent, Except.map]
  · obtain ⟨rfl, new⟩ := Classical.not_imp.mp old
    have refused := mirrors.removeHandler_new (not_not.mp new)
    constructor
    · rintro ⟨result, removed⟩
      cases refused.symm.trans removed
    · rintro ⟨known, _⟩
      exact absurd known new

theorem call_ok (mirrors : Mirrors poller this live.handler live.lastEvents)
    {call : HandlerCall} : (∃ result, live.call poller this call = .ok result) ↔
      live.handler.Accepts call := by
  cases call with
  | enableReading | enableWriting | disableReading | disableWriting
  | disableAll => exact ⟨fun _ => trivial, fun _ => ⟨_, rfl⟩⟩
  | updateInPoll flag =>
      rw [← updateInPoll_ok mirrors]
      constructor
      · rintro ⟨_, called⟩
        obtain ⟨result, updated, _⟩ := bind_eq_ok called
        exact ⟨result, updated⟩
      · rintro ⟨⟨updated, handler⟩, same⟩
        rw [call, same]
        exact ⟨_, rfl⟩

/-- `disableAll` is what the assert on the interest asks for. -/
theorem remove_ok (mirrors : Mirrors poller this live.handler live.lastEvents) :
    (∃ result, live.remove poller this = .ok result) ↔
      live.handler.stateInPoll ≠ .New := by
  have quiet : Mirrors poller this live.handler.disableAll live.lastEvents :=
    mirrors.interested rfl rfl
  have deletes : (∃ result, poller.updateInPoll this live.handler.disableAll
      .DelEvent = .ok result) ↔ live.handler.stateInPoll ≠ .New := by
    rw [updateInPoll_ok quiet]
    exact ⟨And.left, fun known => ⟨known, rfl⟩⟩
  rw [← deletes]
  constructor
  · rintro ⟨_, removed⟩
    obtain ⟨_, disabled, rest⟩ := bind_eq_ok removed
    cases disabled
    obtain ⟨_, called, _⟩ := bind_eq_ok rest
    obtain ⟨result, updated, _⟩ := bind_eq_ok called
    exact ⟨result, updated⟩
  · rintro ⟨⟨updated, handler⟩, same⟩
    simp only [remove, call, ok_bind, same]
    exact ⟨_, rfl⟩

/-- The kernel refuses nothing that a handler asks for. -/
theorem call_ctl (mirrors : Mirrors poller this live.handler live.lastEvents)
    (call : HandlerCall) : live.call poller this call ≠ .error .epollCtl := by
  intro failed
  cases call with
  | enableReading | enableWriting | disableReading | disableWriting
  | disableAll => cases failed
  | updateInPoll flag =>
      rcases bind_eq_error failed with refused | ⟨_, _, ended⟩
      · exact mirrors.updateInPoll_ctl flag refused
      · cases ended

theorem remove_ctl (mirrors : Mirrors poller this live.handler live.lastEvents) :
    live.remove poller this ≠ .error .epollCtl := by
  intro failed
  rcases bind_eq_error failed with refused | ⟨⟨same, silent⟩, disabled, rest⟩
  · cases refused
  · cases disabled
    have quiet : Mirrors poller this live.handler.disableAll
        live.lastEvents := mirrors.interested rfl rfl
    rcases bind_eq_error rest with refused | ⟨_, _, ended⟩
    · exact call_ctl quiet (.updateInPoll .DelEvent) refused
    · cases ended

theorem removeHandler_state {handler final : FdHandler}
    (removed : poller.removeHandler this handler = .ok (next, final)) :
    final.stateInPoll = .New := by
  obtain ⟨_, _, same⟩ := bind_eq_ok removed
  obtain ⟨_, _, none⟩ := bind_eq_ok same
  obtain ⟨_, _, erased⟩ := bind_eq_ok none
  dsimp only at erased
  split at erased
  · obtain ⟨_, _, result⟩ := bind_eq_ok erased
    cases result
    rfl
  · cases erased
    rfl

theorem remove_updates
    (mirrors : Mirrors poller this live.handler live.lastEvents)
    (removed : live.remove poller this = .ok (next, after)) :
    Updates this live poller after next ∧
      after.handler.stateInPoll = .New := by
  obtain ⟨⟨same, silent⟩, disabled, rest⟩ := bind_eq_ok removed
  cases disabled
  obtain ⟨⟨erased, final⟩, deleted, result⟩ := bind_eq_ok rest
  cases result
  have quiet : Mirrors poller this live.handler.disableAll live.lastEvents :=
    mirrors.interested rfl rfl
  obtain ⟨updates, _⟩ := call_updates quiet deleted
  obtain ⟨⟨poller, handler⟩, changed, last⟩ := bind_eq_ok deleted
  cases last
  exact ⟨⟨updates.loop, updates.fd, updates.mirrors, updates.known,
    updates.watched⟩, removeHandler_state changed⟩

end LiveHandler

namespace Process

variable {Loop Address : Type} [DecidableEq Loop] [DecidableEq Address]
variable {process next : Process Loop Address}

/-- All that pollers and the kernel have belongs to handlers that are allocated,
and each of these is the one that closes its descriptor. -/
structure Lives (process : Process Loop Address) : Prop where
  mirrors : ∀ address live, process.heap address = some live →
    Mirrors (process.pollers live.loop) address live.handler live.lastEvents
  known : ∀ loop fd address,
    (process.pollers loop).fd2handler fd = some address →
    ∃ live, process.heap address = some live ∧ live.loop = loop ∧
      live.handler.fd = fd
  watched : ∀ loop fd event,
    (process.pollers loop).interest fd = some event →
    (process.pollers loop).fd2handler fd = some event.ptr
  holds : ∀ address live, process.heap address = some live →
    process.files live.handler.fd = some (some address)
  removed : ∀ address live, process.heap address = some live →
    live.removed = true → live.handler.stateInPoll = .New

namespace Lives

omit [DecidableEq Loop] [DecidableEq Address] in
theorem new : Lives (Process.new : Process Loop Address) where
  mirrors _ _ found := by cases found
  known _ _ _ found := by cases found
  watched _ _ _ found := by cases found
  holds _ _ found := by cases found
  removed _ _ found := by cases found

omit [DecidableEq Loop] [DecidableEq Address] in
theorem fd_ne (lives : process.Lives) {address other : Address}
    {live rest : LiveHandler Loop} (here : process.heap address = some live)
    (there : process.heap other = some rest) (apart : other ≠ address) :
    rest.handler.fd ≠ live.handler.fd := by
  intro same
  have first := lives.holds address live here
  have second := lives.holds other rest there
  rw [same, first] at second
  exact apart (Option.some.inj (Option.some.inj second)).symm

omit [DecidableEq Loop] [DecidableEq Address] in
theorem unknown (lives : process.Lives) {fd : Int}
    (unused : ∀ address live, process.heap address = some live →
      live.handler.stateInPoll ≠ .New → live.handler.fd ≠ fd)
    (loop : Loop) :
    (process.pollers loop).fd2handler fd = none ∧
      (process.pollers loop).interest fd = none := by
  have absent : (process.pollers loop).fd2handler fd = none := by
    cases found : (process.pollers loop).fd2handler fd with
    | none => rfl
    | some address =>
        obtain ⟨live, here, rfl, rfl⟩ := lives.known loop fd address found
        have recorded := (lives.mirrors address live here).known
        by_cases new : live.handler.stateInPoll = .New
        · rw [found, new] at recorded
          cases recorded
        · exact absurd rfl (unused address live here new)
  refine ⟨absent, ?_⟩
  cases found : (process.pollers loop).interest fd with
  | none => rfl
  | some event =>
      have known := lives.watched loop fd event found
      rw [absent] at known
      cases known

theorem perform (lives : process.Lives) {this : Address}
    {live after : LiveHandler Loop} {poller : Epoll Address}
    (here : process.heap this = some live)
    (updates : live.Updates this (process.pollers live.loop) after poller)
    (removed : after.removed = true → after.handler.stateInPoll = .New) :
    Lives { process with
      pollers := Function.update process.pollers live.loop poller
      heap := write process.heap this (some after) } := by
  refine ⟨?_, ?_, ?_, ?_, ?_⟩
  · intro address rest found
    dsimp only
    by_cases same : address = this
    · subst same
      obtain rfl := Option.some.inj (write_same.symm.trans found)
      rw [updates.loop, Function.update_self]
      exact updates.mirrors
    · have there := (write_other same).symm.trans found
      have before := lives.mirrors address rest there
      have apart := lives.fd_ne here there same
      by_cases own : rest.loop = live.loop
      · rw [own, Function.update_self]
        rw [own] at before
        exact ⟨(updates.known _ apart).trans before.known,
          (updates.watched _ apart).trans before.watched⟩
      · rw [Function.update_of_ne own]
        exact before
  · intro loop fd address found
    have kept (rest : LiveHandler Loop)
        (there : process.heap address = some rest)
        (other : rest ≠ live) :
        write process.heap this (some after) address = some rest := by
      have apart : address ≠ this := by
        rintro rfl
        exact other (Option.some.inj (there.symm.trans here))
      exact (write_other apart).trans there
    by_cases own : loop = live.loop
    · subst own
      simp only [Function.update_self] at found
      by_cases same : fd = live.handler.fd
      · subst same
        have recorded := updates.mirrors.known
        rw [updates.fd, found] at recorded
        cases state : after.handler.stateInPoll with
        | New =>
            rw [state] at recorded
            cases recorded
        | Added | Deleted =>
            rw [state] at recorded
            cases recorded
            exact ⟨after, write_same, updates.loop, updates.fd⟩
      · rw [updates.known fd same] at found
        obtain ⟨rest, there, loop, rfl⟩ :=
          lives.known live.loop fd address found
        refine ⟨rest, kept rest there ?_, loop, rfl⟩
        rintro rfl
        exact same rfl
    · simp only [Function.update_of_ne own] at found
      obtain ⟨rest, there, rfl, fd⟩ := lives.known loop fd address found
      refine ⟨rest, kept rest there ?_, rfl, fd⟩
      rintro rfl
      exact own rfl
  · intro loop fd event found
    by_cases own : loop = live.loop
    · subst own
      simp only [Function.update_self] at found ⊢
      by_cases same : fd = live.handler.fd
      · subst same
        have recorded := updates.mirrors.watched
        have known := updates.mirrors.known
        rw [updates.fd, found] at recorded
        rw [updates.fd] at known
        cases state : after.handler.stateInPoll with
        | New | Deleted =>
            rw [state] at recorded
            cases recorded
        | Added =>
            rw [state] at recorded known
            cases recorded
            exact known
      · rw [updates.watched fd same] at found
        rw [updates.known fd same]
        exact lives.watched live.loop fd event found
    · simp only [Function.update_of_ne own] at found ⊢
      exact lives.watched loop fd event found
  · intro address rest found
    by_cases same : address = this
    · subst same
      obtain rfl := Option.some.inj (write_same.symm.trans found)
      rw [updates.fd]
      exact lives.holds address live here
    · exact lives.holds address rest ((write_other same).symm.trans found)
  · intro address rest found
    by_cases same : address = this
    · subst same
      obtain rfl := Option.some.inj (write_same.symm.trans found)
      exact removed
    · exact lives.removed address rest ((write_other same).symm.trans found)

omit [DecidableEq Loop] in
theorem construct (lives : process.Lives) {address : Address} (loop : Loop)
    {fd : Int} (free : process.heap address = none)
    (given : process.files fd = some none) :
    Lives { process with
      heap := write process.heap address
        (some ⟨loop, .new fd, kNoneEvent, false⟩)
      files := write process.files fd (some (some address)) } := by
  have unused : ∀ other live, process.heap other = some live →
      live.handler.fd ≠ fd := by
    rintro other live there rfl
    have held := lives.holds other live there
    rw [given] at held
    cases held
  have unknown := lives.unknown fun other live there _ =>
    unused other live there
  have kept (other : Address) (live : LiveHandler Loop)
      (found : write process.heap address
        (some ⟨loop, .new fd, kNoneEvent, false⟩) other = some live) :
      other = address ∧ live = ⟨loop, .new fd, kNoneEvent, false⟩ ∨
        process.heap other = some live := by
    by_cases same : other = address
    · subst same
      exact .inl ⟨rfl, Option.some.inj (found.symm.trans write_same)⟩
    · exact .inr ((write_other same).symm.trans found)
  refine ⟨?_, ?_, lives.watched, ?_, ?_⟩
  · intro other live found
    rcases kept other live found with ⟨rfl, rfl⟩ | there
    · exact ⟨(unknown loop).1, (unknown loop).2⟩
    · exact lives.mirrors other live there
  · intro place other known found
    obtain ⟨live, there, same⟩ := lives.known place other known found
    refine ⟨live, ?_, same⟩
    have apart : known ≠ address := by
      rintro rfl
      rw [free] at there
      cases there
    exact (write_other apart).trans there
  · intro other live found
    rcases kept other live found with ⟨rfl, rfl⟩ | there
    · exact write_same
    · exact (write_other (unused other live there)).trans
        (lives.holds other live there)
  · intro other live found
    rcases kept other live found with ⟨rfl, rfl⟩ | there
    · intro ended
      cases ended
    · exact lives.removed other live there

omit [DecidableEq Loop] in
theorem forget (lives : process.Lives) {address : Address}
    {live : LiveHandler Loop} (here : process.heap address = some live)
    (new : live.handler.stateInPoll = .New) :
    Lives { process with heap := write process.heap address none } := by
  have kept (other : Address) (rest : LiveHandler Loop)
      (found : write process.heap address none other = some rest) :
      other ≠ address ∧ process.heap other = some rest := by
    by_cases same : other = address
    · subst same
      cases write_same.symm.trans found
    · exact ⟨same, (write_other same).symm.trans found⟩
  refine ⟨?_, ?_, lives.watched, ?_, ?_⟩
  · intro other rest found
    exact lives.mirrors other rest (kept other rest found).2
  · intro loop fd other found
    obtain ⟨rest, there, rfl, rfl⟩ := lives.known loop fd other found
    refine ⟨rest, (write_other ?_).trans there, rfl, rfl⟩
    rintro rfl
    obtain rfl := Option.some.inj (here.symm.trans there)
    have recorded := (lives.mirrors other live here).known
    rw [found, new] at recorded
    cases recorded
  · intro other rest found
    exact lives.holds other rest (kept other rest found).2
  · intro other rest found
    exact lives.removed other rest (kept other rest found).2

omit [DecidableEq Loop] [DecidableEq Address] in
theorem closeFile (lives : process.Lives) {fd : Int}
    (unused : ∀ address live, process.heap address = some live →
      live.handler.fd ≠ fd) : (process.closeFile fd).Lives where
  mirrors address live found :=
    ⟨(lives.mirrors address live found).known,
      (write_other (unused address live found)).trans
        (lives.mirrors address live found).watched⟩
  known := lives.known
  watched loop other event found := by
    by_cases same : other = fd
    · subst same
      cases write_same.symm.trans found
    · exact lives.watched loop other event
        ((write_other same).symm.trans found)
  holds address live found :=
    (write_other (unused address live found)).trans
      (lives.holds address live found)
  removed := lives.removed

omit [DecidableEq Loop] in
theorem close (lives : process.Lives) {address : Address}
    {live : LiveHandler Loop} (here : process.heap address = some live)
    (removed : live.removed = true) :
    Lives { process.closeFile live.handler.fd with
      heap := write process.heap address none } := by
  have forgotten := lives.forget here (lives.removed address live here removed)
  apply forgotten.closeFile
  intro other rest found
  by_cases same : other = address
  · subst same
    cases write_same.symm.trans found
  · exact lives.fd_ne here ((write_other same).symm.trans found) same

omit [DecidableEq Loop] [DecidableEq Address] in
theorem opens (lives : process.Lives) {fd : Int}
    (shut : process.files fd = none) :
    Lives { process with files := write process.files fd (some none) } where
  mirrors := lives.mirrors
  known := lives.known
  watched := lives.watched
  holds address live found := by
    have held := lives.holds address live found
    have apart : live.handler.fd ≠ fd := by
      rintro rfl
      cases shut.symm.trans held
    exact (write_other apart).trans held
  removed := lives.removed

theorem step (lives : process.Lives) {action : ProcessAction Loop Address}
    (enabled : process.Enabled action)
    (stepped : process.step action = .ok next) : next.Lives := by
  cases action with
  | opens fd =>
      cases stepped
      exact lives.opens (Option.isNone_iff_eq_none.mp enabled)
  | closes fd =>
      cases stepped
      apply lives.closeFile
      rintro address live found rfl
      cases enabled.symm.trans (lives.holds address live found)
  | construct address loop fd =>
      cases stepped
      exact lives.construct loop (Option.isNone_iff_eq_none.mp enabled.1)
        enabled.2
  | call address call =>
      obtain ⟨live, here, present⟩ := (Option.any_eq_true _ _).mp enabled
      simp only [Process.step, Process.perform, here] at stepped
      obtain ⟨⟨poller, after⟩, called, result⟩ := bind_eq_ok stepped
      cases result
      obtain ⟨updates, same⟩ := LiveHandler.call_updates
        (lives.mirrors address live here) called
      apply lives.perform here updates
      intro ended
      rw [same] at ended
      simp [ended] at present
  | remove address =>
      obtain ⟨live, here, _⟩ := (Option.any_eq_true _ _).mp enabled
      simp only [Process.step, Process.perform, here] at stepped
      obtain ⟨⟨poller, after⟩, removed, result⟩ := bind_eq_ok stepped
      cases result
      obtain ⟨updates, state⟩ := LiveHandler.remove_updates
        (lives.mirrors address live here) removed
      exact lives.perform here updates fun _ => state
  | close address =>
      obtain ⟨live, here, removed⟩ := (Option.any_eq_true _ _).mp enabled
      simp only [Process.step, here] at stepped
      cases stepped
      exact lives.close here removed

end Lives

theorem run_lives {actions : List (ProcessAction Loop Address)}
    (run : (machine Loop Address).Run new actions process) :
    process.Lives := by
  apply Machine.Run.state_invariant Lives .new ?_ run
  intro process action next lives enabled stepped
  exact lives.step enabled stepped

/-- What a step of a handler comes to is what its body comes to. -/
theorem perform_ok {this : Address} {live : LiveHandler Loop}
    (here : process.heap this = some live)
    {body : LiveHandler Loop → Epoll Address →
      Checked (Epoll Address × LiveHandler Loop)} :
    (∃ next, process.perform this body = .ok next) ↔
      ∃ result, body live (process.pollers live.loop) = .ok result := by
  constructor
  · rintro ⟨next, performed⟩
    simp only [perform, here] at performed
    obtain ⟨result, changed, _⟩ := bind_eq_ok performed
    exact ⟨result, changed⟩
  · rintro ⟨result, changed⟩
    simp only [perform, here, changed]
    exact ⟨_, rfl⟩

theorem perform_ctl {this : Address} {live : LiveHandler Loop}
    (here : process.heap this = some live)
    {body : LiveHandler Loop → Epoll Address →
      Checked (Epoll Address × LiveHandler Loop)}
    (accepted : body live (process.pollers live.loop) ≠ .error .epollCtl) :
    process.perform this body ≠ .error .epollCtl := by
  intro failed
  simp only [perform, here] at failed
  rcases bind_eq_error failed with refused | ⟨_, _, ended⟩
  · exact accepted refused
  · cases ended

theorem Lives.step_ctl (lives : process.Lives)
    {action : ProcessAction Loop Address} :
    process.step action ≠ .error .epollCtl := by
  cases action with
  | opens fd | closes fd | construct address loop fd =>
      intro failed
      cases failed
  | call address call =>
      cases here : process.heap address with
      | none => simp [Process.step, Process.perform, here]
      | some live =>
          rw [Process.step]
          apply perform_ctl here
          exact LiveHandler.call_ctl (lives.mirrors address live here) call
  | remove address =>
      cases here : process.heap address with
      | none => simp [Process.step, Process.perform, here]
      | some live =>
          rw [Process.step]
          apply perform_ctl here
          exact LiveHandler.remove_ctl (lives.mirrors address live here)
  | close address =>
      cases here : process.heap address with
      | none => simp [Process.step, here]
      | some live => simp [Process.step, here]

theorem Lives.step_ok (lives : process.Lives)
    {action : ProcessAction Loop Address} :
    (∃ next, process.step action = .ok next) ↔ process.Accepts action := by
  cases action with
  | opens fd | closes fd | construct address loop fd =>
      exact ⟨fun _ => trivial, fun _ => ⟨_, rfl⟩⟩
  | call address call =>
      cases here : process.heap address with
      | none => simp [Process.step, Process.perform, Accepts, here]
      | some live =>
          rw [Process.step, perform_ok here,
            LiveHandler.call_ok (lives.mirrors address live here)]
          simp [Accepts, here]
  | remove address =>
      cases here : process.heap address with
      | none => simp [Process.step, Process.perform, Accepts, here]
      | some live =>
          rw [Process.step, perform_ok here,
            LiveHandler.remove_ok (lives.mirrors address live here)]
          simp [Accepts, here]
  | close address =>
      cases here : process.heap address with
      | none => simp [Process.step, Accepts, here]
      | some live => simp [Process.step, Accepts, here]

omit [DecidableEq Loop] [DecidableEq Address] in
theorem Lives.known_iff (lives : process.Lives) {loop : Loop} {fd : Int}
    {address : Address} :
    (process.pollers loop).fd2handler fd = some address ↔
      ∃ live, process.heap address = some live ∧ live.loop = loop ∧
        live.handler.fd = fd ∧ live.handler.stateInPoll ≠ .New := by
  constructor
  · intro found
    obtain ⟨live, here, rfl, rfl⟩ := lives.known loop fd address found
    refine ⟨live, here, rfl, rfl, ?_⟩
    intro new
    have recorded := (lives.mirrors address live here).known
    rw [found, new] at recorded
    cases recorded
  · rintro ⟨live, here, rfl, rfl, old⟩
    rw [(lives.mirrors address live here).known]
    cases state : live.handler.stateInPoll with
    | New => exact absurd state old
    | Added | Deleted => rfl

omit [DecidableEq Loop] [DecidableEq Address] in
theorem Lives.watched_iff (lives : process.Lives) {loop : Loop} {fd : Int}
    {event : EpollEvent Address} :
    (process.pollers loop).interest fd = some event ↔
      ∃ live, process.heap event.ptr = some live ∧ live.loop = loop ∧
        live.handler.fd = fd ∧ live.handler.stateInPoll = .Added ∧
        live.lastEvents = event.events := by
  constructor
  · intro found
    have known := lives.watched loop fd event found
    obtain ⟨live, here, rfl, rfl⟩ := lives.known loop fd event.ptr known
    have recorded := (lives.mirrors event.ptr live here).watched
    rw [found] at recorded
    cases state : live.handler.stateInPoll with
    | New | Deleted =>
        rw [state] at recorded
        cases recorded
    | Added =>
        rw [state] at recorded
        have events := congrArg EpollEvent.events (Option.some.inj recorded)
        exact ⟨live, here, rfl, rfl, state, events.symm⟩
  · rintro ⟨live, here, rfl, rfl, added, events⟩
    rw [(lives.mirrors event.ptr live here).watched, added, events]
    rfl

omit [DecidableEq Loop] [DecidableEq Address] in
/-- Nothing is reported of a handler that is being destroyed. -/
theorem Lives.reported (lives : process.Lives) {loop : Loop}
    {ready : List (Int × EventMask)} {maxevents : Nat}
    {event : EpollEvent Address}
    (member : event ∈ (process.pollers loop).epollWait ready maxevents) :
    ∃ live, process.heap event.ptr = some live ∧ live.loop = loop ∧
      live.handler.stateInPoll = .Added ∧ live.removed = false := by
  obtain ⟨level, _, found⟩ := List.mem_filterMap.mp (List.mem_of_mem_take member)
  obtain ⟨watched, entry, same, _, _⟩ := Epoll.event?_eq_some found
  obtain ⟨live, here, place, _, added, _⟩ := lives.watched_iff.mp entry
  rw [← same] at here
  refine ⟨live, here, place, added, ?_⟩
  cases ended : live.removed with
  | false => rfl
  | true =>
      have new := lives.removed event.ptr live here ended
      cases added.symm.trans new

/-- Whatever handlers that own their descriptors are constructed, used and
destroyed in any loops, with descriptors and addresses used again: a poller has in
its map exactly the handlers of its loop that exist and are not `New`, the kernel
has in its list exactly those that are `Added`, and each handler still owns its
descriptor.  What is reported points to a handler that exists and is not being
destroyed.  No `epoll_ctl` fails, and the state of the handler alone decides
whether an action runs into an assert. -/
theorem run_live {actions : List (ProcessAction Loop Address)}
    (run : (machine Loop Address).Run new actions process) :
    (∀ loop fd address, (process.pollers loop).fd2handler fd = some address ↔
      ∃ live, process.heap address = some live ∧ live.loop = loop ∧
        live.handler.fd = fd ∧ live.handler.stateInPoll ≠ .New) ∧
    (∀ loop fd event, (process.pollers loop).interest fd = some event ↔
      ∃ live, process.heap event.ptr = some live ∧ live.loop = loop ∧
        live.handler.fd = fd ∧ live.handler.stateInPoll = .Added ∧
        live.lastEvents = event.events) ∧
    (∀ address live, process.heap address = some live →
      process.files live.handler.fd = some (some address)) ∧
    (∀ loop ready maxevents event,
      event ∈ (process.pollers loop).epollWait ready maxevents →
      ∃ live, process.heap event.ptr = some live ∧ live.loop = loop ∧
        live.handler.stateInPoll = .Added ∧ live.removed = false) ∧
    ∀ action, process.step action ≠ .error .epollCtl ∧
      ((∃ next, process.step action = .ok next) ↔ process.Accepts action) := by
  have lives := run_lives run
  refine ⟨fun _ _ _ => lives.known_iff, fun _ _ _ => lives.watched_iff,
    lives.holds, fun _ _ _ _ => lives.reported, ?_⟩
  intro action
  exact ⟨lives.step_ctl, lives.step_ok⟩

/-- A handler of one loop is destroyed, and one of another loop gets its address
and its descriptor. -/
theorem reused_live :
    ∃ (actions : List (ProcessAction Bool Bool)) (process : Process Bool Bool),
      (machine Bool Bool).Run new actions process ∧
      (process.pollers false).interest 7 = none ∧
      (∃ live, process.heap true = some live ∧ live.loop = true ∧
        live.handler.fd = 7 ∧ live.handler.stateInPoll = .Added ∧
        live.lastEvents = kReadEvent ∧
        process.files live.handler.fd = some (some true)) ∧
      ∀ action, process.step action ≠ .error .epollCtl := by
  let actions : List (ProcessAction Bool Bool) :=
    [.opens 7, .construct true false 7, .call true .enableReading,
      .call true (.updateInPoll .AddEvent), .remove true, .close true,
      .opens 7, .construct true true 7, .call true .enableReading,
      .call true (.updateInPoll .AddEvent)]
  have found : ((machine Bool Bool).execute new actions).any
      (fun process => (process.pollers false).interest 7 = none ∧
        (process.pollers true).interest 7 = some ⟨kReadEvent, true⟩) =
          true := by
    decide +kernel
  obtain ⟨process, run, reached⟩ := Machine.run_of_execute found
  obtain ⟨forgotten, watched⟩ := of_decide_eq_true reached
  obtain ⟨_, listed, holds, _, accepted⟩ := run_live run
  obtain ⟨live, here, loop, fd, added, events⟩ := (listed _ _ _).mp watched
  exact ⟨actions, process, run, forgotten,
    ⟨live, here, loop, fd, added, events, holds true live here⟩,
    fun action => (accepted action).1⟩

end Process

end Muduo
