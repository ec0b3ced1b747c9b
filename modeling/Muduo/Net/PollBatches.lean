import Mathlib.Data.List.Nodup
import Muduo.Library.Rounds
import Muduo.Net.EpollRuns

/-!
# Polls and the events that they report

The loop polls, then handles what was reported, and callbacks change interests
meanwhile.  The poller asks the kernel for as many events as its list has room
for, and the list grows when it was filled.
-/

namespace Muduo

open Library

variable {Address : Type}

def kInitEventListSize : Nat := 16

def FdHandler.setRevents (handler : FdHandler) (revents : EventMask) :
    FdHandler :=
  { handler with revents }

namespace Epoll

/-- The event of a descriptor for which the kernel has something: errors and
hang-ups are reported to every handler. -/
def event? (poller : Epoll Address) (level : Int × EventMask) :
    Option (EpollEvent Address) :=
  match poller.interest level.1 with
  | none => none
  | some watched =>
      let events := level.2 &&& (watched.events ||| (POLLERR ||| POLLHUP))
      if events = 0#32 then none else some { watched with events }

/-- `epoll_wait`, where `ready` has the conditions of descriptors in the order in
which the kernel goes through them. -/
def epollWait (poller : Epoll Address) (ready : List (Int × EventMask))
    (maxevents : Nat) : List (EpollEvent Address) :=
  (ready.filterMap poller.event?).take maxevents

end Epoll

/-- A loop between two steps of its thread: `events_.size()` of the poller, and
the part of `actFdEventList_` that is still to be handled. -/
structure PollingLoop (Address : Type) where
  registry : Registry Address
  eventsSize : Nat
  actFdEventList : List Address

/-- A call of a callback, a poll that the kernel answers or that fails, and the
call of `handleEvent` for the next active handler. -/
inductive PollAction (Address : Type) where
  | call (address : Address) (call : HandlerCall)
  | poll (ready : List (Int × EventMask))
  | pollFails
  | handleEvent

namespace PollingLoop

def new (fds : Address → Int) : PollingLoop Address :=
  { registry := .new fds, eventsSize := kInitEventListSize,
    actFdEventList := [] }

section Steps

variable [DecidableEq Address]

/-- One turn of the loop in `poll`. -/
def activate (loop : PollingLoop Address) (event : EpollEvent Address) :
    PollingLoop Address :=
  { loop with
    registry := loop.registry.setHandler event.ptr
      ((loop.registry.handlers event.ptr).setRevents event.events)
    actFdEventList := loop.actFdEventList ++ [event.ptr] }

/-- `Epoll::poll` with what `epoll_wait` returned, `none` for an error. -/
def poll (loop : PollingLoop Address) :
    Option (List (EpollEvent Address)) → PollingLoop Address
  | some events =>
      if 0 < events.length then
        let active := events.foldl activate loop
        if events.length = active.eventsSize then
          { active with eventsSize := active.eventsSize * 2 }
        else active
      else loop
  | none => loop

/-- `loop` clears its list before it polls. -/
def step (loop : PollingLoop Address) :
    PollAction Address → Checked (PollingLoop Address)
  | .call address call => do
      let registry ← loop.registry.call address call
      return { loop with registry }
  | .poll ready => .ok <|
      { loop with actFdEventList := [] }.poll
        (some (loop.registry.poller.epollWait ready loop.eventsSize))
  | .pollFails => .ok <| { loop with actFdEventList := [] }.poll none
  | .handleEvent => .ok <|
      { loop with actFdEventList := loop.actFdEventList.tail }

/-- Only when all active handlers have been called, the loop polls again. -/
def Enabled (loop : PollingLoop Address) : PollAction Address → Prop
  | .call _ _ => True
  | .poll ready => loop.actFdEventList = [] ∧ (ready.map Prod.fst).Nodup
  | .pollFails => loop.actFdEventList = []
  | .handleEvent => loop.actFdEventList ≠ []

instance decidableEnabled (loop : PollingLoop Address)
    (action : PollAction Address) : Decidable (loop.Enabled action) :=
  match action with
  | .call _ _ => isTrue trivial
  | .poll ready =>
      inferInstanceAs (Decidable
        (loop.actFdEventList = [] ∧ (ready.map Prod.fst).Nodup))
  | .pollFails => inferInstanceAs (Decidable (loop.actFdEventList = []))
  | .handleEvent => inferInstanceAs (Decidable (loop.actFdEventList ≠ []))

def machine : Machine (PollingLoop Address) (PollAction Address) Fault where
  enabled := Enabled
  step := step

instance decidableMachine (loop : PollingLoop Address)
    (action : PollAction Address) : Decidable (machine.enabled loop action) :=
  loop.decidableEnabled action

end Steps

/-- What a handler is to be told of: conditions that it asked for at its last
update, errors and hang-ups, as long as it is `Added`. -/
def due (loop : PollingLoop Address) (ready : List (Int × EventMask))
    (address : Address) : EventMask :=
  let handler := loop.registry.handlers address
  if handler.stateInPoll = .Added then
    (ready.lookup handler.fd).getD 0#32 &&&
      (loop.registry.lastEvents address ||| (POLLERR ||| POLLHUP))
  else 0#32

/-- The handlers to be called next, with the events that they will see. -/
def waiting (loop : PollingLoop Address) : List (EpollEvent Address) :=
  loop.actFdEventList.map fun address =>
    { events := (loop.registry.handlers address).revents, ptr := address }

end PollingLoop

/-- A poll that succeeded. -/
structure PollRecord (Address : Type) where
  due : Address → EventMask
  reported : List (EpollEvent Address)
  size : Nat

/-- What is seen of a loop: polls, and the calls of `handleEvent`. -/
inductive PollSight (Address : Type) where
  | polled (record : PollRecord Address)
  | handled (event : EpollEvent Address)

namespace PollRecord

/-- Which handlers are due, and which are reported. -/
def round (record : PollRecord Address) : Round Address where
  due address := record.due address != 0#32
  served := record.reported.map (·.ptr)
  room := record.size

theorem round_nextRoom (record : PollRecord Address) :
    record.round.nextRoom = if record.reported.length = record.size then
      record.size * 2 else record.size := by
  simp [round, Round.nextRoom, Round.full]

/-- A poll reports every handler that is due once, with what is due, or it fills
the list of events with such handlers. -/
structure Reports (record : PollRecord Address) : Prop where
  events_eq : ∀ event ∈ record.reported, event.events = record.due event.ptr
  sound : record.round.Sound

end PollRecord

namespace PollSight

def record? : PollSight Address → Option (PollRecord Address)
  | polled record => some record
  | handled _ => none

def handled? : PollSight Address → Option (EpollEvent Address)
  | polled _ => none
  | handled event => some event

end PollSight

/-- The polls of a run. -/
def pollsIn (sights : List (PollSight Address)) : List (PollRecord Address) :=
  sights.filterMap PollSight.record?

/-- The calls of `handleEvent`. -/
def handledIn (sights : List (PollSight Address)) :
    List (EpollEvent Address) :=
  sights.filterMap PollSight.handled?

/-- What the polls have reported, in order. -/
def reportedIn (sights : List (PollSight Address)) :
    List (EpollEvent Address) :=
  (pollsIn sights).flatMap (·.reported)

/-- The polls as rounds. -/
def roundsIn (sights : List (PollSight Address)) : List (Round Address) :=
  (pollsIn sights).map (·.round)

/-- What an action shows. -/
def PollingLoop.sights (loop : PollingLoop Address) :
    PollAction Address → List (PollSight Address)
  | .call _ _ => []
  | .poll ready =>
      [.polled { due := loop.due ready
                 reported :=
                   loop.registry.poller.epollWait ready loop.eventsSize
                 size := loop.eventsSize }]
  | .pollFails => []
  | .handleEvent => (loop.waiting.head?.map .handled).toList

section Sights

variable {sights : List (PollSight Address)}

theorem pollsIn_polled (record : PollRecord Address) :
    pollsIn (sights ++ [.polled record]) = pollsIn sights ++ [record] := by
  simp [pollsIn, PollSight.record?]

theorem pollsIn_handled (event : EpollEvent Address) :
    pollsIn (sights ++ [.handled event]) = pollsIn sights := by
  simp [pollsIn, PollSight.record?]

theorem roundsIn_polled (record : PollRecord Address) :
    roundsIn (sights ++ [.polled record]) =
      roundsIn sights ++ [record.round] := by
  rw [roundsIn, pollsIn_polled, List.map_append, List.map_singleton]
  rfl

theorem reportedIn_polled (record : PollRecord Address) :
    reportedIn (sights ++ [.polled record]) =
      reportedIn sights ++ record.reported := by
  rw [reportedIn, pollsIn_polled, List.flatMap_append, List.flatMap_singleton]
  rfl

theorem handledIn_polled (record : PollRecord Address) :
    handledIn (sights ++ [.polled record]) = handledIn sights := by
  simp [handledIn, PollSight.handled?]

theorem handledIn_handled (event : EpollEvent Address) :
    handledIn (sights ++ [.handled event]) = handledIn sights ++ [event] := by
  simp [handledIn, PollSight.handled?]

end Sights

namespace Epoll

variable {poller : Epoll Address} {level : Int × EventMask}
variable {event : EpollEvent Address}

theorem event?_eq_some (found : poller.event? level = some event) :
    ∃ watched, poller.interest level.1 = some watched ∧
      event.ptr = watched.ptr ∧
      event.events = level.2 &&& (watched.events ||| (POLLERR ||| POLLHUP)) ∧
      event.events ≠ 0#32 := by
  unfold event? at found
  cases here : poller.interest level.1 with
  | none =>
      rw [here] at found
      cases found
  | some watched =>
      simp only [here] at found
      split at found
      · cases found
      · next nonzero =>
          obtain rfl := Option.some.inj found
          exact ⟨watched, rfl, rfl, rfl, nonzero⟩

variable [DecidableEq Address] {next : Epoll Address} {this : Address}
variable {handler after : FdHandler}

theorem removeHandler_revents
    (removed : poller.removeHandler this handler = .ok (next, after)) :
    after.revents = handler.revents := by
  obtain ⟨_, _, same⟩ := bind_eq_ok removed
  obtain ⟨_, _, none⟩ := bind_eq_ok same
  obtain ⟨_, _, erased⟩ := bind_eq_ok none
  dsimp only at erased
  split at erased
  · obtain ⟨_, _, result⟩ := bind_eq_ok erased
    cases result
    rfl
  · cases erased
    rfl

theorem updateHandler_revents
    (updated : poller.updateHandler this handler = .ok (next, after)) :
    after.revents = handler.revents := by
  have add (added : poller.addHandler this handler = .ok (next, after)) :
      after.revents = handler.revents := by
    unfold addHandler at added
    split at added
    · obtain ⟨_, _, absent⟩ := bind_eq_ok added
      obtain ⟨_, _, known⟩ := bind_eq_ok absent
      obtain ⟨_, _, result⟩ := bind_eq_ok known
      cases result
      rfl
    · obtain ⟨_, _, known⟩ := bind_eq_ok added
      obtain ⟨_, _, result⟩ := bind_eq_ok known
      cases result
      rfl
  unfold updateHandler at updated
  split at updated
  · exact add updated
  · exact add updated
  · obtain ⟨_, _, same⟩ := bind_eq_ok updated
    obtain ⟨_, _, modified⟩ := bind_eq_ok same
    split at modified
    · obtain ⟨_, _, result⟩ := bind_eq_ok modified
      cases result
      rfl
    · obtain ⟨_, _, result⟩ := bind_eq_ok modified
      cases result
      rfl

theorem updateInPoll_revents {flag : OptFlag}
    (updated : poller.updateInPoll this handler flag = .ok (next, after)) :
    after.revents = handler.revents := by
  cases flag with
  | AddEvent | ModEvent =>
      obtain ⟨_, _, changed⟩ := bind_eq_ok updated
      exact updateHandler_revents changed
  | DelEvent => exact removeHandler_revents updated

end Epoll

namespace Registry

variable [DecidableEq Address] {fds : Address → Int}
variable {registry next : Registry Address}

/-- Every entry of the interest list is under the descriptor of its handler. -/
def Owned (fds : Address → Int) (registry : Registry Address) : Prop :=
  ∀ fd event, registry.poller.interest fd = some event → fds event.ptr = fd

theorem Owned.call (owned : Owned fds registry)
    (mirrored : Mirrored fds registry) {address : Address}
    {call : HandlerCall} (called : registry.call address call = .ok next) :
    Owned fds next := by
  cases call with
  | enableReading | enableWriting | disableReading | disableWriting
  | disableAll =>
      cases called
      exact owned
  | updateInPoll flag =>
      obtain ⟨⟨poller, after⟩, changed, result⟩ := bind_eq_ok called
      cases result
      obtain ⟨rfl, fd, _⟩ :=
        (mirrored.mirrors address).of_updateInPoll changed
      intro other event found
      by_cases same : other = after.fd
      · subst same
        have entry : after.stateInPoll.event
            { events := after.events, ptr := address } = some event :=
          write_same.symm.trans found
        cases state : after.stateInPoll with
        | New | Deleted =>
            rw [state] at entry
            cases entry
        | Added =>
            rw [state] at entry
            cases entry
            exact (mirrored.fd address).symm.trans fd.symm
      · exact owned other event ((write_other same).symm.trans found)

theorem call_revents {address : Address} {call : HandlerCall}
    (called : registry.call address call = .ok next) (other : Address) :
    (next.handlers other).revents = (registry.handlers other).revents := by
  by_cases same : other = address
  · subst same
    cases call with
    | enableReading | enableWriting | disableReading | disableWriting
    | disableAll =>
        cases called
        simp [setHandler, FdHandler.enableReading, FdHandler.enableWriting,
          FdHandler.disableReading, FdHandler.disableWriting,
          FdHandler.disableAll]
    | updateInPoll flag =>
        obtain ⟨⟨poller, after⟩, changed, result⟩ := bind_eq_ok called
        cases result
        simpa using Epoll.updateInPoll_revents changed
  · cases call with
    | enableReading | enableWriting | disableReading | disableWriting
    | disableAll =>
        cases called
        simp [setHandler, same]
    | updateInPoll flag =>
        obtain ⟨⟨poller, after⟩, _, result⟩ := bind_eq_ok called
        cases result
        simp [same]

end Registry

namespace PollingLoop

variable {fds : Address → Int} {loop next : PollingLoop Address}
variable {ready : List (Int × EventMask)}

section Reported

theorem lookup_of_mem (once : (ready.map Prod.fst).Nodup)
    {level : Int × EventMask} (member : level ∈ ready) :
    ready.lookup level.1 = some level.2 := by
  obtain ⟨front, back, rfl⟩ := List.append_of_mem member
  rw [List.lookup_eq_some_iff]
  refine ⟨front, back, rfl, ?_⟩
  intro other earlier
  rw [List.map_append, List.nodup_append] at once
  have apart := once.2.2 other.1 (List.mem_map_of_mem earlier) level.1
    (List.mem_map_of_mem List.mem_cons_self)
  exact bne_iff_ne.mpr apart.symm

theorem mem_of_lookup {fd : Int} {mask : EventMask}
    (found : ready.lookup fd = some mask) : (fd, mask) ∈ ready := by
  obtain ⟨front, back, rfl, _⟩ := List.lookup_eq_some_iff.mp found
  exact List.mem_append_right _ List.mem_cons_self

theorem watched_added (mirrored : Registry.Mirrored fds loop.registry)
    (owned : Registry.Owned fds loop.registry) {fd : Int}
    {watched : EpollEvent Address}
    (found : loop.registry.poller.interest fd = some watched) :
    (loop.registry.handlers watched.ptr).fd = fd ∧
      (loop.registry.handlers watched.ptr).stateInPoll = .Added ∧
      watched.events = loop.registry.lastEvents watched.ptr := by
  have fdEq : (loop.registry.handlers watched.ptr).fd = fd :=
    (mirrored.fd watched.ptr).trans (owned fd watched found)
  have recorded := (mirrored.mirrors watched.ptr).watched
  rw [fdEq, found] at recorded
  cases state : (loop.registry.handlers watched.ptr).stateInPoll with
  | New | Deleted =>
      rw [state] at recorded
      cases recorded
  | Added =>
      rw [state] at recorded
      have same := congrArg EpollEvent.events (Option.some.inj recorded)
      exact ⟨fdEq, rfl, same⟩

theorem event?_due (mirrored : Registry.Mirrored fds loop.registry)
    (owned : Registry.Owned fds loop.registry)
    (once : (ready.map Prod.fst).Nodup) {level : Int × EventMask}
    {event : EpollEvent Address} (member : level ∈ ready)
    (found : loop.registry.poller.event? level = some event) :
    event.events = loop.due ready event.ptr ∧ event.events ≠ 0#32 := by
  obtain ⟨watched, interest, ptr, events, nonzero⟩ :=
    Epoll.event?_eq_some found
  obtain ⟨fd, added, last⟩ := watched_added mirrored owned interest
  refine ⟨?_, nonzero⟩
  rw [events, ptr, due, fd, lookup_of_mem once member, last]
  exact (if_pos added).symm

/-- The kernel has an event for every handler that is due. -/
theorem due_event (mirrored : Registry.Mirrored fds loop.registry)
    {address : Address} (isDue : loop.due ready address ≠ 0#32) :
    ∃ event ∈ ready.filterMap loop.registry.poller.event?,
      event.ptr = address := by
  unfold due at isDue
  dsimp only at isDue
  split at isDue
  · next added =>
      have recorded := (mirrored.mirrors address).watched
      rw [added] at recorded
      cases found : ready.lookup (loop.registry.handlers address).fd with
      | none =>
          rw [found] at isDue
          simp at isDue
      | some mask =>
          rw [found] at isDue
          refine ⟨{ events := mask &&& (loop.registry.lastEvents address |||
            (POLLERR ||| POLLHUP)), ptr := address }, ?_, rfl⟩
          rw [List.mem_filterMap]
          refine ⟨_, mem_of_lookup found, ?_⟩
          simp only [Epoll.event?, recorded, StateInPoll.event]
          exact if_neg isDue
  · exact absurd rfl isDue

theorem events_sublist (owned : Registry.Owned fds loop.registry) :
    (((ready.filterMap loop.registry.poller.event?).map (·.ptr)).map
      fds).Sublist (ready.map Prod.fst) := by
  induction ready with
  | nil => exact .slnil
  | cons level rest induction =>
      cases found : loop.registry.poller.event? level with
      | none =>
          rw [List.filterMap_cons_none found]
          exact induction.cons level.1
      | some event =>
          obtain ⟨watched, interest, ptr, _⟩ := Epoll.event?_eq_some found
          have fd : fds event.ptr = level.1 := by
            rw [ptr]
            exact owned level.1 watched interest
          rw [List.filterMap_cons_some found, List.map_cons, List.map_cons,
            List.map_cons, fd]
          exact induction.cons_cons level.1

theorem epollWait_reports (mirrored : Registry.Mirrored fds loop.registry)
    (owned : Registry.Owned fds loop.registry)
    (once : (ready.map Prod.fst).Nodup) : PollRecord.Reports
      { due := loop.due ready
        reported := loop.registry.poller.epollWait ready loop.eventsSize
        size := loop.eventsSize } := by
  have known : ∀ event ∈
      loop.registry.poller.epollWait ready loop.eventsSize,
      event.events = loop.due ready event.ptr ∧ event.events ≠ 0#32 := by
    intro event reported
    obtain ⟨level, member, found⟩ :=
      List.mem_filterMap.mp (List.mem_of_mem_take reported)
    exact event?_due mirrored owned once member found
  refine ⟨fun event reported => (known event reported).1, ?_⟩
  constructor
  · intro address served
    obtain ⟨event, reported, rfl⟩ := List.mem_map.mp served
    obtain ⟨events, nonzero⟩ := known event reported
    rw [events] at nonzero
    exact bne_iff_ne.mpr nonzero
  · have distinct := once.sublist (events_sublist owned)
    have taken := (List.take_sublist loop.eventsSize
      (ready.filterMap loop.registry.poller.event?)).map (·.ptr)
    exact (List.Nodup.of_map fds distinct).sublist taken
  · simp only [PollRecord.round, Epoll.epollWait, List.length_map]
    exact List.length_take_le _ _
  · intro room address isDue
    obtain ⟨event, member, rfl⟩ := due_event mirrored (bne_iff_ne.mp isDue)
    apply List.mem_map_of_mem
    have fits : (ready.filterMap loop.registry.poller.event?).length ≤
        loop.eventsSize := by
      simp only [PollRecord.round, Epoll.epollWait, List.length_map,
        List.length_take] at room
      omega
    simp only [Epoll.epollWait]
    rwa [List.take_of_length_le fits]

end Reported

section Polling

variable [DecidableEq Address] {event : EpollEvent Address}
variable {events : List (EpollEvent Address)}

/-- A handler that was not active yet sees the event, and no other one does. -/
theorem activate_waiting (other : event.ptr ∉ loop.actFdEventList) :
    (loop.activate event).waiting = loop.waiting ++ [event] := by
  have seen : ((loop.activate event).registry.handlers event.ptr).revents =
      event.events := by
    simp [activate, Registry.setHandler, FdHandler.setRevents]
  have added : (loop.activate event).actFdEventList =
      loop.actFdEventList ++ [event.ptr] := rfl
  rw [waiting, added, List.map_append, List.map_singleton, seen]
  congr 1
  apply List.map_congr_left
  intro address active
  have apart : address ≠ event.ptr := fun same => other (same ▸ active)
  simp [activate, Registry.setHandler, apart]

/-- What the turns for the events change, and what they keep. -/
structure Activates (loop next : PollingLoop Address)
    (events : List (EpollEvent Address)) : Prop where
  mirrored : ∀ fds, Registry.Mirrored fds loop.registry →
    Registry.Mirrored fds next.registry
  poller : next.registry.poller = loop.registry.poller
  eventsSize : next.eventsSize = loop.eventsSize
  waiting : next.waiting = loop.waiting ++ events

theorem foldl_activates
    (once : (loop.actFdEventList ++ events.map (·.ptr)).Nodup) :
    loop.Activates (events.foldl activate loop) events := by
  induction events generalizing loop with
  | nil => exact ⟨fun _ => id, rfl, rfl, (List.append_nil _).symm⟩
  | cons event rest induction =>
      rw [List.map_cons, List.append_cons] at once
      have later : (loop.activate event).Activates
          (rest.foldl activate (loop.activate event)) rest := induction once
      have other : event.ptr ∉ loop.actFdEventList := by
        have front := (List.nodup_append.mp once).1
        intro active
        exact (List.nodup_append.mp front).2.2 event.ptr active event.ptr
          List.mem_cons_self rfl
      refine ⟨?_, later.poller, later.eventsSize, ?_⟩
      · intro fds mirrored
        exact later.mirrored fds (mirrored.setHandler rfl rfl)
      · rw [List.foldl_cons, later.waiting, activate_waiting other,
          List.append_assoc, List.singleton_append]

/-- A poll activates what is reported, and makes room if it was used up. -/
theorem poll_activates
    (once : (loop.actFdEventList ++ events.map (·.ptr)).Nodup) :
    ∃ active, loop.Activates active events ∧
      loop.poll (some events) = { active with eventsSize :=
        if events.length = loop.eventsSize then loop.eventsSize * 2
        else loop.eventsSize } := by
  have activates := foldl_activates once
  refine ⟨_, activates, ?_⟩
  rw [poll, ← activates.eventsSize]
  cases events with
  | nil =>
      have unused : (if ([] : List (EpollEvent Address)).length =
          loop.eventsSize then loop.eventsSize * 2 else loop.eventsSize) =
          loop.eventsSize := by
        rw [List.length_nil]
        split <;> omega
      rw [List.foldl_nil, unused]
      rfl
  | cons event rest =>
      rw [if_pos (List.length_pos_of_ne_nil (List.cons_ne_nil event rest))]
      dsimp only
      split
      · rfl
      · rfl

end Polling

section Batches

variable {seen : List (PollSight Address)}

/-- What has been seen of a loop, and what its list of active handlers and its
list of events have to do with it. -/
structure Batched (fds : Address → Int) (loop : PollingLoop Address)
    (seen : List (PollSight Address)) : Prop where
  mirrored : Registry.Mirrored fds loop.registry
  owned : Registry.Owned fds loop.registry
  reports : ∀ record ∈ pollsIn seen, record.Reports
  doubles : Doubles kInitEventListSize (roundsIn seen) loop.eventsSize
  handled : handledIn seen ++ loop.waiting = reportedIn seen

theorem new_batched : (new fds).Batched fds [] where
  mirrored := .new
  owned _ _ found := by cases found
  reports _ member := by cases member
  doubles := .nil
  handled := rfl

theorem Batched.handleEvent (batched : loop.Batched fds seen)
    (pending : loop.actFdEventList ≠ []) :
    { loop with actFdEventList := loop.actFdEventList.tail }.Batched fds
      (seen ++ loop.sights .handleEvent) := by
  obtain ⟨address, rest, active⟩ := List.exists_cons_of_ne_nil pending
  have first : loop.waiting =
      { events := (loop.registry.handlers address).revents,
        ptr := address } ::
      { loop with actFdEventList := loop.actFdEventList.tail }.waiting := by
    rw [waiting, waiting, active, List.map_cons, List.tail_cons]
  have shown : loop.sights .handleEvent = [.handled
      { events := (loop.registry.handlers address).revents,
        ptr := address }] := by
    rw [sights, first]
    rfl
  rw [shown]
  refine ⟨batched.mirrored, batched.owned, ?_, ?_, ?_⟩
  · rw [pollsIn_handled]
    exact batched.reports
  · rw [roundsIn, pollsIn_handled]
    exact batched.doubles
  · have before := batched.handled
    rw [first] at before
    rw [handledIn_handled, reportedIn, pollsIn_handled, List.append_assoc]
    exact before

variable [DecidableEq Address]

theorem Batched.call (batched : loop.Batched fds seen)
    (distinct : Function.Injective fds) {address : Address}
    {call : HandlerCall} {registry : Registry Address}
    (called : loop.registry.call address call = .ok registry) :
    { loop with registry }.Batched fds seen where
  mirrored := batched.mirrored.call distinct called
  owned := batched.owned.call batched.mirrored called
  reports := batched.reports
  doubles := batched.doubles
  handled := by
    have kept : { loop with registry }.waiting = loop.waiting := by
      apply List.map_congr_left
      intro other _
      rw [Registry.call_revents called]
    rw [kept]
    exact batched.handled

theorem Batched.poll (batched : loop.Batched fds seen)
    (idle : loop.actFdEventList = [])
    (once : (ready.map Prod.fst).Nodup) :
    (loop.poll (some (loop.registry.poller.epollWait ready
      loop.eventsSize))).Batched fds (seen ++ loop.sights (.poll ready)) := by
  have reports := epollWait_reports batched.mirrored batched.owned once
  have distinct : (loop.actFdEventList ++
      (loop.registry.poller.epollWait ready loop.eventsSize).map
        (·.ptr)).Nodup := by
    rw [idle, List.nil_append]
    exact reports.sound.once
  obtain ⟨active, activates, polled⟩ := poll_activates distinct
  have none : loop.waiting = [] := by
    rw [waiting, idle, List.map_nil]
  rw [polled, sights]
  refine ⟨activates.mirrored fds batched.mirrored, ?_, ?_, ?_, ?_⟩
  · intro fd event found
    rw [activates.poller] at found
    exact batched.owned fd event found
  · intro record member
    rw [pollsIn_polled] at member
    rcases List.mem_append.mp member with earlier | last
    · exact batched.reports record earlier
    · obtain rfl := List.mem_singleton.mp last
      exact reports
  · rw [roundsIn_polled, ← PollRecord.round_nextRoom
      { due := loop.due ready
        reported := loop.registry.poller.epollWait ready loop.eventsSize
        size := loop.eventsSize }]
    exact batched.doubles.concat _ rfl
  · have before := batched.handled
    have after : active.waiting =
        loop.registry.poller.epollWait ready loop.eventsSize := by
      rw [activates.waiting, none, List.nil_append]
    rw [none, List.append_nil] at before
    rw [handledIn_polled, reportedIn_polled, before]
    exact congrArg (reportedIn seen ++ ·) after

theorem Batched.step (batched : loop.Batched fds seen)
    (distinct : Function.Injective fds) {action : PollAction Address}
    (enabled : loop.Enabled action) (stepped : loop.step action = .ok next) :
    next.Batched fds (seen ++ loop.sights action) := by
  have cleared (idle : loop.actFdEventList = []) :
      { loop with actFdEventList := [] } = loop := by
    rw [← idle]
  cases action with
  | call address call =>
      obtain ⟨registry, called, result⟩ := bind_eq_ok stepped
      cases result
      rw [sights, List.append_nil]
      exact batched.call distinct called
  | poll ready =>
      obtain ⟨idle, once⟩ := enabled
      rw [PollingLoop.step, cleared idle] at stepped
      obtain rfl := Except.ok.inj stepped
      exact batched.poll idle once
  | pollFails =>
      rw [PollingLoop.step, cleared enabled] at stepped
      obtain rfl := Except.ok.inj stepped
      rw [sights, List.append_nil]
      exact batched
  | handleEvent =>
      obtain rfl := Except.ok.inj stepped
      exact batched.handleEvent enabled

theorem run_batched (distinct : Function.Injective fds)
    {actions : List (PollAction Address)}
    (run : machine.Run (new fds) actions loop) :
    loop.Batched fds (machine.observed sights (new fds) actions) := by
  apply run.invariant (fun actions loop =>
    loop.Batched fds (machine.observed sights (new fds) actions))
  · exact new_batched
  · intro actions loop action next before batched enabled stepped
    rw [before.observed_concat stepped]
    exact batched.step distinct enabled stepped

/-- In every run of the loop over handlers with descriptors of their own,
whatever the callbacks do to their interests, each poll reports the handlers that
are due, each once and with what is due, and leaves one out only if the list of
events is full.  `handleEvent` is called once for each report, in order and with
the events of the report, before the next poll. -/
theorem run_dispatches (distinct : Function.Injective fds)
    {actions : List (PollAction Address)}
    (run : machine.Run (new fds) actions loop) :
    (∀ record ∈ pollsIn (machine.observed sights (new fds) actions),
      record.Reports) ∧
      handledIn (machine.observed sights (new fds) actions) ++ loop.waiting =
        reportedIn (machine.observed sights (new fds) actions) := by
  have batched := run_batched distinct run
  exact ⟨batched.reports, batched.handled⟩

/-- The callback for the first of two events removes the second handler, which is
called nevertheless. -/
theorem removed_dispatches :
    ∃ actions loop,
      machine.Run (new fun other : Bool => if other then 7 else 8) actions
        loop ∧
      (loop.registry.handlers true).stateInPoll = .New ∧
      handledIn (machine.observed sights
        (new fun other : Bool => if other then 7 else 8) actions) =
          [⟨POLLIN, false⟩, ⟨POLLIN ||| POLLHUP, true⟩] ∧
      reportedIn (machine.observed sights
        (new fun other : Bool => if other then 7 else 8) actions) =
          [⟨POLLIN, false⟩, ⟨POLLIN ||| POLLHUP, true⟩] := by
  let actions : List (PollAction Bool) :=
    [.call true .enableReading, .call true (.updateInPoll .AddEvent),
      .call false .enableReading, .call false (.updateInPoll .AddEvent),
      .poll [(8, POLLIN ||| POLLOUT), (7, POLLIN ||| POLLHUP), (9, POLLIN)],
      .handleEvent, .call true .disableAll,
      .call true (.updateInPoll .DelEvent), .handleEvent]
  have found : (machine.execute
      (new fun other : Bool => if other then 7 else 8) actions).any
      (fun loop => (loop.registry.handlers true).stateInPoll = .New ∧
        loop.actFdEventList = []) = true := by
    decide +kernel
  have handled : handledIn (machine.observed sights
      (new fun other : Bool => if other then 7 else 8) actions) =
        [⟨POLLIN, false⟩, ⟨POLLIN ||| POLLHUP, true⟩] := by
    decide +kernel
  have distinct : Function.Injective
      (fun other : Bool => if other then (7 : Int) else 8) := by
    intro first second
    cases first <;> cases second <;> simp
  obtain ⟨loop, run, reached⟩ := Machine.run_of_execute found
  obtain ⟨removed, idle⟩ := of_decide_eq_true reached
  have all := (run_dispatches distinct run).2
  rw [waiting, idle, List.map_nil, List.append_nil, handled] at all
  exact ⟨actions, loop, run, removed, handled, all.symm⟩

/-- In every run the list of events has 16 entries, doubled for each poll that
filled it, and at most twice as many as a poll has reported.  So a handler that
is due in polls that do not report it is so in few of them: only as often as the
list can be doubled. -/
theorem run_reaches (distinct : Function.Injective fds)
    {actions : List (PollAction Address)}
    (run : machine.Run (new fds) actions loop) :
    loop.eventsSize = kInitEventListSize *
        2 ^ fullRounds (roundsIn (machine.observed sights (new fds) actions)) ∧
      loop.eventsSize ≤ max kInitEventListSize (2 * mostServed
        (roundsIn (machine.observed sights (new fds) actions))) ∧
      ∀ address, kInitEventListSize * 2 ^ passedOver address
          (roundsIn (machine.observed sights (new fds) actions)) ≤
        max kInitEventListSize (2 * mostServed
          (roundsIn (machine.observed sights (new fds) actions))) := by
  have batched := run_batched distinct run
  have sound : ∀ round ∈ roundsIn (machine.observed sights (new fds) actions),
      round.Sound := by
    intro round member
    obtain ⟨record, polled, rfl⟩ := List.mem_map.mp member
    exact (batched.reports record polled).sound
  exact ⟨batched.doubles.room_eq, batched.doubles.room_le,
    batched.doubles.passedOver_le sound⟩

/-- Seventeen handlers are due, the last one is passed over, and the next poll
reports it. -/
theorem crowded_reaches :
    ∃ actions loop,
      machine.Run (new fun other : Fin 17 => (other.val : Int)) actions
        loop ∧
      loop.eventsSize = 32 ∧
      passedOver 16 (roundsIn (machine.observed sights
        (new fun other : Fin 17 => (other.val : Int)) actions)) = 1 ∧
      kInitEventListSize * 2 ^ 1 ≤ max kInitEventListSize (2 * mostServed
        (roundsIn (machine.observed sights
          (new fun other : Fin 17 => (other.val : Int)) actions))) := by
  let ready : List (Int × EventMask) :=
    (List.range 17).map fun fd => (Int.ofNat fd, POLLIN)
  let actions : List (PollAction (Fin 17)) :=
    (List.finRange 17).flatMap (fun address =>
      [.call address .enableReading,
        .call address (.updateInPoll .AddEvent)]) ++
      .poll ready :: .replicate 16 .handleEvent ++ [.poll ready]
  have found : (machine.execute
      (new fun other : Fin 17 => (other.val : Int)) actions).any
      (fun loop => loop.eventsSize = 32) = true := by
    decide +kernel
  have passed : passedOver 16 (roundsIn (machine.observed sights
      (new fun other : Fin 17 => (other.val : Int)) actions)) = 1 := by
    decide +kernel
  have distinct : Function.Injective
      (fun other : Fin 17 => (other.val : Int)) := by
    intro first second same
    exact Fin.ext (Int.ofNat.inj same)
  obtain ⟨loop, run, reached⟩ := Machine.run_of_execute found
  have few := (run_reaches distinct run).2.2 16
  rw [passed] at few
  exact ⟨actions, loop, run, of_decide_eq_true reached, passed, few⟩

end Batches

end PollingLoop

end Muduo
