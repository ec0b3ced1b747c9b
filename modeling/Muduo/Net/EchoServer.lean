import Muduo.Library.Machine
import Muduo.Net.LinkTakes

/-!
# The echo server

`onMessage` takes the bytes out of the input buffer and then sends that buffer,
which is empty by now: a connection of the echo server never sends a byte.
-/

namespace Muduo

open Library

/-- `onMessage`; its `buf` is the input buffer of the link. -/
def onMessage (owner : LinkOwner Unit) (conn : LinkedSocket Unit) :
    Checked (LinkedSocket Unit) := do
  let (_, buf) ← conn.inputBuffer.retrieveAllAsString
  let (conn, buf) ← { conn with inputBuffer := buf }.sendBuffer owner buf
  return { conn with inputBuffer := buf }

/-- The `TcpServer` of `EchoServer`, which sets no write callbacks. -/
def echoServer : LinkOwner Unit :=
  { silentOwner with
    rcvMessage := fun conn _ => onMessage silentOwner conn }

/-- A connection of the echo server and the bytes read from it. -/
structure EchoRun where
  link : LinkedSocket Unit
  received : List Byte

inductive EchoAction where
  | read (chunk : List Byte) (receiveTime : Int)
  | writable
  deriving DecidableEq

def EchoAction.Delivers : EchoAction → Prop
  | .read chunk _ => chunk ≠ []
  | .writable => True

instance EchoAction.decidableDelivers (action : EchoAction) :
    Decidable action.Delivers := by
  cases action <;> unfold EchoAction.Delivers <;> infer_instance

def echoStep (run : EchoRun) : EchoAction → Checked EchoRun
  | .read chunk receiveTime => do
      let link ← run.link.handleRead echoServer (.ok chunk) receiveTime
      return { link, received := run.received ++ chunk }
  | .writable => do
      let link ← run.link.handleWrite echoServer
      return { run with link }

def echoMachine : Machine EchoRun EchoAction Fault where
  enabled _ action := action.Delivers
  step := echoStep

instance (run : EchoRun) (action : EchoAction) :
    Decidable (echoMachine.enabled run action) :=
  inferInstanceAs (Decidable action.Delivers)

def EchoRun.start (fd : Int) (highWaterMark : Nat)
    (writes : List WriteResult) : EchoRun :=
  { link := .registered fd highWaterMark { writes, accepted := [] }
    received := [] }

theorem echoServer_quiet : echoServer.Quiet :=
  ⟨fun _ => rfl, fun _ _ => rfl⟩

/-- What the echo server keeps of a connection. -/
structure Mute (link : LinkedSocket Unit) : Prop where
  steady : link.Steady
  input_sound : link.inputBuffer.Sound
  outgoing_eq : link.outgoing = []

namespace Mute

variable {link : LinkedSocket Unit}

/-- The buffer that `onMessage` sends is empty. -/
theorem onMessage (mute : Mute link) :
    ∃ after, Muduo.onMessage silentOwner link = .ok after ∧ Mute after := by
  obtain ⟨empty, taken, becomes⟩ :=
    mute.input_sound.retrieveAsString (Nat.le_refl _)
  have nothing : empty.content = [] := by
    rw [becomes.content_eq, ← mute.input_sound.length_content,
      List.drop_length]
  let emptied : LinkedSocket Unit := { link with inputBuffer := empty }
  have steady : emptied.Steady :=
    ⟨mute.steady.added, mute.steady.reading, mute.steady.output_sound,
      mute.steady.writing_iff⟩
  obtain ⟨after, rest, sent, takes⟩ :=
    steady.sendBuffer_takes silentOwner_quiet empty
  rw [nothing, ite_self] at takes
  have outgoing : after.outgoing = [] := by
    rw [takes.outgoing_eq, List.append_nil]
    exact mute.outgoing_eq
  have sound : rest.Sound := by
    rw [LinkedSocket.sendBuffer] at sent
    split at sent
    · obtain ⟨_, _, kept⟩ := bind_eq_ok sent
      cases kept
      exact becomes.sound.retrieveAll.sound
    · cases sent
      exact becomes.sound
  refine ⟨{ after with inputBuffer := rest }, ?_, ⟨?_, sound, outgoing⟩⟩
  · simp only [Muduo.onMessage, Buffer.retrieveAllAsString, taken, ok_bind]
    exact congrArg (· >>= fun both =>
      .ok { both.1 with inputBuffer := both.2 }) sent
  · exact ⟨takes.kept.steady.added, takes.kept.steady.reading,
      takes.kept.steady.output_sound, takes.kept.steady.writing_iff⟩

theorem handleRead (mute : Mute link) {chunk : List Byte}
    (delivers : chunk ≠ []) (receiveTime : Int) :
    ∃ after, link.handleRead echoServer (.ok chunk) receiveTime = .ok after ∧
      Mute after := by
  obtain ⟨filled, read, becomes⟩ := mute.input_sound.readFd chunk
  have reads : Mute { link with inputBuffer := filled } :=
    ⟨⟨mute.steady.added, mute.steady.reading, mute.steady.output_sound,
      mute.steady.writing_iff⟩, becomes.sound, mute.outgoing_eq⟩
  obtain ⟨after, answered, silent⟩ := reads.onMessage
  refine ⟨after, ?_, silent⟩
  simp only [LinkedSocket.handleRead, read, ok_bind, if_neg delivers]
  exact answered

theorem handleWrite (mute : Mute link) :
    ∃ after, link.handleWrite echoServer = .ok after ∧ Mute after := by
  obtain ⟨after, result, takes⟩ :=
    mute.steady.handleWrite_takes echoServer_quiet
  refine ⟨after, result, takes.kept.steady, ?_, ?_⟩
  · exact takes.kept.inputBuffer_eq ▸ mute.input_sound
  · rw [takes.outgoing_eq, mute.outgoing_eq]
    rfl

end Mute

theorem registered_mute (fd : Int) (highWaterMark : Nat)
    (writes : List WriteResult) :
    Mute (EchoRun.start fd highWaterMark writes).link where
  steady := LinkedSocket.registered_steady fd highWaterMark _
  input_sound := Buffer.new_sound _
  outgoing_eq := rfl

section Runs

variable {fd : Int} {highWaterMark : Nat} {writes : List WriteResult}
variable {actions : List EchoAction} {run : EchoRun}

/-- Nothing is sent in any run, and no assert fails. -/
theorem mute_of_run
    (runs : echoMachine.Run (.start fd highWaterMark writes) actions run) :
    Mute run.link := by
  apply runs.progress_invariant (fun run => Mute run.link)
  · exact registered_mute fd highWaterMark writes
  · intro run action mute delivers
    cases action with
    | read chunk receiveTime =>
        obtain ⟨after, result, silent⟩ :=
          mute.handleRead delivers receiveTime
        refine ⟨{ link := after, received := run.received ++ chunk }, ?_,
          silent⟩
        simp only [echoMachine, echoStep, result]
        rfl
    | writable =>
        obtain ⟨after, result, silent⟩ := mute.handleWrite
        refine ⟨{ run with link := after }, ?_, silent⟩
        simp only [echoMachine, echoStep, result]
        rfl

theorem received_eq_nil_iff
    (runs : echoMachine.Run (.start fd highWaterMark writes) actions run) :
    run.received = [] ↔
      ∀ chunk receiveTime, .read chunk receiveTime ∉ actions := by
  induction runs with
  | refl => simp [EchoRun.start]
  | @step actions run next action before delivers stepped induction =>
      cases action with
      | read chunk receiveTime =>
          obtain ⟨link, _, result⟩ := bind_eq_ok stepped
          cases result
          constructor
          · intro nothing
            exact (delivers (List.append_eq_nil_iff.mp nothing).2).elim
          · intro unread
            exact (unread chunk receiveTime (by simp)).elim
      | writable =>
          obtain ⟨link, _, result⟩ := bind_eq_ok stepped
          cases result
          simpa using induction

/-- The bytes accepted by the kernel followed by the queued ones are the bytes
read so far if and only if nothing has been read. -/
theorem echoes_iff
    (runs : echoMachine.Run (.start fd highWaterMark writes) actions run) :
    run.link.kernel.accepted ++ run.link.outputBuffer.content =
        run.received ↔
      ∀ chunk receiveTime, .read chunk receiveTime ∉ actions := by
  have silent : run.link.kernel.accepted ++
      run.link.outputBuffer.content = [] := (mute_of_run runs).outgoing_eq
  rw [silent, ← received_eq_nil_iff runs]
  exact eq_comm

/-- Two chunks and a write event with a kernel that accepts everything. -/
theorem echoes_iff_example :
    ∃ run, echoMachine.Run (.start 5 64 [.accepted 9, .accepted 9])
        [.read (ascii "hi") 1, .writable, .read (ascii "you") 2] run ∧
      run.link.kernel.accepted ++ run.link.outputBuffer.content ≠
        run.received := by
  have found : (echoMachine.execute
      (.start 5 64 [.accepted 9, .accepted 9])
      [.read (ascii "hi") 1, .writable, .read (ascii "you") 2]).any
      (fun run => run.received == ascii "hiyou") = true := by
    decide +kernel
  obtain ⟨run, runs, _⟩ := Machine.run_of_execute found
  refine ⟨run, runs, ?_⟩
  intro echoed
  exact (echoes_iff runs).mp echoed (ascii "hi") 1 (by simp)

/-- One chunk, a kernel that accepts it, and no echo. -/
theorem read_without_echo :
    ∃ run, echoMachine.Run (.start 5 64 [.accepted 9])
        [.read (ascii "hi") 1] run ∧
      run.link.Healthy ∧ run.received = ascii "hi" ∧
      run.link.kernel.accepted ++ run.link.outputBuffer.content = [] := by
  have found : (echoMachine.execute (.start 5 64 [.accepted 9])
      [.read (ascii "hi") 1]).any
      (fun run => run.received = ascii "hi" ∧
        run.link.trace = [.directWrite (.accepted 0), .writeComplete] ∧
        run.link.kernel.accepted = [] ∧
        run.link.outputBuffer.content = []) = true := by
    decide +kernel
  obtain ⟨run, runs, accepted⟩ := Machine.run_of_execute found
  obtain ⟨received, trace, taken, queued⟩ := of_decide_eq_true accepted
  refine ⟨run, runs, ?_, received, ?_⟩
  · intro event member broken
    rw [trace] at member
    simp only [List.mem_cons, List.not_mem_nil, or_false] at member
    rcases member with rfl | rfl
    · exact broken
    · exact broken
  · rw [taken, queued]
    rfl

end Runs

end Muduo
