import Petalflow.Lib.Channel
import Petalflow.Lib.Machine

open List
open channel (Chan)
open machine (Machine)

namespace petalflow.tool

inductive ChildOp where
  | readStdin
  | writeStdout
  | writeStderr
deriving DecidableEq

/-- Where `invokeAttempt` is: it writes the rest of the request, reads the outputs to their
ends, and waits, as it does when the subprocess has exited during the request. -/
inductive InvokePhase where
  | writing (left : Nat)
  | readingStdout
  | readingStderr
  | waiting
  | returned
deriving DecidableEq

/-- An invocation with the number of bytes in the three pipes and what the subprocess still does. -/
structure StdioInvocation where
  phase : InvokePhase
  stdin : Nat := 0
  stdinClosed : Bool := false
  stdout : Nat := 0
  stderr : Nat := 0
  script : List ChildOp
  exited : Bool := false

inductive InvokeTurn where
  | adapter
  | child

namespace StdioInvocation

variable {capacity : Nat} {s s' : StdioInvocation}

def stepAdapter (capacity : Nat) (s : StdioInvocation) : Option StdioInvocation :=
  match s.phase with
  | .writing 0 => some { s with phase := .readingStdout, stdinClosed := true }
  | .writing (left + 1) =>
    if s.exited then some { s with phase := .waiting, stdinClosed := true }
    else if s.stdin < capacity then some { s with phase := .writing left, stdin := s.stdin + 1 }
    else none
  | .readingStdout =>
    if 0 < s.stdout then some { s with stdout := s.stdout - 1 }
    else if s.exited then some { s with phase := .readingStderr }
    else none
  | .readingStderr =>
    if 0 < s.stderr then some { s with stderr := s.stderr - 1 }
    else if s.exited then some { s with phase := .waiting }
    else none
  | .waiting => if s.exited then some { s with phase := .returned } else none
  | .returned => none

def stepChild (capacity : Nat) (s : StdioInvocation) : Option StdioInvocation :=
  match s.script with
  | [] => if s.exited then none else some { s with exited := true }
  | .readStdin :: rest =>
    if 0 < s.stdin then some { s with stdin := s.stdin - 1, script := rest }
    else if s.stdinClosed then some { s with script := rest }
    else none
  | .writeStdout :: rest =>
    if s.stdout < capacity then some { s with stdout := s.stdout + 1, script := rest } else none
  | .writeStderr :: rest =>
    if s.stderr < capacity then some { s with stderr := s.stderr + 1, script := rest } else none

def Stuck (capacity : Nat) (s : StdioInvocation) : Prop :=
  s.phase ≠ .returned ∧ s.stepAdapter capacity = none ∧ s.stepChild capacity = none

structure Roomy (capacity : Nat) (s : StdioInvocation) : Prop where
  request : ∀ left, s.phase = .writing left → s.stdin + left ≤ capacity
  errors : s.stderr + s.script.count .writeStderr ≤ capacity
  closed : s.phase = .readingStdout → s.stdinClosed = true
  exited : s.phase = .readingStderr ∨ s.phase = .waiting → s.exited = true

theorem Roomy.stepAdapter (hs : s.Roomy capacity) (hstep : s.stepAdapter capacity = some s') : s'.Roomy capacity := by
  have ⟨hrequest, herrors, hclosed, hexited⟩ := hs
  unfold StdioInvocation.stepAdapter at hstep
  repeat' split at hstep
  all_goals cases hstep
  all_goals constructor <;> grind

theorem Roomy.stepChild (hs : s.Roomy capacity) (hstep : s.stepChild capacity = some s') : s'.Roomy capacity := by
  have ⟨hrequest, herrors, hclosed, hexited⟩ := hs
  unfold StdioInvocation.stepChild at hstep
  repeat' split at hstep
  all_goals cases hstep
  all_goals constructor <;> grind

theorem Roomy.not_stuck (hs : s.Roomy capacity) (hpos : 0 < capacity) : ¬ s.Stuck capacity := by
  rintro ⟨hphase, hadapter, hchild⟩
  have ⟨hrequest, herrors, hclosed, hexited⟩ := hs
  unfold StdioInvocation.stepAdapter at hadapter
  unfold StdioInvocation.stepChild at hchild
  -- the adapter can write its request, and while it reads `stdout` the subprocess can go on
  repeat' split at hadapter
  all_goals grind

end StdioInvocation

open StdioInvocation (Stuck Roomy)

def stdioInvocation (capacity request : Nat) (script : List ChildOp) : Machine StdioInvocation InvokeTurn where
  init := { phase := .writing request, script }
  step
    | .adapter, s => s.stepAdapter capacity
    | .child, s => s.stepChild capacity

/-- If the request and all that the subprocess writes to its stderr fit into their pipes, an
invocation does not get stuck. -/
theorem stdio_invocation_not_stuck (capacity request : Nat) (script : List ChildOp) (s : StdioInvocation)
    (hpos : 0 < capacity) (hrequest : request ≤ capacity) (herrors : script.count .writeStderr ≤ capacity)
    (hreach : (stdioInvocation capacity request script).Reachable s) : ¬ s.Stuck capacity := by
  refine Roomy.not_stuck (hreach.invariant (I := Roomy capacity) ?_ ?_) hpos
  · intro s turn s' hs hstep
    cases turn with
    | adapter => exact hs.stepAdapter hstep
    | child => exact hs.stepChild hstep
  · constructor <;> simp_all [stdioInvocation]

/-- The request is written, and both outputs hold a byte. -/
theorem stdio_invocation_not_stuck_busy :
    ∃ s : StdioInvocation, s.phase = .readingStdout ∧ s.stdout = 1 ∧ s.stderr = 1 ∧ ¬ s.Stuck 2 := by
  obtain ⟨s, hreach, htest⟩ := machine.Machine.exists_reachable_of_exec
    (m := stdioInvocation 2 2 [.writeStdout, .writeStderr, .readStdin]) [.adapter, .child, .adapter, .child, .adapter]
    (fun s => decide (s.phase = .readingStdout ∧ s.stdout = 1 ∧ s.stderr = 1)) (by decide)
  obtain ⟨hphase, hout, herr⟩ := of_decide_eq_true htest
  exact ⟨s, hphase, hout, herr, stdio_invocation_not_stuck 2 2 _ s (by decide) (by decide) (by decide) hreach⟩

/-- A subprocess that fills its stderr and goes on while the adapter reads `stdout`, and one
that fills its stdout before it reads the request. -/
theorem stdio_invocation_stuck :
    (∃ s, (stdioInvocation 1 0 [.writeStderr, .writeStderr]).Reachable s ∧ s.Stuck 1) ∧
      ∃ s, (stdioInvocation 1 2 [.writeStdout, .writeStdout, .readStdin]).Reachable s ∧ s.Stuck 1 := by
  constructor
  · obtain ⟨s, hreach, htest⟩ := machine.Machine.exists_reachable_of_exec
      (m := stdioInvocation 1 0 [.writeStderr, .writeStderr]) [.child, .adapter]
      (fun s => decide (s.phase ≠ .returned) && (s.stepAdapter 1).isNone && (s.stepChild 1).isNone) (by decide +kernel)
    exact ⟨s, hreach, by simpa [Stuck, and_assoc] using htest⟩
  · obtain ⟨s, hreach, htest⟩ := machine.Machine.exists_reachable_of_exec
      (m := stdioInvocation 1 2 [.writeStdout, .writeStdout, .readStdin]) [.child, .adapter]
      (fun s => decide (s.phase ≠ .returned) && (s.stepAdapter 1).isNone && (s.stepChild 1).isNone) (by decide +kernel)
    exact ⟨s, hreach, by simpa [Stuck, and_assoc] using htest⟩

end petalflow.tool

namespace petalflow.mcp

/-- The transport of a subprocess that still has to write `script`. In `pipe` there are the
messages that it has written and that were not queued in `recvCh`. An error in `errCh` has
with it the number of messages that were decoded before, and `missed` is for each error
that `Receive` has returned how many of those had not been received. -/
structure StdioTransport (α : Type) where
  script : List α
  pipe : List α := []
  exited : Bool := false
  reading : Bool := true
  waiting : Bool := true
  recvCh : Chan 64 α := .empty
  errCh : Chan 1 Nat := .empty
  decoded : List α := []
  received : List α := []
  missed : List Nat := []

/-- A step of the subprocess, of `readLoop`, of `waitLoop`, or of a call of `Receive`. -/
inductive StdioLabel where
  | write
  | exit
  | decode
  | decodeErr
  | wait (failed : Bool)
  | receive
  | receiveErr
deriving DecidableEq

namespace StdioTransport

variable {α : Type} {s s' : StdioTransport α} {l : StdioLabel}

def sendErr (s : StdioTransport α) : StdioTransport α :=
  { s with errCh := (s.errCh.send s.decoded.length).getD s.errCh }

def step : StdioLabel → StdioTransport α → Option (StdioTransport α)
  | .write, s => match s.script with
    | message :: rest => if s.exited then none else some { s with script := rest, pipe := s.pipe ++ [message] }
    | [] => none
  | .exit, s => if s.exited = false ∧ s.script = [] then some { s with exited := true } else none
  | .decode, s => match s.reading, s.pipe with
    | true, message :: rest => match s.recvCh.send message with
      | some recvCh => some { s with pipe := rest, recvCh, decoded := s.decoded ++ [message] }
      | none => some { s with reading := false }.sendErr
    | _, _ => none
  | .decodeErr, s =>
    -- at the end of the output, or after `Wait` has closed the pipe
    if s.reading ∧ s.exited ∧ (s.pipe = [] ∨ s.waiting = false) then some { s with reading := false }.sendErr else none
  | .wait failed, s =>
    if s.waiting ∧ s.exited then
      if failed then some { s with waiting := false }.sendErr else some { s with waiting := false }
    else none
  | .receive, s => match s.recvCh.receive with
    | some (message, recvCh) => some { s with recvCh, received := s.received ++ [message] }
    | none => none
  | .receiveErr, s => match s.errCh.receive with
    | some (before, errCh) => some { s with errCh, missed := s.missed ++ [before - s.received.length] }
    | none => none

def settled (s : StdioTransport α) : StdioLabel → Bool
  | .decode => s.recvCh.buffer.length < 64
  | .decodeErr | .wait true => s.pipe.isEmpty && s.recvCh.buffer.isEmpty
  | _ => true

structure InOrder (messages : List α) (s : StdioTransport α) : Prop where
  written : s.decoded ++ s.pipe ++ s.script = messages
  queued : s.received ++ s.recvCh.buffer = s.decoded
  exited : s.exited = true → s.script = []

variable {messages : List α}

theorem InOrder.initial_segment (hs : s.InOrder messages) : s.received <+: messages := by
  refine ⟨s.recvCh.buffer ++ (s.pipe ++ s.script), ?_⟩
  rw [← append_assoc, hs.queued, ← append_assoc, hs.written]

theorem InOrder.lengths (hs : s.InOrder messages) : s.received.length + s.recvCh.buffer.length = s.decoded.length ∧
      s.decoded.length + s.pipe.length + s.script.length = messages.length := by
  rw [← hs.queued, ← hs.written, ← hs.queued]
  simp only [length_append, and_self]

/-- At an error, all `n` messages were received. -/
structure Complete (n : Nat) (s : StdioTransport α) : Prop where
  reported : ∀ before ∈ s.errCh.buffer, before = n ∧ s.received.length = n
  missed : ∀ k ∈ s.missed, k = 0 ∧ s.received.length = n

theorem mem_sendErr {k : Nat} (hk : k ∈ s.sendErr.errCh.buffer) : k ∈ s.errCh.buffer ∨ k = s.decoded.length := by
  unfold sendErr at hk
  cases hsend : s.errCh.send s.decoded.length with
  | none => exact .inl (by rwa [hsend] at hk)
  | some errCh => simp_all [Chan.send_buffer hsend]

theorem InOrder.step (hs : s.InOrder messages) (hstep : step l s = some s') : s'.InOrder messages := by
  have ⟨hwritten, hqueued, hexited⟩ := hs
  cases l
  all_goals
    simp only [StdioTransport.step] at hstep
    repeat' split at hstep
    all_goals cases hstep
    all_goals constructor <;> grind [sendErr, Chan.send_buffer, Chan.receive_buffer]

theorem Complete.sendErr {n : Nat} (hs : s.Complete n) (hdecoded : s.decoded.length = n)
    (hall : s.received.length = n) : s.sendErr.Complete n := by
  refine ⟨fun k hk => ?_, hs.missed⟩
  obtain hold | rfl := mem_sendErr hk
  · exact hs.reported k hold
  · exact ⟨hdecoded, hall⟩

theorem Complete.step (hs : s.Complete messages.length) (horder : s.InOrder messages) (hsettled : s.settled l = true)
    (hstep : step l s = some s') : s'.Complete messages.length := by
  have ⟨hreported, hmissed⟩ := hs
  have ⟨hqueued, hwritten⟩ := horder.lengths
  have hexited := horder.exited
  clear horder
  cases l with
  | decodeErr | wait =>
    simp only [StdioTransport.step] at hstep
    repeat' split at hstep
    all_goals cases hstep
    all_goals first | exact ⟨hreported, hmissed⟩ | refine Complete.sendErr ⟨hreported, hmissed⟩ ?_ ?_
    all_goals simp_all [settled]
  | receive =>
    simp only [StdioTransport.step] at hstep
    split at hstep
    · next hreceive =>
      have hbuffer := Chan.receive_buffer hreceive
      cases hstep
      constructor <;> grind
    · cases hstep
  | receiveErr =>
    simp only [StdioTransport.step] at hstep
    split at hstep
    · next before errCh hreceive =>
      rw [Chan.receive_buffer hreceive] at hreported
      have hbefore := hreported before mem_cons_self
      cases hstep
      constructor <;> grind
    · cases hstep
  | write | exit | decode =>
    simp only [StdioTransport.step] at hstep
    repeat' split at hstep
    all_goals cases hstep
    all_goals constructor
    all_goals grind [settled, Chan.le_of_send_none]

end StdioTransport

open StdioTransport (InOrder Complete settled)

def stdioTransport {α : Type} (messages : List α) : Machine (StdioTransport α) StdioLabel where
  init := { script := messages }
  step := StdioTransport.step

/-- Messages are received in their order. If a failure is reported only when nothing is left
to be received, no `Receive` returns an error before a message. -/
theorem stdio_delivers_decoded {α : Type} (messages : List α) (s : StdioTransport α) :
    ((stdioTransport messages).Reachable s → s.received <+: messages) ∧
    ((stdioTransport messages).ReachesUnder (fun s l => s.settled l = true) (stdioTransport messages).init s →
      ∀ k ∈ s.missed, k = 0 ∧ s.received = messages) := by
  have hinit : InOrder messages (stdioTransport messages).init := ⟨rfl, rfl, nofun⟩
  constructor
  · intro hreach
    exact (hreach.invariant (I := InOrder messages) (fun _ _ _ hs hstep => hs.step hstep) hinit).initial_segment
  · intro hreach k hk
    have hboth : s.InOrder messages ∧ s.Complete messages.length := by
      refine hreach.invariant (I := fun s => s.InOrder messages ∧ s.Complete messages.length) ?_ ⟨hinit, nofun, nofun⟩
      rintro s l s' ⟨horder, hs⟩ hsettled hstep
      exact ⟨horder.step hstep, hs.step horder hsettled hstep⟩
    obtain ⟨hzero, hlength⟩ := hboth.2.missed k hk
    exact ⟨hzero, hboth.1.initial_segment.eq_of_length hlength⟩

theorem stdio_delivers_decoded_exit : ∃ s : StdioTransport Nat, s.missed ≠ [] ∧ s.received = [7] := by
  obtain ⟨s, hreach, htest⟩ := machine.Machine.exists_reachesUnder_of_exec (m := stdioTransport [7]) (P := settled)
    [.write, .decode, .receive, .exit, .decodeErr, .wait true, .receiveErr] (fun s => decide (s.missed ≠ []))
    (by decide +kernel)
  obtain ⟨k, hk⟩ := exists_mem_of_ne_nil _ (of_decide_eq_true htest)
  exact ⟨s, of_decide_eq_true htest, ((stdio_delivers_decoded [7] s).2 hreach k hk).2⟩

/-- The subprocess exits right after its response. `Receive` returns the end of the output
while the response is in the queue. -/
theorem stdio_error_overtakes : ∃ s, (stdioTransport [7]).Reachable s ∧ s.missed = [1] ∧ s.received = [] := by
  obtain ⟨s, hreach, htest⟩ := machine.Machine.exists_reachable_of_exec (m := stdioTransport [7])
    [.write, .exit, .decode, .decodeErr, .receiveErr] (fun s => decide (s.missed = [1] ∧ s.received = []))
    (by decide +kernel)
  exact ⟨s, hreach, of_decide_eq_true htest⟩

end petalflow.mcp
