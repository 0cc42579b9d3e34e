import Aesd.Library.OpenFile
import Aesd.Library.Runs
import Aesd.Server.Receive

/-!
# The file-backed server

Without `USE_AESD_CHAR_DEVICE` the server keeps its data in a regular file. `main`
opens it twice: for the timer thread when it starts, and for all connections
when it has accepted the first one, each time with truncation. Each descriptor
has a position of its own. The mutex makes the write of a timestamp one step,
and the write of a packet together with its reply another; the file is to be the
log of everything written, in the order of these steps.
-/

namespace Aesd

open OpenFile

/-- The data file, the position of `timer_fd`, and the position of `fd` once it is open. -/
structure FileServer where
  file : List UInt8
  timerPos : Nat
  fdPos : Option Nat
  deriving DecidableEq, Repr

/-- The server when `main` has opened `timer_fd`. -/
def fileServerInit : FileServer := ⟨[], 0, none⟩

/-- How a round of the reply loop ends. A `send` that accepts only a part of the chunk does not
fail. -/
inductive RoundEnd where
  | sent
  | sentPart (count : Nat)
  | sendFailed
  | readFailed
  deriving DecidableEq, Repr

namespace RoundEnd

/-- What the socket accepts of the chunk. -/
def accepted (chunk : List UInt8) : RoundEnd → List UInt8
  | .sent => chunk
  | .sentPart count => chunk.take count
  | .sendFailed | .readFailed => []

/-- Nothing fails in the round. -/
def GoesOn : RoundEnd → Prop
  | .sent | .sentPart _ => True
  | .sendFailed | .readFailed => False

end RoundEnd

/-- The reply loop of `thread_socket`: the position behind it and the bytes sent, from
the ends of its rounds. The fuel bounds the number of rounds. -/
def fileReplyLoop (file : List UInt8) : Nat → (Nat → RoundEnd) → Nat → Nat × List UInt8
  | 0, _, position => (position, [])
  | fuel + 1, ends, position =>
      let chunk := readAt file position initBufSize
      match ends 0 with
      | .readFailed => (position, [])
      | .sendFailed => (position + chunk.length, [])
      | sends =>
          if chunk = [] then (position, [])
          else
            let (last, rest) :=
              fileReplyLoop file fuel (fun round => ends (round + 1)) (position + chunk.length)
            (last, sends.accepted chunk ++ rest)

/-- One step of the file-backed server. The bytes of a write are those it has written: a
failed write has written none. A packet that is a seek is not written (`none`). -/
inductive FileStep where
  | accept
  | tick (timestamp : List UInt8)
  | connection (packet : Option (List UInt8)) (ends : Nat → RoundEnd)

/-- The bytes a step writes. A connection cannot write before the file is open. -/
def FileStep.bytes (state : FileServer) : FileStep → List UInt8
  | .accept => []
  | .tick timestamp => timestamp
  | .connection packet _ => if state.fdPos = none then [] else packet.getD []

/-- The mutex-protected part of `thread_socket`: the write, the `lseek` to the start, and the
reply loop. -/
def threadSocketSection (state : FileServer) (position : Nat) (packet : List UInt8)
    (ends : Nat → RoundEnd) : FileServer :=
  let file := writeAt state.file position packet
  { state with file, fdPos := some (fileReplyLoop file (file.length + 1) ends 0).1 }

/-- One step of the file-backed server. The first connection opens `fd`, which truncates the
file. -/
def fileStep (state : FileServer) : FileStep → FileServer
  | .accept =>
      match state.fdPos with
      | none => { state with file := [], fdPos := some 0 }
      | some _ => state
  | .tick timestamp =>
      { state with
        file := writeAt state.file state.timerPos timestamp
        timerPos := state.timerPos + timestamp.length }
  | .connection packet ends =>
      match state.fdPos with
      | none => state
      | some position => threadSocketSection state position (packet.getD []) ends

/-- The server with the log of what its steps have written. -/
structure LoggedServer where
  server : FileServer
  log : List UInt8

/-- One step, with what it writes. -/
def loggedStep (state : LoggedServer) (step : FileStep) : LoggedServer :=
  ⟨fileStep state.server step, state.log ++ step.bytes state.server⟩

/-- The server after some steps, and all they have written. -/
def fileServer (steps : List FileStep) : LoggedServer :=
  Runs.run loggedStep ⟨fileServerInit, []⟩ steps

/-- The data file is the log: nothing is overwritten, truncated or lost. -/
def LoggedServer.IsLog (state : LoggedServer) : Prop := state.server.file = state.log

instance (state : LoggedServer) : Decidable state.IsLog := inferInstanceAs (Decidable (_ = _))

/-- What a step writes goes to the end of the file, and the first connection finds nothing
to truncate. -/
def WritesAtEnd (state : LoggedServer) : FileStep → Prop
  | .accept => state.server.fdPos = none → state.server.file = []
  | .tick timestamp =>
      timestamp = [] ∨ state.server.timerPos = state.server.file.length
  | .connection packet _ =>
      ∀ position, state.server.fdPos = some position →
        packet.getD [] = [] ∨ position = state.server.file.length

/-- A step keeps the log exactly if it writes at the end. -/
theorem isLog_loggedStep_iff {state : LoggedServer} (isLog : state.IsLog) (step : FileStep) :
    (loggedStep state step).IsLog ↔ WritesAtEnd state step := by
  unfold LoggedServer.IsLog at isLog ⊢
  cases step with
  | accept =>
      simp only [loggedStep, fileStep, FileStep.bytes, WritesAtEnd, List.append_nil, ← isLog]
      cases state.server.fdPos with
      | none => simp [eq_comm]
      | some position => simp
  | tick timestamp =>
      simp only [loggedStep, fileStep, FileStep.bytes, WritesAtEnd, ← isLog]
      exact writeAt_eq_append_iff ..
  | connection packet ends =>
      simp only [loggedStep, fileStep, FileStep.bytes, WritesAtEnd, ← isLog]
      cases state.server.fdPos with
      | none => simp
      | some position =>
          simp only [threadSocketSection, reduceCtorEq, if_false, Option.some.injEq,
            forall_eq']
          exact writeAt_eq_append_iff ..

/-- Append-only log. In every state of a run the data file is the log of all that has been
written, if and only if each step of the run writes at the end. -/
theorem isLog_iff (steps : List FileStep) :
    (∀ visited, visited <+: steps → (fileServer visited).IsLog) ↔
      Runs.Along loggedStep WritesAtEnd ⟨fileServerInit, []⟩ steps :=
  Runs.forall_prefix_iff (fun _ => True) LoggedServer.IsLog (fun _ _ _ => trivial)
    (fun _ step _ isLog => isLog_loggedStep_iff isLog step) steps trivial rfl

/-- A connection writes a packet and sends it back; then the timer writes over it. -/
theorem not_isLog_tick_after_packet :
    let timestamp : List UInt8 :=
      "timestamp: 2024, Jan, 01, 00:00:10\n".toList.map fun character => .ofNat character.toNat
    ¬∀ visited, visited <+:
      [.accept, .connection (some [97, newline]) fun _ => .sent, .tick timestamp] →
        (fileServer visited).IsLog := by
  intro timestamp everywhere
  have last := everywhere _ List.prefix_rfl
  revert last
  decide +kernel

/-! ## Connections alone -/

/-- A round in which nothing fails goes on behind its chunk. -/
theorem fileReplyLoop_succ (file : List UInt8) (fuel : Nat) {ends : Nat → RoundEnd}
    (goesOn : (ends 0).GoesOn) (position : Nat) :
    fileReplyLoop file (fuel + 1) ends position =
      let chunk := readAt file position initBufSize
      if chunk = [] then (position, [])
      else
        let rest := fileReplyLoop file fuel (fun round => ends (round + 1))
          (position + chunk.length)
        (rest.1, (ends 0).accepted chunk ++ rest.2) := by
  rw [fileReplyLoop]
  cases first : ends 0 with
  | sent => rfl
  | sentPart count => rfl
  | sendFailed | readFailed =>
      rw [first] at goesOn
      exact goesOn.elim

/-- A reply loop on which nothing fails ends at the end of the file, however much of each chunk
is sent. -/
theorem fileReplyLoop_goesOn (file : List UInt8) {fuel position : Nat} {ends : Nat → RoundEnd}
    (goesOn : ∀ round, (ends round).GoesOn) (enough : file.length < position + fuel)
    (within : position ≤ file.length) :
    (fileReplyLoop file fuel ends position).1 = file.length := by
  induction fuel generalizing ends position with
  | zero => omega
  | succ fuel ih =>
      have chunk := readAt_eq_nil_iff file position (show 0 < initBufSize by decide)
      rw [fileReplyLoop_succ file fuel (goesOn 0)]
      dsimp only
      split
      next empty => exact Nat.le_antisymm within (chunk.mp empty)
      next nonempty =>
        have progress := List.length_pos_of_ne_nil nonempty
        have most : (readAt file position initBufSize).length ≤ file.length - position := by
          rw [readAt, List.length_take, List.length_drop]
          exact Nat.min_le_right _ _
        exact ih (fun round => goesOn (round + 1)) (by omega) (by omega)

/-- The step writes no timestamp, and its reply loop goes on to the end. -/
def FileStep.Undisturbed : FileStep → Prop
  | .accept => True
  | .tick timestamp => timestamp = []
  | .connection _ ends => ∀ round, (ends round).GoesOn

/-- The next packet goes to the end of the file. -/
def LoggedServer.AtEnd (state : LoggedServer) : Prop :=
  state.server.fdPos.getD 0 = state.server.file.length

theorem LoggedServer.AtEnd.loggedStep {state : LoggedServer} (atEnd : state.AtEnd)
    {step : FileStep} (undisturbed : step.Undisturbed) :
    WritesAtEnd state step ∧ (loggedStep state step).AtEnd := by
  unfold LoggedServer.AtEnd at *
  cases step with
  | accept =>
      cases opened : state.server.fdPos with
      | none =>
          rw [opened] at atEnd
          exact ⟨fun _ => List.length_eq_zero_iff.mp atEnd.symm, by
            simp [Aesd.loggedStep, fileStep, opened]⟩
      | some position => exact ⟨by simp [WritesAtEnd, opened], by
          simpa [Aesd.loggedStep, fileStep, opened] using atEnd⟩
  | tick timestamp =>
      obtain rfl : timestamp = [] := undisturbed
      exact ⟨.inl rfl, by simpa [Aesd.loggedStep, fileStep] using atEnd⟩
  | connection packet ends =>
      have goesOn : ∀ round, (ends round).GoesOn := undisturbed
      cases opened : state.server.fdPos with
      | none => exact ⟨by simp [WritesAtEnd, opened], by
          simpa [Aesd.loggedStep, fileStep, opened] using atEnd⟩
      | some position =>
          rw [opened] at atEnd
          refine ⟨fun other same => .inr ?_, ?_⟩
          · rw [← Option.some.inj (opened.symm.trans same)]
            exact atEnd
          · simp only [Aesd.loggedStep, fileStep, opened, threadSocketSection, Option.getD_some]
            exact (fileReplyLoop_goesOn _ goesOn (by omega) (Nat.zero_le _))

/-- Without timestamps, as long as no reply fails, the file is the log. -/
theorem isLog_of_undisturbed (steps : List FileStep)
    (undisturbed : ∀ step ∈ steps, step.Undisturbed) : (fileServer steps).IsLog :=
  have along : Runs.Along loggedStep WritesAtEnd ⟨fileServerInit, []⟩ steps :=
    .of_invariant LoggedServer.AtEnd rfl fun _ step member atEnd =>
      atEnd.loggedStep (undisturbed step member)
  Runs.invariant LoggedServer.IsLog
    (fun _ step isLog met => (isLog_loggedStep_iff isLog step).mpr met) rfl along

end Aesd
