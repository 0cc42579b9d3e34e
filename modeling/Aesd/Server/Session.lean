import Aesd.Driver.Reading
import Aesd.Server.Receive

/-!
# Connections that share the device

`main` opens the device once and starts one `thread_socket` for each accepted
connection, so that all threads share one open file and its position. A thread
hands its packet to the device in one call and then reads and sends until a read
returns no bytes. This build compiles the mutex out: nothing but the single
calls is atomic, and any thread may take the next step.

A thread whose client ends the connection before a newline never calls the
device, and stays `receiving` here.
-/

namespace Aesd

open KernelMemory MachineInt

/-- What a thread asks of the device for its packet, with the outcomes of the call.
A packet with the prefix `AESDCHAR_IOCSEEKTO:` is a request to seek; every other
packet is written. -/
inductive Request where
  | ordinary (call : WriteCall)
  | seek (request : AesdSeekto) (lock : Bool)
  deriving DecidableEq, Repr

/-- A thread past its request: what the call returned, and the bytes its client has
been sent. -/
structure Conversation where
  request : Request
  retval : Int
  reply : List Cell
  deriving DecidableEq, Repr

/-- More bytes go to the client. -/
def Conversation.send (conversation : Conversation) (data : List Cell) : Conversation :=
  { conversation with reply := conversation.reply ++ data }

/-- Where in `thread_socket` a thread is: in the receive loop, in the reply loop, or
past it. -/
inductive Phase where
  | receiving
  | replying (conversation : Conversation)
  | closed (conversation : Conversation)
  deriving DecidableEq, Repr

/-- The device, the position of the shared open file, and the threads in the order of
their connections. -/
structure SessionState where
  driver : DriverState
  fPos : Int
  threads : List Phase

/-- A fresh device, opened, and no connection. -/
def sessionInit : SessionState := ⟨aesdInitModule, 0, []⟩

/-- The outcomes of one round of the reply loop: the lock and the copy of the read, and
how many bytes of the chunk `send` leaves out (`none` if it fails). -/
structure ReplyRound where
  lock : Bool
  uncopied : Nat
  unsent : Option Nat
  deriving DecidableEq, Repr

/-- A round on which nothing fails. -/
def ReplyRound.granted : ReplyRound := ⟨true, 0, some 0⟩

/-- One step of the server. -/
inductive SessionStep where
  | accept
  | dispatch (thread : Nat) (request : Request)
  | reply (thread : Nat) (round : ReplyRound)
  deriving DecidableEq, Repr

/-- The call of a thread on the device: what it returns, the device and the file
position. A write leaves the position alone. -/
def issue (sign : CharSign) (driver : DriverState) (fPos : Int) :
    Request → Int × DriverState × Int
  | .ordinary call =>
      let (retval, driver) := aesdWrite sign driver call
      (retval, driver, fPos)
  | .seek request lock =>
      let (retval, fPos) :=
        aesdUnlockedIoctl driver.dev ⟨aesdcharIocseekto, some request, lock⟩ fPos
      (retval, driver, fPos)

/-- The call of `aesd_read` in a round. -/
def ReplyRound.readCall (round : ReplyRound) : ReadCall :=
  ⟨true, true, round.lock, round.uncopied, .ofNat initBufSize⟩

/-- One round of the reply loop. The kernel stores the position of a read back unless
the driver returns an error. -/
def replyRound (driver : DriverState) (fPos : Int) (conversation : Conversation)
    (round : ReplyRound) : DriverState × Int × Phase :=
  let result := aesdRead driver round.readCall fPos
  let fPos := if result.retval < 0 then fPos else result.fPos
  if result.retval ≤ 0 then (result.state, fPos, .closed conversation)
  else
    match round.unsent with
    | none => (result.state, fPos, .closed conversation)
    | some unsent =>
        let sent := result.data.take (result.data.length - unsent)
        (result.state, fPos, .replying (conversation.send sent))

/-- One step of the server. A step of a thread that is elsewhere changes nothing. -/
def sessionStep (sign : CharSign) (state : SessionState) : SessionStep → SessionState
  | .accept => { state with threads := state.threads ++ [.receiving] }
  | .dispatch thread request =>
      match state.threads[thread]? with
      | some .receiving =>
          let (retval, driver, fPos) := issue sign state.driver state.fPos request
          ⟨driver, fPos, state.threads.set thread (.replying ⟨request, retval, []⟩)⟩
      | _ => state
  | .reply thread round =>
      match state.threads[thread]? with
      | some (.replying conversation) =>
          let (driver, fPos, phase) := replyRound state.driver state.fPos conversation round
          ⟨driver, fPos, state.threads.set thread phase⟩
      | _ => state

/-- The server after some steps. -/
def session (sign : CharSign) (steps : List SessionStep) : SessionState :=
  Runs.run (sessionStep sign) sessionInit steps

/-! ## What a client ought to get -/

/-- The device has the requested byte. -/
def HasByte (commands : List (List Cell)) (request : AesdSeekto) : Prop :=
  ∃ command ∈ commands[request.writeCmd.toNat]?, request.writeCmdOffset.toNat < command.length

instance (commands : List (List Cell)) (request : AesdSeekto) :
    Decidable (HasByte commands request) :=
  inferInstanceAs (Decidable (∃ command ∈ commands[request.writeCmd.toNat]?, _))

/-- Where the requested byte is in the concatenation of the commands. -/
def bytePosition (commands : List (List Cell)) (request : AesdSeekto) : Nat :=
  (commands.take request.writeCmd.toNat).flatten.length + request.writeCmdOffset.toNat

/-- The reply answers the request with these contents: all of them, the own packet
included, or after an accepted seek all from the requested byte on. -/
def Conversation.Answers (conversation : Conversation) (commands : List (List Cell)) : Prop :=
  match conversation.request with
  | .ordinary call =>
      call.bytes.map some ∈ commands ∧ conversation.reply = commands.flatten
  | .seek request _ =>
      conversation.retval = 0 → HasByte commands request ∧
        conversation.reply = commands.flatten.drop (bytePosition commands request)

instance : (conversation : Conversation) → (commands : List (List Cell)) →
    Decidable (conversation.Answers commands)
  | ⟨.ordinary _, _, _⟩, _ => inferInstanceAs (Decidable (_ ∧ _))
  | ⟨.seek _ _, _, _⟩, _ => inferInstanceAs (Decidable (_ → _ ∧ _))

/-- The thread has handed over its packet. -/
def SessionState.Dispatched (state : SessionState) (thread : Nat) : Prop :=
  ∃ phase ∈ state.threads[thread]?, phase ≠ .receiving

instance (state : SessionState) (thread : Nat) : Decidable (state.Dispatched thread) :=
  inferInstanceAs (Decidable (∃ phase ∈ state.threads[thread]?, _))

/-- Every thread past its reply loop has sent what answers its request with the contents
of the device at one moment not before its own call. -/
def RepliesIsolated (sign : CharSign) (steps : List SessionStep) : Prop :=
  ∀ thread conversation, (session sign steps).threads[thread]? = some (.closed conversation) →
    ∃ visited, visited <+: steps ∧ (session sign visited).Dispatched thread ∧
      conversation.Answers (session sign visited).driver.commands

/-! ## Who moves the position -/

/-- The request, if it was an accepted seek. -/
def Conversation.target (conversation : Conversation) : Option AesdSeekto :=
  match conversation.request with
  | .ordinary _ => none
  | .seek request _ => if conversation.retval = 0 then some request else none

/-- The thread is in the middle of its reply: it has been sent bytes, or has moved the
position to where its reply starts. -/
def Phase.Holds : Phase → Prop
  | .replying conversation => conversation.reply ≠ [] ∨ conversation.target ≠ none
  | _ => False

instance : (phase : Phase) → Decidable phase.Holds
  | .replying _ => inferInstanceAs (Decidable (_ ∨ _))
  | .receiving => .isFalse id
  | .closed _ => .isFalse id

/-- The thread is in the middle of its reply. -/
def Holds (threads : List Phase) (thread : Nat) : Prop := ∃ phase ∈ threads[thread]?, phase.Holds

instance (threads : List Phase) (thread : Nat) : Decidable (Holds threads thread) :=
  inferInstanceAs (Decidable (∃ phase ∈ threads[thread]?, _))

/-- No other thread is in the middle of its reply. -/
def Alone (threads : List Phase) (thread : Nat) : Prop :=
  ∀ other < threads.length, Holds threads other → other = thread

instance (threads : List Phase) (thread : Nat) : Decidable (Alone threads thread) :=
  inferInstanceAs (Decidable (∀ other < threads.length, _))

/-- The step keeps replies apart. A written packet ends with its only newline, is in the
range of `char` and finds room. A seek to a byte the device has, and a read, are by a
thread whose position no other thread relies on. No call fails. -/
def Isolated (sign : CharSign) (state : SessionState) : SessionStep → Prop
  | .accept => True
  | .dispatch thread (.ordinary call) =>
      state.threads[thread]? = some .receiving →
        state.driver.Succeeds sign call ∧ call.bytes.getLast? = some newline ∧
          newline ∉ call.bytes.dropLast ∧ call.bytes.length ≤ sign.max ∧
          state.driver.dev.circBuffer.full = false
  | .dispatch thread (.seek request lock) =>
      state.threads[thread]? = some .receiving → lock = true →
        request.writeCmdOffset.toNat <
          (state.driver.dev.circBuffer.slot request.writeCmd.toNat).size.toNat →
        Alone state.threads thread
  | .reply thread round =>
      (∃ phase ∈ state.threads[thread]?, phase matches .replying _) →
        round = .granted ∧ Alone state.threads thread

instance (sign : CharSign) (state : SessionState) :
    (step : SessionStep) → Decidable (Isolated sign state step)
  | .accept => .isTrue trivial
  | .dispatch _ (.ordinary _) => inferInstanceAs (Decidable (_ → _))
  | .dispatch _ (.seek _ _) => inferInstanceAs (Decidable (_ → _))
  | .reply thread _ =>
      inferInstanceAs (Decidable ((∃ phase ∈ state.threads[thread]?, _) → _))

end Aesd
