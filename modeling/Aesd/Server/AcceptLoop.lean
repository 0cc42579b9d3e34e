import Aesd.Library.Parties
import Aesd.Library.Runs
import Aesd.Server.ThreadList

/-!
# The accept loop

`main` after `listen`, in the build with the device: it accepts connections, opens the device
for the first of them, starts a thread for each and keeps the threads in a list, which it
cleans in every pass and clears at the end. The threads take their steps in between, and
`ll_clean` joins them. What a thread does with its client and the device between its first
message and its flag is not looked at here.

All nodes point to the one variable that `accept` fills in with the address of a client.
-/

namespace Aesd

open LinkedList

/-- `struct sockaddr_in`. -/
structure SockaddrIn where
  sinPort : UInt16
  sinAddr : UInt32
  deriving DecidableEq, Repr

/-- Where in `thread_socket` a thread is: before its first message, past it, past
`complete_flag = 1`, or past its last message. In between it keeps the text of the address. -/
inductive ConnectionStage where
  | started
  | serving (addressString : UInt32)
  | completed (addressString : UInt32)
  | returned
  deriving DecidableEq, Repr

/-- A connection with a thread: the node that `main` has allocated, what `accept` has returned,
and where the thread is. -/
structure Connection where
  node : Nat
  clientFd : Nat
  client : SockaddrIn
  stage : ConnectionStage
  deriving DecidableEq, Repr

/-- The call that has returned a descriptor: `socket`, `open`, or the `accept` of the connection
of this number. -/
inductive Origin where
  | socket
  | device
  | client (connection : Nat)
  deriving DecidableEq, Repr

/-- A message that a thread logs: `Accepted connection from` or `Closed connection from`. -/
inductive Message where
  | accepted (connection : Nat) (address : UInt32)
  | closed (connection : Nat) (address : UInt32)
  deriving DecidableEq, Repr

/-- Why `main` leaves the loop: `complete_exec` is set, or `break` after a failure of `accept`,
`malloc` or `pthread_create`. -/
inductive Leaving where
  | signal
  | acceptFailure
  | mallocFailure
  | createFailure
  deriving DecidableEq, Repr

/-- Where `main` is: before the test of the loop, in `ll_clean` (in the last one if it has left
the loop), or past its `return`. -/
inductive MainPc where
  | accepting
  | cleaning (leaving : Option Leaving)
  | returned (retval : Int)
  deriving DecidableEq, Repr

/-- The variables of `main`, the nodes, the threads in the order of their start, the open
descriptors, and a record of what has gone on: the messages, the descriptors passed to `close`
that were not open, and whether a freed node has been touched. -/
structure MainState where
  pc : MainPc
  completeExec : Bool
  testAddr : Option SockaddrIn
  isFdCreated : Bool
  fd : Int
  sfd : Nat
  walk : Walk
  connections : List Connection
  descriptors : Nat → Option Origin
  messages : List Message
  misclosed : List Int
  fault : Bool

/-- `main` before its loop. `fd` is not initialised: it holds any value. -/
def mainInit (sfd : Nat) (fd : Int) : MainState where
  pc := .accepting
  completeExec := false
  testAddr := none
  isFdCreated := false
  fd := fd
  sfd := sfd
  walk := ⟨.empty, none, none, none, []⟩
  connections := []
  descriptors := Function.update (fun _ => none) sfd (some .socket)
  messages := []
  misclosed := []
  fault := false

/-- What a pass of the loop meets: `accept` would block or fails, or it returns a connection,
and then `open`, `malloc` and `pthread_create` have these outcomes. -/
inductive AcceptOutcome where
  | again
  | failed
  | connected (client : SockaddrIn) (clientFd : Nat) (opened node : Option Nat) (created : Bool)
  deriving DecidableEq, Repr

/-- A step: a signal, a pass of the loop of `main` up to `ll_clean`, a pass of the loop of
`ll_clean`, or the first message, the flag or the end of a thread. -/
inductive MainStep where
  | signal
  | accept (outcome : AcceptOutcome)
  | visit
  | begin (connection : Nat)
  | complete (connection : Nat)
  | close (connection : Nat)
  deriving DecidableEq, Repr

namespace MainState

/-- `close` of a descriptor. -/
def closeFd (state : MainState) (descriptor : Int) : MainState :=
  if 0 ≤ descriptor ∧ (state.descriptors descriptor.toNat).isSome then
    { state with descriptors := Function.update state.descriptors descriptor.toNat none }
  else { state with misclosed := state.misclosed ++ [descriptor] }

@[simp] theorem closeFd_pc (state : MainState) (descriptor : Int) :
    (state.closeFd descriptor).pc = state.pc := by
  unfold closeFd
  split <;> rfl

@[simp] theorem closeFd_walk (state : MainState) (descriptor : Int) :
    (state.closeFd descriptor).walk = state.walk := by
  unfold closeFd
  split <;> rfl

@[simp] theorem closeFd_connections (state : MainState) (descriptor : Int) :
    (state.closeFd descriptor).connections = state.connections := by
  unfold closeFd
  split <;> rfl

@[simp] theorem closeFd_isFdCreated (state : MainState) (descriptor : Int) :
    (state.closeFd descriptor).isFdCreated = state.isFdCreated := by
  unfold closeFd
  split <;> rfl

@[simp] theorem closeFd_messages (state : MainState) (descriptor : Int) :
    (state.closeFd descriptor).messages = state.messages := by
  unfold closeFd
  split <;> rfl

@[simp] theorem closeFd_fault (state : MainState) (descriptor : Int) :
    (state.closeFd descriptor).fault = state.fault := by
  unfold closeFd
  split <;> rfl

/-- The call of `ll_clean`. -/
def startClean (state : MainState) (leaving : Option Leaving) : MainState :=
  { state with
    pc := .cleaning leaving
    walk.previous := none
    walk.current := state.walk.head }

/-- The kernel hands out descriptors that are not open, and `malloc` memory that is not
allocated. -/
def Grants (state : MainState) : AcceptOutcome → Prop
  | .connected _ clientFd opened node _ =>
      state.descriptors clientFd = none ∧
        (∀ fd ∈ opened, state.descriptors fd = none ∧ fd ≠ clientFd) ∧
        ∀ address ∈ node, state.walk.heap address = none
  | _ => True

instance (state : MainState) : (outcome : AcceptOutcome) → Decidable (state.Grants outcome)
  | .connected _ _ _ _ _ => inferInstanceAs (Decidable (_ ∧ _ ∧ _))
  | .again => .isTrue trivial
  | .failed => .isTrue trivial

/-- `accept` returns a connection, and its address in `test_addr`. -/
def acceptClient (state : MainState) (client : SockaddrIn) (clientFd : Nat) : MainState :=
  { state with
    testAddr := some client
    descriptors :=
      Function.update state.descriptors clientFd (some (.client state.connections.length)) }

/-- `open` returns a descriptor for the device. -/
def openDevice (state : MainState) (fd : Nat) : MainState :=
  { state with
    isFdCreated := true
    fd := fd
    descriptors := Function.update state.descriptors fd (some .device) }

/-- The new thread and its node, put in front of the list. -/
def insertNode (state : MainState) (client : SockaddrIn) (clientFd address : Nat) : MainState :=
  { state with
    walk.heap := state.walk.heap.store address
      ⟨⟨state.connections.length, clientFd, false⟩, state.walk.head⟩
    walk.head := some address
    connections := state.connections ++ [⟨address, clientFd, client, .started⟩] }

/-- From `malloc` to the end of the pass. -/
def addNode (state : MainState) (client : SockaddrIn) (clientFd : Nat) (node : Option Nat)
    (created : Bool) : MainState :=
  match node with
  | none => state.startClean (some .mallocFailure)
  | some address =>
      if created then (state.insertNode client clientFd address).startClean none
      else state.startClean (some .createFailure)

/-- A pass of the loop of `main`. What cannot be granted does not happen. -/
def accept (state : MainState) (outcome : AcceptOutcome) : MainState :=
  if state.completeExec then state.startClean (some .signal)
  else
    match outcome with
    | .again => state.startClean none
    | .failed => state.startClean (some .acceptFailure)
    | .connected client clientFd opened node created =>
        if ¬state.Grants (.connected client clientFd opened node created) then state
        else if state.isFdCreated then
          (state.acceptClient client clientFd).addNode client clientFd node created
        else
          match opened with
          | none => { state.acceptClient client clientFd with pc := .returned (-1) }
          | some fd =>
              ((state.acceptClient client clientFd).openDevice fd).addNode client clientFd node
                created

/-- The end of `main`, after the last `ll_clean`. -/
def finish (state : MainState) : MainState :=
  { (state.closeFd state.sfd).closeFd state.fd with pc := .returned 0 }

/-- The thread has returned, or there is none of this number. -/
def IsJoinable (state : MainState) (threadId : Nat) : Prop :=
  ∀ connection ∈ state.connections[threadId]?, connection.stage = .returned

instance (state : MainState) (threadId : Nat) : Decidable (state.IsJoinable threadId) :=
  inferInstanceAs (Decidable (∀ connection ∈ state.connections[threadId]?, _))

/-- A pass of the loop of `ll_clean`, or its return. `pthread_join` waits for the thread. -/
def clean (state : MainState) (leaving : Option Leaving) : MainState :=
  match state.walk.current with
  | none =>
      match leaving with
      | none => { state with pc := .accepting }
      | some _ => state.finish
  | some temp =>
      match state.walk.heap temp with
      | none => { state with fault := true }
      | some node =>
          if (node.data.completeFlag || leaving.isSome) ∧ ¬state.IsJoinable node.data.threadId then
            state
          else
            match state.walk.visit leaving.isSome with
            | none => { state with fault := true }
            | some walk => { state with walk := walk }

/-- A thread goes on. -/
def setStage (state : MainState) (thread : Nat) (connection : Connection)
    (stage : ConnectionStage) : MainState :=
  { state with connections := state.connections.set thread { connection with stage := stage } }

/-- The first message of a thread: it follows the pointer of its node to the address. -/
def begin (state : MainState) (thread : Nat) : MainState :=
  match state.connections[thread]? with
  | some connection =>
      match connection.stage, state.walk.heap connection.node, state.testAddr with
      | .started, none, _ => { state with fault := true }
      | .started, some _, some address =>
          { state.setStage thread connection (.serving address.sinAddr) with
            messages := state.messages ++ [.accepted thread address.sinAddr] }
      | _, _, _ => state
  | none => state

/-- A thread sets `complete_flag` in its node. It gets there when it is done with its client:
`recv` and `send` may keep it from that for ever. -/
def complete (state : MainState) (thread : Nat) : MainState :=
  match state.connections[thread]? with
  | some connection =>
      match connection.stage, state.walk.heap connection.node with
      | .serving _, none => { state with fault := true }
      | .serving addressString, some node =>
          { state.setStage thread connection (.completed addressString) with
            walk.heap := state.walk.heap.store connection.node
              ⟨{ node.data with completeFlag := true }, node.next⟩ }
      | _, _ => state
  | none => state

/-- A thread closes the descriptor that its node holds, logs its last message and returns. -/
def close (state : MainState) (thread : Nat) : MainState :=
  match state.connections[thread]? with
  | some connection =>
      match connection.stage, state.walk.heap connection.node with
      | .completed _, none => { state with fault := true }
      | .completed addressString, some node =>
          { (state.setStage thread connection .returned).closeFd node.data.clientFd with
            messages := state.messages ++ [.closed thread addressString] }
      | _, _ => state
  | none => state

end MainState

/-- One step. A step that `main` or a thread is not at changes nothing; once `main` has
returned, the process is over. -/
def mainStep (state : MainState) (step : MainStep) : MainState :=
  match state.pc, step with
  | .returned _, _ => state
  | _, .signal => { state with completeExec := true }
  | .accepting, .accept outcome => state.accept outcome
  | .cleaning leaving, .visit => state.clean leaving
  | _, .begin thread => state.begin thread
  | _, .complete thread => state.complete thread
  | _, .close thread => state.close thread
  | _, _ => state

/-- `main` after some steps. -/
def mainRun (sfd : Nat) (fd : Int) (steps : List MainStep) : MainState :=
  Runs.run mainStep (mainInit sfd fd) steps

/-! ## What a step does -/

/-- The state with a new connection, and with the device if it is the first one. -/
inductive Accepts (state : MainState) (client : SockaddrIn) (clientFd : Nat) :
    MainState → Prop where
  | later (created : state.isFdCreated = true) (fresh : state.descriptors clientFd = none) :
      Accepts state client clientFd (state.acceptClient client clientFd)
  | first (fd : Nat) (notCreated : state.isFdCreated = false)
      (fresh : state.descriptors clientFd = none) (freshDevice : state.descriptors fd = none)
      (apart : fd ≠ clientFd) :
      Accepts state client clientFd ((state.acceptClient client clientFd).openDevice fd)

/-- What the steps do. -/
inductive MainMoves (state : MainState) : MainStep → MainState → Prop where
  | idle (step : MainStep) : MainMoves state step state
  | signals : MainMoves state .signal { state with completeExec := true }
  | polls (outcome : AcceptOutcome) (accepting : state.pc = .accepting) :
      MainMoves state (.accept outcome) (state.startClean none)
  | leaves (outcome : AcceptOutcome) (leaving : Leaving) (accepting : state.pc = .accepting)
      (reason : leaving = .signal ∨ leaving = .acceptFailure) :
      MainMoves state (.accept outcome) (state.startClean (some leaving))
  | openFails (client : SockaddrIn) (clientFd : Nat) (node : Option Nat) (created : Bool)
      (accepting : state.pc = .accepting) (running : state.completeExec = false)
      (grants : state.Grants (.connected client clientFd none node created))
      (notCreated : state.isFdCreated = false) :
      MainMoves state (.accept (.connected client clientFd none node created))
        { state.acceptClient client clientFd with pc := .returned (-1) }
  | abandons (outcome : AcceptOutcome) (client : SockaddrIn) (clientFd : Nat) (ready : MainState)
      (leaving : Leaving) (accepting : state.pc = .accepting)
      (accepts : Accepts state client clientFd ready)
      (reason : leaving = .mallocFailure ∨ leaving = .createFailure) :
      MainMoves state (.accept outcome) (ready.startClean (some leaving))
  | starts (outcome : AcceptOutcome) (client : SockaddrIn) (clientFd address : Nat)
      (ready : MainState) (accepting : state.pc = .accepting)
      (accepts : Accepts state client clientFd ready)
      (granted : state.walk.heap address = none) :
      MainMoves state (.accept outcome)
        ((ready.insertNode client clientFd address).startClean none)
  | resumes (cleaning : state.pc = .cleaning none) (ended : state.walk.current = none) :
      MainMoves state .visit { state with pc := .accepting }
  | finishes (leaving : Leaving) (cleaning : state.pc = .cleaning (some leaving))
      (ended : state.walk.current = none) : MainMoves state .visit state.finish
  | visits (leaving : Option Leaving) (temp : Nat) (node : Cell ThreadData) (next : Walk)
      (cleaning : state.pc = .cleaning leaving) (here : state.walk.current = some temp)
      (allocated : state.walk.heap temp = some node)
      (joinable : (node.data.completeFlag || leaving.isSome) = true →
        state.IsJoinable node.data.threadId)
      (visited : state.walk.visit leaving.isSome = some next) :
      MainMoves state .visit { state with walk := next }
  | visitFaults (leaving : Option Leaving) (temp : Nat)
      (cleaning : state.pc = .cleaning leaving) (here : state.walk.current = some temp)
      (faults : state.walk.heap temp = none ∨ state.walk.visit leaving.isSome = none) :
      MainMoves state .visit { state with fault := true }
  | threadFaults (step : MainStep) (thread : Nat) (connection : Connection)
      (selected : state.connections[thread]? = some connection)
      (active : connection.stage ≠ .returned) (freed : state.walk.heap connection.node = none) :
      MainMoves state step { state with fault := true }
  | begins (thread : Nat) (connection : Connection) (address : SockaddrIn)
      (running : ∀ retval, state.pc ≠ .returned retval)
      (selected : state.connections[thread]? = some connection)
      (stage : connection.stage = .started) (points : state.testAddr = some address) :
      MainMoves state (.begin thread)
        { state.setStage thread connection (.serving address.sinAddr) with
          messages := state.messages ++ [.accepted thread address.sinAddr] }
  | completes (thread : Nat) (connection : Connection) (addressString : UInt32)
      (node : Cell ThreadData) (running : ∀ retval, state.pc ≠ .returned retval)
      (selected : state.connections[thread]? = some connection)
      (stage : connection.stage = .serving addressString)
      (allocated : state.walk.heap connection.node = some node) :
      MainMoves state (.complete thread)
        { state.setStage thread connection (.completed addressString) with
          walk.heap := state.walk.heap.store connection.node
            ⟨{ node.data with completeFlag := true }, node.next⟩ }
  | closes (thread : Nat) (connection : Connection) (addressString : UInt32)
      (node : Cell ThreadData) (running : ∀ retval, state.pc ≠ .returned retval)
      (selected : state.connections[thread]? = some connection)
      (stage : connection.stage = .completed addressString)
      (allocated : state.walk.heap connection.node = some node) :
      MainMoves state (.close thread)
        { (state.setStage thread connection .returned).closeFd node.data.clientFd with
          messages := state.messages ++ [.closed thread addressString] }

namespace MainState

variable {state : MainState}

theorem addNode_moves {outcome : AcceptOutcome} {client : SockaddrIn} {clientFd : Nat}
    {ready : MainState} (accepting : state.pc = .accepting)
    (accepts : Accepts state client clientFd ready) {node : Option Nat}
    (granted : ∀ address ∈ node, state.walk.heap address = none) (created : Bool) :
    MainMoves state (.accept outcome) (ready.addNode client clientFd node created) := by
  cases node with
  | none => exact .abandons outcome client clientFd ready _ accepting accepts (.inl rfl)
  | some address =>
      cases created with
      | false => exact .abandons outcome client clientFd ready _ accepting accepts (.inr rfl)
      | true =>
          exact .starts outcome client clientFd address ready accepting accepts
            (granted address rfl)

theorem accept_moves (accepting : state.pc = .accepting) (outcome : AcceptOutcome) :
    MainMoves state (.accept outcome) (state.accept outcome) := by
  unfold accept
  split
  next => exact .leaves outcome .signal accepting (.inl rfl)
  next running =>
    split
    next => exact .polls _ accepting
    next => exact .leaves _ .acceptFailure accepting (.inr rfl)
    next client clientFd opened node created =>
      split
      next => exact .idle _
      next granted =>
        obtain ⟨fresh, freshDevice, freshNode⟩ := not_not.mp granted
        split
        next isCreated => exact addNode_moves accepting (.later isCreated fresh) freshNode created
        next notCreated =>
          have notYet : state.isFdCreated = false := by simpa using notCreated
          split
          next =>
            exact .openFails client clientFd node created accepting (by simpa using running)
              (not_not.mp granted) notYet
          next fd =>
            obtain ⟨unused, apart⟩ := freshDevice fd rfl
            exact addNode_moves accepting (.first fd notYet fresh unused apart) freshNode created

theorem clean_moves {leaving : Option Leaving} (cleaning : state.pc = .cleaning leaving) :
    MainMoves state .visit (state.clean leaving) := by
  unfold clean
  split
  next ended =>
    split
    next => exact .resumes cleaning ended
    next reason => exact .finishes reason cleaning ended
  next temp here =>
    split
    next freed => exact .visitFaults leaving temp cleaning here (.inl freed)
    next node allocated =>
      split
      next => exact .idle _
      next joins =>
        have joinable : (node.data.completeFlag || leaving.isSome) = true →
            state.IsJoinable node.data.threadId := fun goes => by
          by_contra waits
          exact joins ⟨goes, waits⟩
        split
        next faults => exact .visitFaults leaving temp cleaning here (.inr faults)
        next next visited =>
          exact .visits leaving temp node next cleaning here allocated joinable visited

theorem begin_moves (running : ∀ retval, state.pc ≠ .returned retval) (thread : Nat) :
    MainMoves state (.begin thread) (state.begin thread) := by
  unfold begin
  split
  next connection selected =>
    split
    next stage freed =>
      exact .threadFaults _ thread connection selected (by simp [stage]) freed
    next address stage allocated points =>
      exact .begins thread connection address running selected stage points
    next => exact .idle _
  next => exact .idle _

theorem complete_moves (running : ∀ retval, state.pc ≠ .returned retval) (thread : Nat) :
    MainMoves state (.complete thread) (state.complete thread) := by
  unfold complete
  split
  next connection selected =>
    split
    next stage freed =>
      exact .threadFaults _ thread connection selected (by simp [stage]) freed
    next addressString node stage allocated =>
      exact .completes thread connection addressString node running selected stage allocated
    next => exact .idle _
  next => exact .idle _

theorem close_moves (running : ∀ retval, state.pc ≠ .returned retval) (thread : Nat) :
    MainMoves state (.close thread) (state.close thread) := by
  unfold close
  split
  next connection selected =>
    split
    next stage freed =>
      exact .threadFaults _ thread connection selected (by simp [stage]) freed
    next addressString node stage allocated =>
      exact .closes thread connection addressString node running selected stage allocated
    next => exact .idle _
  next => exact .idle _

end MainState

theorem mainStep_moves (state : MainState) (step : MainStep) :
    MainMoves state step (mainStep state step) := by
  cases pc : state.pc with
  | returned retval =>
      have ended : mainStep state step = state := by simp [mainStep, pc]
      rw [ended]
      exact .idle step
  | accepting =>
      have running : ∀ retval, state.pc ≠ .returned retval := by simp [pc]
      cases step with
      | signal =>
          rw [show mainStep state .signal = { state with completeExec := true } by
            simp [mainStep, pc]]
          exact .signals
      | accept outcome => simpa [mainStep, pc] using MainState.accept_moves pc outcome
      | visit => simpa [mainStep, pc] using MainMoves.idle MainStep.visit
      | begin thread => simpa [mainStep, pc] using MainState.begin_moves running thread
      | complete thread => simpa [mainStep, pc] using MainState.complete_moves running thread
      | close thread => simpa [mainStep, pc] using MainState.close_moves running thread
  | cleaning leaving =>
      have running : ∀ retval, state.pc ≠ .returned retval := by simp [pc]
      cases step with
      | signal =>
          rw [show mainStep state .signal = { state with completeExec := true } by
            simp [mainStep, pc]]
          exact .signals
      | accept outcome => simpa [mainStep, pc] using MainMoves.idle (MainStep.accept outcome)
      | visit => simpa [mainStep, pc] using MainState.clean_moves pc
      | begin thread => simpa [mainStep, pc] using MainState.begin_moves running thread
      | complete thread => simpa [mainStep, pc] using MainState.complete_moves running thread
      | close thread => simpa [mainStep, pc] using MainState.close_moves running thread

end Aesd
