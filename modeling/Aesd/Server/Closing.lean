import Aesd.Server.Joining

/-!
# Which descriptors are closed

`main` holds the listening socket and the device, and each thread holds the socket of its
client. `main` closes its two at the end, whether or not it has opened the device; a thread
closes its own. Three ways out leave descriptors behind or close one that was never opened: a
failing `open` returns at once, a connection without a thread is not closed, and before the
first connection `fd` is not initialised.
-/

namespace Aesd

open Parties

section Table

variable {table : Nat → Option Origin} {opened : Nat} {call : Origin}

theorem eq_some_of_open (fresh : table opened = none) (descriptor : Nat) (origin : Origin) :
    Function.update table opened (some call) descriptor = some origin ↔
      table descriptor = some origin ∨ descriptor = opened ∧ origin = call := by
  by_cases same : descriptor = opened
  · subst same
    simp [fresh, eq_comm]
  · simp [same]

theorem eq_some_of_close (closed descriptor : Nat) (origin : Origin) :
    Function.update table closed none descriptor = some origin ↔
      descriptor ≠ closed ∧ table descriptor = some origin := by
  by_cases same : descriptor = closed
  · simp [same]
  · simp [same]

/-- A `close` leaves the descriptors of other calls open. -/
theorem eq_some_of_close_other {closed : Nat} (closes : table closed = some call)
    (descriptor : Nat) {origin : Origin} (apart : origin ≠ call) :
    Function.update table closed none descriptor = some origin ↔
      table descriptor = some origin := by
  rw [eq_some_of_close]
  constructor
  · exact And.right
  · intro isOpen
    refine ⟨?_, isOpen⟩
    rintro rfl
    exact apart (Option.some.inj (isOpen.symm.trans closes))

end Table

/-- The thread has the descriptor open. -/
def Serves (connections : List Connection) (thread descriptor : Nat) : Prop :=
  ∃ connection, connections[thread]? = some connection ∧ connection.stage ≠ .returned ∧
    connection.clientFd = descriptor

theorem serves_set {connections : List Connection} {thread : Nat} {connection : Connection}
    (selected : connections[thread]? = some connection) (stage : ConnectionStage)
    (other descriptor : Nat) :
    Serves (connections.set thread { connection with stage := stage }) other descriptor ↔
      if other = thread then stage ≠ .returned ∧ connection.clientFd = descriptor
      else Serves connections other descriptor := by
  unfold Serves
  by_cases same : other = thread
  · subst same
    rw [if_pos rfl, List.getElem?_set_self (lt_of_selected selected)]
    simp
  · rw [if_neg same, List.getElem?_set_ne (Ne.symm same)]

theorem serves_join (connections : List Connection) {newcomer : Connection}
    (active : newcomer.stage ≠ .returned) (thread descriptor : Nat) :
    Serves (connections ++ [newcomer]) thread descriptor ↔
      Serves connections thread descriptor ∨
        thread = connections.length ∧ newcomer.clientFd = descriptor := by
  constructor
  · rintro ⟨connection, selected, serves⟩
    rcases selected_join selected with earlier | ⟨rfl, rfl⟩
    · exact .inl ⟨connection, earlier, serves⟩
    · exact .inr ⟨rfl, serves.2⟩
  · rintro (⟨connection, selected, serves⟩ | ⟨rfl, same⟩)
    · exact ⟨connection, by rw [List.getElem?_append_left (lt_of_selected selected), selected],
        serves⟩
    · exact ⟨newcomer, by simp, active, same⟩

/-- The open descriptors: the socket, the device once it is created, those of the threads, and
the one of a connection that has no thread. -/
structure Held (state : MainState) (pending : Option Nat) : Prop where
  socket : ∀ descriptor, state.descriptors descriptor = some .socket ↔ descriptor = state.sfd
  device : ∀ descriptor : Nat, state.descriptors descriptor = some .device ↔
    state.isFdCreated = true ∧ state.fd = descriptor
  opened : state.isFdCreated = true → ∃ descriptor : Nat, state.fd = descriptor
  client : ∀ descriptor thread, state.descriptors descriptor = some (.client thread) ↔
    Serves state.connections thread descriptor ∨
      thread = state.connections.length ∧ pending = some descriptor

namespace Held

variable {state : MainState} {pending : Option Nat}

theorem init (sfd : Nat) (fd : Int) : Held (mainInit sfd fd) none where
  socket descriptor := by
    rw [mainInit, eq_some_of_open rfl]
    simp
  device descriptor := by
    rw [mainInit, eq_some_of_open rfl]
    simp
  opened created := by cases created
  client descriptor thread := by
    rw [mainInit, eq_some_of_open rfl]
    simp [Serves]

/-- What matters of a state. -/
theorem congr (held : Held state pending) {other : MainState}
    (sfd : other.sfd = state.sfd) (created : other.isFdCreated = state.isFdCreated)
    (fd : other.fd = state.fd) (descriptors : other.descriptors = state.descriptors)
    (connections : other.connections = state.connections) : Held other pending := by
  obtain ⟨socket, device, opened, client⟩ := held
  constructor
  all_goals simp only [sfd, created, fd, descriptors, connections]
  all_goals assumption

/-- A connection is accepted, and the device opened for the first one. -/
theorem accepts (held : Held state none) {client : SockaddrIn} {clientFd : Nat}
    {ready : MainState} (accepts : Accepts state client clientFd ready) :
    Held ready (some clientFd) := by
  have client_iff : ∀ descriptor thread,
      state.descriptors descriptor = some (.client thread) ∨
          descriptor = clientFd ∧ Origin.client thread = .client state.connections.length ↔
        Serves state.connections thread descriptor ∨
          thread = state.connections.length ∧ some clientFd = some descriptor := by
    intro descriptor thread
    rw [held.client]
    simp [eq_comm, and_comm]
  cases accepts with
  | later created fresh =>
      constructor
      case opened => exact held.opened
      case socket =>
        intro descriptor
        rw [MainState.acceptClient, eq_some_of_open fresh, held.socket]
        simp
      case device =>
        intro descriptor
        rw [MainState.acceptClient, eq_some_of_open fresh, held.device]
        simp
      case client =>
        intro descriptor thread
        rw [MainState.acceptClient, eq_some_of_open fresh]
        exact client_iff descriptor thread
  | first fd notCreated fresh freshDevice apart =>
      have unopened : Function.update state.descriptors clientFd
          (some (.client state.connections.length)) fd = none := by
        rw [Function.update_of_ne apart, freshDevice]
      constructor
      case opened => exact fun _ => ⟨fd, rfl⟩
      case socket =>
        intro descriptor
        rw [MainState.openDevice, MainState.acceptClient, eq_some_of_open unopened,
          eq_some_of_open fresh, held.socket]
        simp
      case device =>
        intro descriptor
        have cast : (fd : Int) = descriptor ↔ descriptor = fd := by omega
        rw [MainState.openDevice, MainState.acceptClient, eq_some_of_open unopened,
          eq_some_of_open fresh, held.device]
        simp [notCreated, cast]
      case client =>
        intro descriptor thread
        rw [MainState.openDevice, MainState.acceptClient, eq_some_of_open unopened,
          eq_some_of_open fresh]
        simpa using client_iff descriptor thread

/-- The connection gets a thread. -/
theorem insertNode {clientFd : Nat} (held : Held state (some clientFd)) (client : SockaddrIn)
    (address : Nat) : Held (state.insertNode client clientFd address) none where
  socket := held.socket
  device := held.device
  opened := held.opened
  client descriptor thread := by
    rw [MainState.insertNode, serves_join _ (by simp), held.client]
    simp

/-- A thread goes on with its descriptor. -/
theorem setStage (held : Held state pending) {thread : Nat} {connection : Connection}
    (selected : state.connections[thread]? = some connection)
    (active : connection.stage ≠ .returned) (stage : ConnectionStage)
    (stillActive : stage ≠ .returned) :
    Held (state.setStage thread connection stage) pending where
  socket := held.socket
  device := held.device
  opened := held.opened
  client descriptor other := by
    have before := held.client descriptor other
    rw [MainState.setStage, serves_set selected, List.length_set]
    by_cases same : other = thread
    · subst same
      rw [if_pos rfl]
      have own : Serves state.connections other descriptor ↔ connection.clientFd = descriptor := by
        constructor
        · rintro ⟨found, isFound, -, fd⟩
          obtain rfl := Option.some.inj (selected.symm.trans isFound)
          exact fd
        · exact fun fd => ⟨connection, selected, active, fd⟩
      simpa [own, stillActive] using before
    · rw [if_neg same]
      exact before

end Held

/-- A descriptor that is open is closed. -/
theorem MainState.closeFd_of_open {state : MainState} {descriptor : Nat} {origin : Origin}
    (isOpen : state.descriptors descriptor = some origin) :
    state.closeFd descriptor =
      { state with descriptors := Function.update state.descriptors descriptor none } := by
  simp [MainState.closeFd, isOpen]

/-- A descriptor that is not open is misclosed. -/
theorem MainState.misclosed_closeFd {state : MainState} {descriptor : Int}
    (notOpen : ∀ number : Nat, descriptor = number → state.descriptors number = none) :
    (state.closeFd descriptor).misclosed = state.misclosed ++ [descriptor] := by
  have fails : ¬(0 ≤ descriptor ∧ (state.descriptors descriptor.toNat).isSome) := by
    rintro ⟨nonnegative, isOpen⟩
    rw [notOpen descriptor.toNat (Int.toNat_of_nonneg nonnegative).symm] at isOpen
    cases isOpen
  rw [MainState.closeFd, if_neg fails]

namespace Held

variable {state : MainState} {pending : Option Nat}

/-- A thread closes its descriptor, and returns. -/
theorem close (held : Held state pending) {thread : Nat} {connection : Connection}
    (selected : state.connections[thread]? = some connection)
    (active : connection.stage ≠ .returned) :
    state.descriptors connection.clientFd = some (.client thread) ∧
      Held { state.setStage thread connection .returned with
        descriptors := Function.update state.descriptors connection.clientFd none } pending := by
  have own : state.descriptors connection.clientFd = some (.client thread) :=
    (held.client _ _).mpr (.inl ⟨connection, selected, active, rfl⟩)
  refine ⟨own, ?_⟩
  constructor
  case socket =>
    intro descriptor
    exact (eq_some_of_close_other own descriptor (by simp)).trans (held.socket descriptor)
  case device =>
    intro descriptor
    exact (eq_some_of_close_other own descriptor (by simp)).trans (held.device descriptor)
  case opened => exact held.opened
  case client =>
    intro descriptor other
    simp only [MainState.setStage]
    rw [serves_set selected, List.length_set]
    by_cases same : other = thread
    · subst same
      have inside := lt_of_selected selected
      rw [if_pos rfl, eq_some_of_close]
      apply iff_of_false
      · rintro ⟨apart, isOpen⟩
        rcases (held.client _ _).mp isOpen with ⟨found, isFound, _, fd⟩ | ⟨last, -⟩
        · obtain rfl := Option.some.inj (selected.symm.trans isFound)
          exact apart fd.symm
        · exact Nat.lt_irrefl _ (last ▸ inside)
      · rintro (⟨notReturned, -⟩ | ⟨last, -⟩)
        · exact notReturned rfl
        · exact Nat.lt_irrefl _ (last ▸ inside)
    · rw [if_neg same, ← held.client]
      exact eq_some_of_close_other own descriptor fun equal => same (Origin.client.inj equal)

/-- What is open once all threads are gone. -/
theorem eq_of_open (held : Held state pending)
    (gone : ∀ thread descriptor, ¬Serves state.connections thread descriptor) {descriptor : Nat}
    {origin : Origin} (isOpen : state.descriptors descriptor = some origin) :
    descriptor = state.sfd ∨ (state.isFdCreated = true ∧ state.fd = descriptor) ∨
      pending = some descriptor := by
  cases origin with
  | socket => exact .inl ((held.socket descriptor).mp isOpen)
  | device => exact .inr (.inl ((held.device descriptor).mp isOpen))
  | client thread =>
      rcases (held.client descriptor thread).mp isOpen with serves | ⟨-, isPending⟩
      · exact absurd serves (gone thread descriptor)
      · exact .inr (.inr isPending)

/-- The end of `main` with the device open: what stays open is a connection without a
thread. -/
theorem finish_created (held : Held state pending)
    (gone : ∀ thread descriptor, ¬Serves state.connections thread descriptor)
    (created : state.isFdCreated = true) :
    state.finish.misclosed = state.misclosed ∧
      ((∀ descriptor, state.finish.descriptors descriptor = none) ↔ pending = none) := by
  obtain ⟨fd, isFd⟩ := held.opened created
  have socketOpen := (held.socket state.sfd).mpr rfl
  have deviceOpen := (held.device fd).mpr ⟨created, isFd⟩
  have stillOpen : Function.update state.descriptors state.sfd none fd = some .device :=
    (eq_some_of_close_other socketOpen fd (by simp)).mpr deviceOpen
  have finish : state.finish = { state with
      descriptors := Function.update (Function.update state.descriptors state.sfd none) fd none
      pc := .returned 0 } := by
    rw [MainState.finish, MainState.closeFd_of_open socketOpen, isFd,
      MainState.closeFd_of_open stillOpen]
  rw [finish]
  refine ⟨rfl, ?_, ?_⟩
  · intro closed
    cases isPending : pending with
    | none => rfl
    | some descriptor =>
        have isOpen := (held.client descriptor _).mpr (.inr ⟨rfl, isPending⟩)
        have laterOpen := (eq_some_of_close_other socketOpen descriptor (by simp)).mpr isOpen
        have stays := (eq_some_of_close_other stillOpen descriptor (by simp)).mpr laterOpen
        cases (closed descriptor).symm.trans stays
  · intro none descriptor
    rw [Option.eq_none_iff_forall_ne_some]
    intro origin isOpen
    obtain ⟨notDevice, laterOpen⟩ := (eq_some_of_close _ _ _).mp isOpen
    obtain ⟨notSocket, wasOpen⟩ := (eq_some_of_close _ _ _).mp laterOpen
    rcases held.eq_of_open gone wasOpen with isSocket | ⟨-, isDevice⟩ | isPending
    · exact notSocket isSocket
    · exact notDevice (Int.ofNat.inj (isDevice.symm.trans isFd))
    · cases none.symm.trans isPending

/-- The end of `main` without the device: `fd` is no open descriptor. -/
theorem finish_notCreated (held : Held state none)
    (gone : ∀ thread descriptor, ¬Serves state.connections thread descriptor)
    (notCreated : state.isFdCreated = false) :
    state.finish.misclosed = state.misclosed ++ [state.fd] := by
  have socketOpen := (held.socket state.sfd).mpr rfl
  rw [MainState.finish, MainState.closeFd_of_open socketOpen]
  refine MainState.misclosed_closeFd fun number _ => ?_
  rw [Option.eq_none_iff_forall_ne_some]
  intro origin isOpen
  obtain ⟨notSocket, wasOpen⟩ := (eq_some_of_close _ _ _).mp isOpen
  rcases held.eq_of_open gone wasOpen with isSocket | ⟨created, -⟩ | isPending
  · exact notSocket isSocket
  · cases notCreated.symm.trans created
  · cases isPending

end Held

/-! ## Every run -/

/-- Every descriptor passed to `close` so far was open, and once `main` has returned none is. -/
def ClosesAll (state : MainState) : Prop :=
  state.misclosed = [] ∧
    ∀ retval, state.pc = .returned retval → ∀ descriptor, state.descriptors descriptor = none

/-- `main` has left the loop with a connection that has no thread. -/
def MainPc.Abandoned (pc : MainPc) : Prop :=
  pc = .cleaning (some .mallocFailure) ∨ pc = .cleaning (some .createFailure)

/-- The step is no failing `open`, and `main` returns only if it has opened the device, and left
the loop on a signal or a failing `accept`. -/
def ReturnsInOrder (state : MainState) : MainStep → Prop
  | .accept (.connected client clientFd none node created) =>
      ¬(state.pc = .accepting ∧ state.completeExec = false ∧ state.isFdCreated = false ∧
        state.Grants (.connected client clientFd none node created))
  | .visit => ∀ leaving, state.pc = .cleaning (some leaving) → state.walk.current = none →
      state.isFdCreated = true ∧ (leaving = .signal ∨ leaving = .acceptFailure)
  | _ => True

/-- The descriptors while `main` runs. -/
def HoldsDescriptors (state : MainState) : Prop :=
  (∀ retval, state.pc ≠ .returned retval) → ∃ pending, Held state pending ∧
    (pending ≠ none ↔ state.pc.Abandoned) ∧ (pending ≠ none → state.isFdCreated = true)

/-- No connection is without a thread. -/
theorem Held.holds {state : MainState} (held : Held state none) (serving : ¬state.pc.Abandoned) :
    HoldsDescriptors state := by
  intro _
  exact ⟨none, held, iff_of_false (fun isPending => isPending rfl) serving,
    fun isPending => absurd rfl isPending⟩

theorem holdsDescriptors_init (sfd : Nat) (fd : Int) : HoldsDescriptors (mainInit sfd fd) :=
  (Held.init sfd fd).holds (by simp [mainInit, MainPc.Abandoned])

/-- Unless `main` has left the loop with it, no connection is without a thread. -/
theorem HoldsDescriptors.held {state : MainState} (holds : HoldsDescriptors state)
    (running : ∀ retval, state.pc ≠ .returned retval) (serving : ¬state.pc.Abandoned) :
    Held state none := by
  obtain ⟨pending, held, abandoned, -⟩ := holds running
  obtain rfl : pending = none := by
    by_contra isPending
    exact serving (abandoned.mp isPending)
  exact held

theorem HoldsDescriptors.of_accepting {state : MainState} (holds : HoldsDescriptors state)
    (accepting : state.pc = .accepting) : Held state none :=
  holds.held (by simp [accepting]) (by simp [accepting, MainPc.Abandoned])

/-- A node holds the descriptor of its connection. -/
theorem Bookkept.clientFd_eq {state : MainState} {kept rest : List Nat} {done : List (Nat × Nat)}
    (bookkept : Bookkept state kept rest done) {thread : Nat} {connection : Connection}
    (selected : state.connections[thread]? = some connection)
    (active : connection.stage ≠ .returned) {node : LinkedList.Cell ThreadData}
    (allocated : state.walk.heap connection.node = some node) :
    node.data.clientFd = connection.clientFd := by
  obtain ⟨member, data, contents, owner⟩ := bookkept.exists_node selected active
  obtain rfl : data = node.data :=
    Option.some.inj (contents.symm.trans (LinkedList.Heap.contents_of_cell allocated))
  obtain ⟨found, isFound, same⟩ := bookkept.holds _ member _ contents
  rw [owner] at isFound
  obtain rfl := Option.some.inj (selected.symm.trans isFound)
  exact same.symm

/-- The end of a thread. -/
theorem Held.closes {state : MainState} {kept rest : List Nat} {done : List (Nat × Nat)}
    (bookkept : Bookkept state kept rest done) {pending : Option Nat} (held : Held state pending)
    {thread : Nat} {connection : Connection}
    (selected : state.connections[thread]? = some connection)
    (active : connection.stage ≠ .returned) {node : LinkedList.Cell ThreadData}
    (allocated : state.walk.heap connection.node = some node) :
    (state.setStage thread connection .returned).closeFd node.data.clientFd =
        { state.setStage thread connection .returned with
          descriptors := Function.update state.descriptors connection.clientFd none } ∧
      Held ((state.setStage thread connection .returned).closeFd node.data.clientFd) pending := by
  obtain ⟨isOpen, after⟩ := held.close selected active
  have result : (state.setStage thread connection .returned).closeFd node.data.clientFd =
      { state.setStage thread connection .returned with
        descriptors := Function.update state.descriptors connection.clientFd none } := by
    rw [bookkept.clientFd_eq selected active allocated]
    exact MainState.closeFd_of_open isOpen
  exact ⟨result, result ▸ after⟩

theorem HoldsDescriptors.step {state : MainState} {kept rest : List Nat}
    {done : List (Nat × Nat)} (holds : HoldsDescriptors state)
    (bookkept : Bookkept state kept rest done) (step : MainStep) :
    HoldsDescriptors (mainStep state step) := by
  have moves := mainStep_moves state step
  generalize mainStep state step = after at moves
  cases moves with
  | idle => exact holds
  | signals | visits | visitFaults | threadFaults =>
      intro running
      obtain ⟨pending, held, rest⟩ := holds running
      exact ⟨pending, held.congr rfl rfl rfl rfl rfl, rest⟩
  | polls outcome accepting =>
      have held := holds.of_accepting accepting
      refine Held.holds (held.congr rfl rfl rfl rfl rfl) ?_
      simp [MainState.startClean, MainPc.Abandoned]
  | leaves outcome leaving accepting reason =>
      have held := holds.of_accepting accepting
      refine Held.holds (held.congr rfl rfl rfl rfl rfl) ?_
      rcases reason with rfl | rfl <;> simp [MainState.startClean, MainPc.Abandoned]
  | openFails => exact fun running => absurd rfl (running (-1))
  | abandons outcome client clientFd ready leaving accepting accepts reason =>
      have held := holds.of_accepting accepting
      obtain ⟨-, -, -, created⟩ := bookkept.accepts accepts
      refine fun _ => ⟨some clientFd, (held.accepts accepts).congr rfl rfl rfl rfl rfl,
        iff_of_true (by simp) ?_, fun _ => created⟩
      rcases reason with rfl | rfl
      · exact .inl rfl
      · exact .inr rfl
  | starts outcome client clientFd address ready accepting accepts granted =>
      have held := (holds.of_accepting accepting).accepts accepts
      refine Held.holds ((held.insertNode client address).congr rfl rfl rfl rfl rfl) ?_
      simp [MainState.startClean, MainPc.Abandoned]
  | resumes cleaning =>
      have held := holds.held (by simp [cleaning]) (by simp [cleaning, MainPc.Abandoned])
      refine Held.holds (held.congr rfl rfl rfl rfl rfl) ?_
      simp [MainPc.Abandoned]
  | finishes => exact fun running => absurd rfl (running 0)
  | begins thread connection address running selected stage points =>
      obtain ⟨pending, held, rest⟩ := holds running
      have next := held.setStage selected (by simp [stage]) (.serving address.sinAddr) (by simp)
      exact fun _ => ⟨pending, next.congr rfl rfl rfl rfl rfl, rest⟩
  | completes thread connection addressString node running selected stage allocated =>
      obtain ⟨pending, held, rest⟩ := holds running
      have next := held.setStage selected (by simp [stage]) (.completed addressString) (by simp)
      exact fun _ => ⟨pending, next.congr rfl rfl rfl rfl rfl, rest⟩
  | closes thread connection addressString node running selected stage allocated =>
      obtain ⟨pending, held, abandoned, created⟩ := holds running
      obtain ⟨-, next⟩ := held.closes bookkept selected (by simp [stage]) allocated
      refine fun _ => ⟨pending, next.congr rfl rfl rfl rfl rfl, ?_, ?_⟩
      · simpa [MainState.setStage] using abandoned
      · simpa [MainState.setStage] using created

/-- Before the return of `main` no thread has its descriptor any more. -/
theorem Bookkept.not_serves {state : MainState} {kept rest : List Nat} {done : List (Nat × Nat)}
    (bookkept : Bookkept state kept rest done) {leaving : Leaving}
    (cleaning : state.pc = .cleaning (some leaving)) (ended : state.walk.current = none)
    (thread descriptor : Nat) : ¬Serves state.connections thread descriptor := by
  have empty := (bookkept.finish cleaning ended).emptied 0 rfl
  rintro ⟨connection, selected, active, -⟩
  exact active ((bookkept.joinsAll empty).returned connection (List.mem_of_getElem? selected))

section Steps

variable {state : MainState} {kept rest : List Nat} {done : List (Nat × Nat)}

theorem not_abandoned_iff {leaving : Leaving} (cleaning : state.pc = .cleaning (some leaving)) :
    ¬state.pc.Abandoned ↔ leaving = .signal ∨ leaving = .acceptFailure := by
  rw [cleaning, MainPc.Abandoned]
  cases leaving <;> simp

theorem closesAll_step (bookkept : Bookkept state kept rest done)
    (holds : HoldsDescriptors state) (closes : ClosesAll state) {step : MainStep}
    (inOrder : ReturnsInOrder state step) : ClosesAll (mainStep state step) := by
  have moves := mainStep_moves state step
  generalize mainStep state step = after at moves
  cases moves with
  | idle | signals | visits | visitFaults | threadFaults => exact closes
  | polls | leaves | resumes => exact ⟨closes.1, fun _ returned => by cases returned⟩
  | openFails client clientFd node created accepting running grants notCreated =>
      exact absurd ⟨accepting, running, notCreated, grants⟩ inOrder
  | abandons outcome client clientFd ready leaving accepting accepts reason =>
      cases accepts <;> exact ⟨closes.1, fun _ returned => by cases returned⟩
  | starts outcome client clientFd address ready accepting accepts granted =>
      cases accepts <;> exact ⟨closes.1, fun _ returned => by cases returned⟩
  | finishes leaving cleaning ended =>
      obtain ⟨created, reason⟩ := inOrder leaving cleaning ended
      have held := holds.held (by simp [cleaning]) ((not_abandoned_iff cleaning).mpr reason)
      obtain ⟨misclosed, closed⟩ :=
        held.finish_created (bookkept.not_serves cleaning ended) created
      exact ⟨misclosed.trans closes.1, fun _ _ => closed.mpr rfl⟩
  | begins thread connection address running =>
      exact ⟨closes.1, fun retval returned => absurd returned (running retval)⟩
  | completes thread connection addressString node running =>
      exact ⟨closes.1, fun retval returned => absurd returned (running retval)⟩
  | closes thread connection addressString node running selected stage allocated =>
      obtain ⟨pending, held, -⟩ := holds running
      obtain ⟨result, -⟩ := held.closes bookkept selected (by simp [stage]) allocated
      rw [result]
      exact ⟨closes.1, fun retval returned => absurd returned (running retval)⟩

theorem closesAll_step_iff (bookkept : Bookkept state kept rest done)
    (holds : HoldsDescriptors state) (closes : ClosesAll state) (step : MainStep) :
    ClosesAll (mainStep state step) ↔ ReturnsInOrder state step := by
  refine ⟨fun after => ?_, closesAll_step bookkept holds closes⟩
  cases step with
  | accept outcome =>
      cases outcome with
      | connected client clientFd opened node created =>
          cases opened with
          | none =>
              rintro ⟨accepting, running, notCreated, grants⟩
              have result : mainStep state
                  (.accept (.connected client clientFd none node created)) =
                    { state.acceptClient client clientFd with pc := .returned (-1) } := by
                simp [mainStep, accepting, MainState.accept, running, grants, notCreated]
              rw [result] at after
              have closed := after.2 (-1) rfl clientFd
              simp [MainState.acceptClient] at closed
          | some fd => trivial
      | again | failed => trivial
  | visit =>
      intro leaving cleaning ended
      have result : mainStep state .visit = state.finish := by
        simp [mainStep, cleaning, MainState.clean, ended]
      rw [result] at after
      have gone := bookkept.not_serves cleaning ended
      obtain ⟨pending, held, abandoned, opened⟩ := holds (by simp [cleaning])
      cases created : state.isFdCreated with
      | true =>
          have none := (held.finish_created gone created).2.mp (after.2 0 rfl)
          exact ⟨rfl, (not_abandoned_iff cleaning).mp fun left => abandoned.mpr left none⟩
      | false =>
          obtain rfl : pending = none := by
            by_contra isPending
            cases created.symm.trans (opened isPending)
          have misclosed := (held.finish_notCreated gone created).symm.trans after.1
          simp at misclosed
  | signal | begin | complete | close => trivial

end Steps

/-- In every state of a run every descriptor passed to `close` was open, and none is open once
`main` has returned, if and only if no `open` fails, and `main` returns only with the device
open and after a signal or a failing `accept`. -/
theorem closesAll_run_iff (sfd : Nat) (fd : Int) (steps : List MainStep) :
    (∀ visited, visited <+: steps → ClosesAll (mainRun sfd fd visited)) ↔
      Runs.Along mainStep ReturnsInOrder (mainInit sfd fd) steps :=
  Runs.forall_prefix_iff
    (fun state => (∃ kept rest done, Bookkept state kept rest done) ∧ HoldsDescriptors state)
    ClosesAll
    (fun _ step ⟨⟨_, _, _, bookkept⟩, holds⟩ => ⟨bookkept.step step, holds.step bookkept step⟩)
    (fun _ step ⟨⟨_, _, _, bookkept⟩, holds⟩ closes =>
      closesAll_step_iff bookkept holds closes step)
    steps ⟨⟨[], [], [], .init sfd fd⟩, holdsDescriptors_init sfd fd⟩
    ⟨rfl, fun _ returned => by cases returned⟩

/-- A signal before the first connection: `main` closes 0, which is what `fd` happens to
hold. -/
theorem not_closesAll_early_signal :
    ¬ClosesAll (mainRun 3 0 [.signal, .accept .again, .visit]) := by
  rintro ⟨misclosed, -⟩
  exact absurd misclosed (by decide)

end Aesd
