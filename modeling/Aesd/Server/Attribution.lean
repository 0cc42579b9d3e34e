import Aesd.Server.Joining

/-!
# The address that a thread logs

A node holds no address but a pointer to `test_addr`, which `accept` overwrites with each
connection. A thread that follows the pointer after the next connection logs the address of
somebody else.
-/

namespace Aesd

open Parties

/-- The thread of a message. -/
def Message.connection : Message → Nat
  | .accepted connection _ => connection
  | .closed connection _ => connection

/-- The address in a message. -/
def Message.address : Message → UInt32
  | .accepted _ address => address
  | .closed _ address => address

/-- Every message has the address of the client that its thread serves. -/
def Attributed (state : MainState) : Prop :=
  ∀ message ∈ state.messages, ∃ connection ∈ state.connections[message.connection]?,
    message.address = connection.client.sinAddr

instance (state : MainState) : Decidable (Attributed state) :=
  inferInstanceAs (Decidable (∀ message ∈ state.messages,
    ∃ connection ∈ state.connections[message.connection]?, _))

/-- If the step is the first of a thread, the last connection that `accept` has returned came
from the address of the thread's client. -/
def PointsToOwn (state : MainState) : MainStep → Prop
  | .begin thread => ∀ connection ∈ state.connections[thread]?, connection.stage = .started →
      ∀ address ∈ state.testAddr, address.sinAddr = connection.client.sinAddr
  | _ => True

/-- What a step does to the threads and the messages. -/
inductive Speaks (state : MainState) : MainStep → List Connection → List Message → Prop where
  | silent (step : MainStep) : Speaks state step state.connections state.messages
  | joins (step : MainStep) (newcomer : Connection) (stage : newcomer.stage = .started) :
      Speaks state step (state.connections ++ [newcomer]) state.messages
  | accepted (thread : Nat) (connection : Connection) (address : SockaddrIn)
      (selected : state.connections[thread]? = some connection)
      (stage : connection.stage = .started) (points : state.testAddr = some address) :
      Speaks state (.begin thread)
        (state.connections.set thread { connection with stage := .serving address.sinAddr })
        (state.messages ++ [.accepted thread address.sinAddr])
  | turns (step : MainStep) (thread : Nat) (connection : Connection) (addressString : UInt32)
      (selected : state.connections[thread]? = some connection)
      (stage : connection.stage = .serving addressString) :
      Speaks state step
        (state.connections.set thread { connection with stage := .completed addressString })
        state.messages
  | closed (step : MainStep) (thread : Nat) (connection : Connection) (addressString : UInt32)
      (selected : state.connections[thread]? = some connection)
      (stage : connection.stage = .completed addressString) :
      Speaks state step (state.connections.set thread { connection with stage := .returned })
        (state.messages ++ [.closed thread addressString])

theorem speaks_mainStep (state : MainState) (step : MainStep) :
    Speaks state step (mainStep state step).connections (mainStep state step).messages := by
  have moves := mainStep_moves state step
  generalize mainStep state step = after at moves
  cases moves with
  | idle | signals | polls | leaves | openFails | resumes | visits | visitFaults | threadFaults =>
      exact .silent _
  | finishes => simpa [MainState.finish] using Speaks.silent MainStep.visit
  | abandons outcome client clientFd ready leaving accepting accepts =>
      cases accepts <;> exact .silent _
  | starts outcome client clientFd address ready accepting accepts granted =>
      cases accepts <;> exact .joins _ ⟨address, clientFd, client, .started⟩ rfl
  | begins thread connection address running selected stage points =>
      exact .accepted thread connection address selected stage points
  | completes thread connection addressString node running selected stage allocated =>
      exact .turns _ thread connection addressString selected stage
  | closes thread connection addressString node running selected stage allocated =>
      simpa [MainState.setStage] using
        Speaks.closed (.close thread) thread connection addressString selected stage

/-- The address that a thread has kept is in a message. -/
def Connection.Logged (messages : List Message) (thread : Nat) (connection : Connection) :
    Prop :=
  match connection.stage with
  | .serving addressString | .completed addressString =>
      .accepted thread addressString ∈ messages
  | _ => True

theorem Connection.Logged.append {messages : List Message} {thread : Nat}
    {connection : Connection} (logged : connection.Logged messages thread)
    (more : List Message) : connection.Logged (messages ++ more) thread := by
  unfold Connection.Logged at logged ⊢
  cases stage : connection.stage with
  | serving addressString | completed addressString =>
      rw [stage] at logged
      exact List.mem_append_left _ logged
  | started | returned => trivial

/-- Threads keep what they have logged. -/
def Logs (state : MainState) : Prop :=
  Each (Connection.Logged state.messages) state.connections

theorem Logs.step {state : MainState} (logs : Logs state) (step : MainStep) :
    Logs (mainStep state step) := by
  have speaks := speaks_mainStep state step
  unfold Logs
  generalize (mainStep state step).connections = connections at speaks ⊢
  generalize (mainStep state step).messages = messages at speaks ⊢
  cases speaks with
  | silent => exact logs
  | joins step newcomer stage =>
      refine Each.join logs ?_
      rw [Connection.Logged, stage]
      trivial
  | accepted thread connection address selected stage points =>
      exact .set (fun number party _ earlier => (logs number party earlier).append _)
        (List.mem_append_right _ List.mem_cons_self)
  | turns step thread connection addressString selected stage =>
      have logged := logs thread connection selected
      rw [Connection.Logged, stage] at logged
      exact .set (fun number party _ earlier => logs number party earlier) logged
  | closed step thread connection addressString selected stage =>
      exact .set (fun number party _ earlier => (logs number party earlier).append _) trivial

/-- Messages keep their clients when a thread goes on. -/
theorem attributed_set {state : MainState} (attributed : Attributed state) {thread : Nat}
    {connection : Connection} (selected : state.connections[thread]? = some connection)
    (stage : ConnectionStage) :
    ∀ message ∈ state.messages,
      ∃ found ∈ (state.connections.set thread
          { connection with stage := stage })[message.connection]?,
        message.address = found.client.sinAddr := by
  intro message member
  obtain ⟨found, owner, same⟩ := attributed message member
  by_cases acts : message.connection = thread
  · rw [acts] at owner ⊢
    obtain rfl := Option.some.inj (selected.symm.trans owner)
    exact ⟨_, List.getElem?_set_self (lt_of_selected selected), same⟩
  · exact ⟨found, by rw [List.getElem?_set_ne (Ne.symm acts)]; exact owner, same⟩

/-- A thread that finds the address of its own client keeps messages and clients together. -/
theorem Attributed.step {state : MainState} (attributed : Attributed state) (logs : Logs state)
    {step : MainStep} (points : PointsToOwn state step) : Attributed (mainStep state step) := by
  have speaks := speaks_mainStep state step
  unfold Attributed
  generalize (mainStep state step).connections = connections at speaks ⊢
  generalize (mainStep state step).messages = messages at speaks ⊢
  cases speaks with
  | silent => exact attributed
  | joins step newcomer stage =>
      intro message member
      obtain ⟨found, owner, same⟩ := attributed message member
      exact ⟨found, by
        rw [List.getElem?_append_left (lt_of_selected owner)]
        exact owner, same⟩
  | accepted thread connection address selected stage isAddress =>
      intro message member
      rcases List.mem_append.mp member with earlier | new
      · exact attributed_set attributed selected _ message earlier
      · obtain rfl := List.mem_singleton.mp new
        exact ⟨_, List.getElem?_set_self (lt_of_selected selected),
          points connection selected stage address isAddress⟩
  | turns step thread connection addressString selected stage =>
      exact attributed_set attributed selected _
  | closed step thread connection addressString selected stage =>
      intro message member
      rcases List.mem_append.mp member with earlier | new
      · exact attributed_set attributed selected _ message earlier
      · obtain rfl := List.mem_singleton.mp new
        have logged := logs thread connection selected
        rw [Connection.Logged, stage] at logged
        obtain ⟨found, owner, same⟩ := attributed _ logged
        obtain rfl := Option.some.inj (selected.symm.trans owner)
        exact ⟨_, List.getElem?_set_self (lt_of_selected selected), same⟩

/-- The first message of a thread that has its node, while `main` runs. -/
theorem mainStep_begin {state : MainState} {kept rest : List Nat} {done : List (Nat × Nat)}
    (bookkept : Bookkept state kept rest done) {thread : Nat} {connection : Connection}
    (selected : state.connections[thread]? = some connection)
    (stage : connection.stage = .started) {address : SockaddrIn}
    (points : state.testAddr = some address) :
    mainStep state (.begin thread) =
      { state.setStage thread connection (.serving address.sinAddr) with
        messages := state.messages ++ [.accepted thread address.sinAddr] } := by
  have active : connection.stage ≠ .returned := by simp [stage]
  obtain ⟨-, data, contents, -⟩ := bookkept.exists_node selected active
  have begins : state.begin thread =
      { state.setStage thread connection (.serving address.sinAddr) with
        messages := state.messages ++ [.accepted thread address.sinAddr] } := by
    obtain ⟨node, allocated, -⟩ := Option.map_eq_some_iff.mp contents
    simp [MainState.begin, selected, stage, allocated, points]
  cases pc : state.pc with
  | returned retval =>
      have all := (bookkept.joinsAll (bookkept.emptied retval pc)).returned
      exact absurd (all connection (List.mem_of_getElem? selected)) active
  | accepting => simpa [mainStep, pc] using begins
  | cleaning leaving => simpa [mainStep, pc] using begins

/-- A thread that finds another client's address logs it. -/
theorem attributed_step_iff {state : MainState} {kept rest : List Nat} {done : List (Nat × Nat)}
    (bookkept : Bookkept state kept rest done) (logs : Logs state)
    (attributed : Attributed state) (step : MainStep) :
    Attributed (mainStep state step) ↔ PointsToOwn state step := by
  refine ⟨fun after => ?_, attributed.step logs⟩
  cases step with
  | begin thread =>
      intro connection selected stage address points
      rw [mainStep_begin bookkept selected stage points] at after
      obtain ⟨found, owner, same⟩ := after (.accepted thread address.sinAddr) (by simp)
      rw [MainState.setStage, Message.connection,
        List.getElem?_set_self (lt_of_selected selected)] at owner
      obtain rfl := Option.some.inj owner
      exact same
  | signal | accept | visit | complete | close => trivial

/-- In every state of a run the messages have the addresses of the clients, if and only if at
the first message of each thread the last connection came from the address of its client. -/
theorem attributed_run_iff (sfd : Nat) (fd : Int) (steps : List MainStep) :
    (∀ visited, visited <+: steps → Attributed (mainRun sfd fd visited)) ↔
      Runs.Along mainStep PointsToOwn (mainInit sfd fd) steps :=
  Runs.forall_prefix_iff
    (fun state => (∃ kept rest done, Bookkept state kept rest done) ∧ Logs state) Attributed
    (fun _ step ⟨⟨_, _, _, bookkept⟩, logs⟩ => ⟨bookkept.step step, logs.step step⟩)
    (fun _ step ⟨⟨_, _, _, bookkept⟩, logs⟩ attributed =>
      attributed_step_iff bookkept logs attributed step)
    steps ⟨⟨[], [], [], .init sfd fd⟩, Each.nil⟩ fun _ member => by cases member

/-- Two connections before the first thread has begun: it logs the second client. -/
theorem not_attributed_second_client :
    ¬Attributed (mainRun 3 0 [.accept (.connected ⟨1, 1⟩ 4 (some 5) (some 16) true), .visit,
      .visit, .accept (.connected ⟨2, 2⟩ 6 none (some 32) true), .begin 0]) := by
  decide

end Aesd
