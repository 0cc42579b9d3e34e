import Aesd.Server.Joining

/-!
# The server ends

After a signal `main` has a bounded number of steps left, whatever the order in which it and the
threads take them. It waits for nobody but threads, and those can go on, except in the calls of
`recv` and `send` with which they serve their clients: a client that neither sends nor reads keeps
them there, and `main` in `pthread_join`.
-/

namespace Aesd

open LinkedList Parties

/-! ## What is left to do -/

/-- The steps a thread has left. -/
def ConnectionStage.stepsLeft : ConnectionStage → Nat
  | .started => 3
  | .serving _ => 2
  | .completed _ => 1
  | .returned => 0

/-- The steps `main` has left if it waits for nobody, with this number of nodes on the list and
before `ll_clean`: it ends a pass of `ll_clean`, and starts the last one. -/
def MainPc.stepsLeft (nodes before : Nat) : MainPc → Nat
  | .accepting => nodes + 2
  | .cleaning none => before + nodes + 3
  | .cleaning (some _) => before + 1
  | .returned _ => 0

/-- The steps the server has left. -/
def MainState.stepsLeft (state : MainState) (kept rest : List Nat) : Nat :=
  state.pc.stepsLeft (kept ++ rest).length rest.length +
    (state.connections.map fun connection => connection.stage.stepsLeft).sum

/-- The signal has come, and there is an address for every thread. -/
structure MainState.Signalled (state : MainState) : Prop where
  signalled : state.completeExec = true
  addressed : state.connections ≠ [] → state.testAddr ≠ none
  ended : ∀ retval, state.pc = .returned retval → retval = 0

/-- The step ends the calls of `recv` and `send` of a thread, which wait for its client. -/
def MainStep.ServesClient : MainStep → Prop
  | .complete _ => True
  | _ => False

/-- A thread whose flag is set has its client behind it. -/
def MainState.Flagged (state : MainState) : Prop :=
  ∀ node data, state.walk.heap.contents node = some data → data.completeFlag = true →
    ∃ connection, state.connections[data.threadId]? = some connection ∧
      connection.stage.stepsLeft ≤ 1

/-- The last `ll_clean` waits for a thread that serves its client. -/
def MainState.WaitsForClient (state : MainState) : Prop :=
  ∃ leaving thread connection addressString,
    state.WaitsFor (some leaving) thread connection ∧ connection.stage = .serving addressString

/-- The server is on its way out, with so many steps left. -/
def MainState.Ends (state : MainState) (count : Nat) : Prop :=
  ∃ kept rest done, Bookkept state kept rest done ∧ state.Signalled ∧
    count = state.stepsLeft kept rest

namespace Bookkept

variable {state : MainState} {kept rest : List Nat} {done : List (Nat × Nat)}

/-- A thread that goes on has fewer steps left. -/
theorem turn_nearer {thread : Nat} {connection : Connection}
    (selected : state.connections[thread]? = some connection) {stage : ConnectionStage}
    (fewer : stage.stepsLeft < connection.stage.stepsLeft) {other : MainState}
    (pc : other.pc = state.pc)
    (connections : other.connections = (state.setStage thread connection stage).connections) :
    other.stepsLeft kept rest < state.stepsLeft kept rest := by
  have lighter := sum_set_lt (fun connection => connection.stage.stepsLeft) selected
    (show ({ connection with stage } : Connection).stage.stepsLeft <
      connection.stage.stepsLeft from fewer)
  unfold MainState.stepsLeft
  rw [pc, connections]
  exact Nat.add_lt_add_left lighter _

/-- Five steps for each thread and three more are enough. -/
theorem stepsLeft_le (bookkept : Bookkept state kept rest done) :
    state.stepsLeft kept rest ≤ 5 * state.connections.length + 3 := by
  have nodes := bookkept.conserved.length_eq
  rw [List.length_append, listed, List.length_map, MainState.created, List.length_mapIdx] at nodes
  have threads := sum_le (fun connection : Connection => connection.stage.stepsLeft) 3 (by
    intro connection
    cases connection.stage
    all_goals simp [ConnectionStage.stepsLeft]) state.connections
  have main : state.pc.stepsLeft (kept ++ rest).length rest.length ≤
      2 * (kept ++ rest).length + 3 := by
    have before : rest.length ≤ (kept ++ rest).length := by simp
    unfold MainPc.stepsLeft
    split
    all_goals omega
  unfold MainState.stepsLeft
  omega

/-- No thread that has not returned has lost its node. -/
theorem not_freed (bookkept : Bookkept state kept rest done) {thread : Nat}
    {connection : Connection} (selected : state.connections[thread]? = some connection)
    (active : connection.stage ≠ .returned) : state.walk.heap connection.node ≠ none := by
  intro freed
  obtain ⟨-, data, contents, -⟩ := bookkept.exists_node selected active
  cases ((Heap.contents_eq_none_iff _ _).mpr freed).symm.trans contents

end Bookkept

namespace MainState

variable {state : MainState} {count : Nat}

@[simp] theorem closeFd_completeExec (state : MainState) (descriptor : Int) :
    (state.closeFd descriptor).completeExec = state.completeExec := by
  unfold closeFd
  split <;> rfl

@[simp] theorem closeFd_testAddr (state : MainState) (descriptor : Int) :
    (state.closeFd descriptor).testAddr = state.testAddr := by
  unfold closeFd
  split <;> rfl

/-- A second signal does nothing. -/
theorem mainStep_signal (signalled : state.completeExec = true) :
    mainStep state .signal = state := by
  have same : { state with completeExec := true } = state := by
    cases state
    cases signalled
    rfl
  cases pc : state.pc with
  | accepting =>
      rw [pc] at same
      simp only [mainStep, pc]
      exact same
  | cleaning leaving =>
      rw [pc] at same
      simp only [mainStep, pc]
      exact same
  | returned retval => simp only [mainStep, pc]

theorem mainStep_begin (running : ∀ retval, state.pc ≠ .returned retval) (thread : Nat) :
    mainStep state (.begin thread) = state.begin thread := by
  cases pc : state.pc with
  | returned retval => exact absurd pc (running retval)
  | accepting | cleaning => simp only [mainStep, pc]

theorem mainStep_close (running : ∀ retval, state.pc ≠ .returned retval) (thread : Nat) :
    mainStep state (.close thread) = state.close thread := by
  cases pc : state.pc with
  | returned retval => exact absurd pc (running retval)
  | accepting | cleaning => simp only [mainStep, pc]

/-- After the signal `main` starts its last `ll_clean`. -/
theorem mainStep_accept_signalled (signalled : state.completeExec = true)
    (accepting : state.pc = .accepting) (outcome : AcceptOutcome) :
    mainStep state (.accept outcome) = state.startClean (some .signal) := by
  simp [mainStep, accepting, accept, signalled]

namespace Flagged

/-- Only the last `ll_clean` waits for a thread that serves its client. -/
theorem leaving (flagged : state.Flagged) {leaving : Option Leaving} {thread : Nat}
    {connection : Connection} (waits : state.WaitsFor leaving thread connection)
    {addressString : UInt32} (serving : connection.stage = .serving addressString) :
    ∃ reason, leaving = some reason := by
  obtain ⟨-, selected, -, temp, node, -, allocated, rfl, joins⟩ := waits
  cases leaving with
  | some reason => exact ⟨reason, rfl⟩
  | none =>
      obtain ⟨owner, isOwner, past⟩ := flagged temp node.data (Heap.contents_of_cell allocated)
        (by simpa using joins)
      obtain rfl := Option.some.inj (selected.symm.trans isOwner)
      simp [serving, ConnectionStage.stepsLeft] at past

/-- A thread goes on that has not set its flag, or has it behind it. -/
theorem setStage (flagged : state.Flagged) {thread : Nat} {connection : Connection}
    (selected : state.connections[thread]? = some connection) {stage : ConnectionStage}
    (past : connection.stage.stepsLeft ≤ 1 → stage.stepsLeft ≤ 1) :
    (state.setStage thread connection stage).Flagged := by
  intro node data contents flag
  obtain ⟨owner, isOwner, ownerPast⟩ := flagged node data contents flag
  by_cases acts : data.threadId = thread
  case pos =>
    obtain rfl := Option.some.inj (selected.symm.trans (acts ▸ isOwner))
    refine ⟨{ connection with stage }, ?_, past ownerPast⟩
    rw [acts]
    exact List.getElem?_set_self (lt_of_selected selected)
  case neg =>
    refine ⟨owner, ?_, ownerPast⟩
    rw [MainState.setStage, List.getElem?_set_ne (Ne.symm acts)]
    exact isOwner

theorem step (flagged : state.Flagged) {kept rest : List Nat} {done : List (Nat × Nat)}
    (bookkept : Bookkept state kept rest done) (step : MainStep) :
    (mainStep state step).Flagged := by
  have how := mainStep_moves state step
  generalize mainStep state step = after at how
  cases how with
  | idle | signals | polls | leaves | openFails | resumes | visitFaults | threadFaults =>
      exact flagged
  | finishes => simpa [Flagged, finish] using flagged
  | abandons outcome client clientFd ready leaving accepting accepts =>
      cases accepts with
      | later | first => exact flagged
  | starts outcome client clientFd address ready accepting accepts granted =>
      have others : ready.Flagged ∧ ready.connections = state.connections := by
        cases accepts with
        | later | first => exact ⟨flagged, rfl⟩
      intro node data contents flag
      rw [startClean, insertNode, Heap.contents_store, Function.update_apply] at contents
      split at contents
      next =>
        obtain rfl := Option.some.inj contents
        cases flag
      next =>
        obtain ⟨owner, isOwner, past⟩ := others.1 node data contents flag
        exact ⟨owner, (List.getElem?_append_left (lt_of_selected isOwner)).trans isOwner, past⟩
  | visits leaving temp node next cleaning here allocated joinable visited =>
      obtain ⟨-, -, -, -, -, -, unchanged⟩ :=
        bookkept.visit_nearer cleaning here allocated joinable visited
      exact fun other data contents flag => flagged other data (unchanged other data contents) flag
  | begins thread connection address running selected stage =>
      exact flagged.setStage selected (by simp [stage, ConnectionStage.stepsLeft])
  | completes thread connection addressString node running selected stage allocated =>
      have others : (state.setStage thread connection (.completed addressString)).Flagged :=
        flagged.setStage selected fun _ => le_rfl
      obtain ⟨-, own, isOwn, sameThread⟩ := bookkept.exists_node selected (by simp [stage])
      obtain rfl := Option.some.inj ((Heap.contents_of_cell allocated).symm.trans isOwn)
      intro other data contents flag
      rw [Heap.contents_store, Function.update_apply] at contents
      split at contents
      next =>
        obtain rfl := Option.some.inj contents
        refine ⟨{ connection with stage := .completed addressString }, ?_, le_rfl⟩
        dsimp only
        rw [sameThread]
        exact List.getElem?_set_self (lt_of_selected selected)
      next => exact others other data contents flag
  | closes thread connection addressString node running selected stage =>
      have next : (state.setStage thread connection .returned).Flagged :=
        flagged.setStage selected fun _ => Nat.zero_le _
      simpa [Flagged] using next

end Flagged

/-- In every run the flags tell the truth. -/
theorem flagged_run (sfd : Nat) (fd : Int) (steps : List MainStep) :
    (mainRun sfd fd steps).Flagged := by
  have both : (∃ kept rest done, Bookkept (mainRun sfd fd steps) kept rest done) ∧
      (mainRun sfd fd steps).Flagged := by
    refine Runs.invariant_always (fun state => (∃ kept rest done, Bookkept state kept rest done) ∧
      state.Flagged) ?_ steps ⟨⟨[], [], [], .init sfd fd⟩, ?_⟩
    · rintro state step ⟨⟨kept, rest, done, bookkept⟩, flagged⟩
      exact ⟨bookkept.step step, flagged.step bookkept step⟩
    · intro node data contents
      cases contents
  exact both.2

namespace Ends

theorem visit (ends : state.Ends count) (moves : mainStep state .visit ≠ state) :
    ∃ fewer < count, (mainStep state .visit).Ends fewer := by
  obtain ⟨kept, rest, done, bookkept, signalled, rfl⟩ := ends
  have how := mainStep_moves state .visit
  generalize mainStep state .visit = after at how moves
  cases how with
  | idle => exact absurd rfl moves
  | resumes cleaning ended =>
      have next : Bookkept { state with pc := .accepting } kept rest done :=
        bookkept.elsewhere (fun _ cleaning => by cases cleaning)
          (fun _ returned => by cases returned) rfl rfl rfl rfl
      refine ⟨_, ?_, kept, rest, done, next, ⟨signalled.signalled, signalled.addressed, ?_⟩, rfl⟩
      · simp only [stepsLeft, cleaning, MainPc.stepsLeft]
        omega
      · intro retval returned
        cases returned
  | finishes leaving cleaning ended =>
      refine ⟨_, ?_, kept, rest, done, bookkept.finish cleaning ended, ⟨?_, ?_, ?_⟩, rfl⟩
      · simp [stepsLeft, cleaning, MainPc.stepsLeft, finish]
      · simpa [finish] using signalled.signalled
      · simpa [finish] using signalled.addressed
      · intro retval returned
        exact (MainPc.returned.inj returned).symm
  | visits leaving temp node next cleaning here allocated joinable visited =>
      obtain ⟨nextKept, nextRest, nextDone, nextBookkept, rfl, noMore, -⟩ :=
        bookkept.visit_nearer cleaning here allocated joinable visited
      refine ⟨_, ?_, nextKept, nextRest, nextDone, nextBookkept,
        ⟨signalled.signalled, signalled.addressed, signalled.ended⟩, rfl⟩
      cases leaving with
      | none =>
          simp only [stepsLeft, cleaning, MainPc.stepsLeft, List.length_cons]
          omega
      | some reason =>
          simp only [stepsLeft, cleaning, MainPc.stepsLeft, List.length_cons]
          omega
  | visitFaults leaving temp cleaning here faults =>
      obtain ⟨⟨node, allocated⟩, next, visited⟩ := bookkept.visit_isSome cleaning here
      rcases faults with freed | faults
      · cases freed.symm.trans allocated
      · cases faults.symm.trans visited
  | threadFaults step thread connection selected active freed =>
      exact absurd freed (bookkept.not_freed selected active)

/-- A thread has gone on. -/
theorem turned {kept rest : List Nat} {done : List (Nat × Nat)} (signalled : state.Signalled)
    {thread : Nat} {connection : Connection}
    (selected : state.connections[thread]? = some connection) (stage : ConnectionStage)
    (fewer : stage.stepsLeft < connection.stage.stepsLeft) {other : MainState}
    (next : Bookkept other kept rest done) (pc : other.pc = state.pc)
    (connections : other.connections = (state.setStage thread connection stage).connections)
    (completeExec : other.completeExec = state.completeExec)
    (testAddr : other.testAddr = state.testAddr) :
    ∃ fewer < state.stepsLeft kept rest, other.Ends fewer := by
  refine ⟨_, Bookkept.turn_nearer selected fewer pc connections, kept, rest, done, next,
    ⟨completeExec.trans signalled.signalled, ?_, ?_⟩, rfl⟩
  · intro _
    rw [testAddr]
    apply signalled.addressed
    intro empty
    simp [empty] at selected
  · rw [pc]
    exact signalled.ended

theorem turn (ends : state.Ends count) {step : MainStep} (moves : mainStep state step ≠ state)
    (isTurn : ∃ thread, step = .begin thread ∨ step = .complete thread ∨ step = .close thread) :
    ∃ fewer < count, (mainStep state step).Ends fewer := by
  obtain ⟨kept, rest, done, bookkept, signalled, rfl⟩ := ends
  have how := mainStep_moves state step
  generalize mainStep state step = after at how moves
  cases how with
  | idle => exact absurd rfl moves
  | signals | polls | leaves | openFails | abandons | starts | resumes | finishes | visits
  | visitFaults => simp at isTurn
  | threadFaults step thread connection selected active freed =>
      exact absurd freed (bookkept.not_freed selected active)
  | begins thread connection address running selected stage points =>
      have next := bookkept.setStage selected (by simp [stage]) (.serving address.sinAddr)
      exact turned signalled selected _ (by simp [stage, ConnectionStage.stepsLeft])
        (next.congr rfl rfl rfl rfl id) rfl rfl rfl rfl
  | completes thread connection addressString node running selected stage allocated =>
      have next := bookkept.setStage selected (by simp [stage]) (.completed addressString)
      exact turned signalled selected _ (by simp [stage, ConnectionStage.stepsLeft])
        (next.store allocated _ rfl rfl) rfl rfl rfl rfl
  | closes thread connection addressString node running selected stage allocated =>
      have next := bookkept.setStage selected (by simp [stage]) .returned
      exact turned signalled selected .returned (by simp [stage, ConnectionStage.stepsLeft])
        (next.congr (by simp) (by simp) (by simp) (by simp) (by simp)) (by simp [setStage])
        (by simp) (by simp [setStage]) (by simp [setStage])

/-- A step that does anything leaves fewer. -/
theorem step (ends : state.Ends count) {step : MainStep} (moves : mainStep state step ≠ state) :
    ∃ fewer < count, (mainStep state step).Ends fewer := by
  cases step with
  | signal =>
      obtain ⟨kept, rest, done, -, signalled, -⟩ := ends
      exact absurd (mainStep_signal signalled.signalled) moves
  | accept outcome =>
      cases pc : state.pc with
      | accepting =>
          obtain ⟨kept, rest, done, bookkept, signalled, rfl⟩ := ends
          rw [mainStep_accept_signalled signalled.signalled pc]
          refine ⟨_, ?_, _, _, _, bookkept.startClean (some .signal),
            ⟨signalled.signalled, signalled.addressed, ?_⟩, rfl⟩
          · simp [stepsLeft, pc, MainPc.stepsLeft, startClean]
          · intro retval returned
            cases returned
      | cleaning leaving => exact absurd (by simp [mainStep, pc]) moves
      | returned retval => exact absurd (by simp [mainStep, pc]) moves
  | visit => exact ends.visit moves
  | begin thread => exact ends.turn moves ⟨thread, .inl rfl⟩
  | complete thread => exact ends.turn moves ⟨thread, .inr (.inl rfl)⟩
  | close thread => exact ends.turn moves ⟨thread, .inr (.inr rfl)⟩

/-- Every step, also one that does nothing. -/
theorem stays (ends : state.Ends count) (step : MainStep) :
    ∃ fewer, (mainStep state step).Ends fewer := by
  by_cases moves : mainStep state step = state
  case pos =>
    rw [moves]
    exact ⟨count, ends⟩
  case neg =>
    obtain ⟨fewer, -, next⟩ := ends.step moves
    exact ⟨fewer, next⟩

/-- A thread that has not returned can go on, or serves its client. -/
theorem exists_turn {kept rest : List Nat} {done : List (Nat × Nat)}
    (bookkept : Bookkept state kept rest done) (signalled : state.Signalled)
    (running : ∀ retval, state.pc ≠ .returned retval) {thread : Nat} {connection : Connection}
    (selected : state.connections[thread]? = some connection)
    (active : connection.stage ≠ .returned) :
    mainStep state (.begin thread) ≠ state ∨ mainStep state (.close thread) ≠ state ∨
      ∃ addressString, connection.stage = .serving addressString := by
  obtain ⟨node, allocated⟩ := Option.ne_none_iff_exists'.mp (bookkept.not_freed selected active)
  have differs : ∀ (stage : ConnectionStage) (other : MainState),
      stage.stepsLeft < connection.stage.stepsLeft → other.pc = state.pc →
      other.connections = (state.setStage thread connection stage).connections →
        other ≠ state := by
    intro stage other fewer pc connections same
    have less : other.stepsLeft kept rest < state.stepsLeft kept rest :=
      Bookkept.turn_nearer selected fewer pc connections
    rw [same] at less
    exact Nat.lt_irrefl _ less
  cases stage : connection.stage with
  | started =>
      have nonempty : state.connections ≠ [] := fun empty => by simp [empty] at selected
      obtain ⟨address, points⟩ := Option.ne_none_iff_exists'.mp (signalled.addressed nonempty)
      left
      rw [mainStep_begin running]
      simp only [begin, selected, stage, allocated, points]
      exact differs _ _ (by simp [stage, ConnectionStage.stepsLeft]) rfl rfl
  | serving addressString => exact .inr (.inr ⟨addressString, rfl⟩)
  | completed addressString =>
      right; left
      rw [mainStep_close running]
      simp only [close, selected, stage, allocated]
      exact differs .returned _ (by simp [stage, ConnectionStage.stepsLeft]) (by simp [setStage])
        (by simp)
  | returned => exact absurd stage active

/-- Until `main` has returned somebody can go on, or it waits for a thread that serves its
client. -/
theorem exists_move (ends : state.Ends count) (flagged : state.Flagged)
    (running : ∀ retval, state.pc ≠ .returned retval) :
    (∃ step, ¬step.ServesClient ∧ mainStep state step ≠ state) ∨
      state.WaitsForClient := by
  obtain ⟨kept, rest, done, bookkept, signalled, -⟩ := ends
  cases pc : state.pc with
  | returned retval => exact absurd pc (running retval)
  | accepting =>
      refine .inl ⟨.accept .again, id, fun same => ?_⟩
      rw [mainStep_accept_signalled signalled.signalled pc] at same
      have samePc := congrArg MainState.pc same
      rw [pc] at samePc
      cases samePc
  | cleaning leaving =>
      rcases bookkept.visit_or_waits pc with moves | ⟨thread, connection, waits⟩
      case inl => exact .inl ⟨.visit, id, moves⟩
      case inr =>
        have active := waits.2.2.1
        rcases exists_turn bookkept signalled running waits.2.1 active with
          begins | closes | ⟨addressString, serving⟩
        · exact .inl ⟨.begin thread, id, begins⟩
        · exact .inl ⟨.close thread, id, closes⟩
        · obtain ⟨reason, rfl⟩ := flagged.leaving waits serving
          exact .inr ⟨reason, thread, connection, addressString, waits, serving⟩

end Ends

/-- Every thread has been started with an address, and `main` gives up early only before the
signal. -/
structure Started (state : MainState) : Prop where
  addressed : state.connections ≠ [] → state.testAddr ≠ none
  ended : ∀ retval, state.pc = .returned retval → retval = 0 ∨ state.completeExec = false

theorem Started.step (started : Started state) (step : MainStep) :
    Started (mainStep state step) := by
  by_cases running : ∀ retval, state.pc ≠ .returned retval
  case neg =>
    obtain ⟨retval, returned⟩ : ∃ retval, state.pc = .returned retval := by
      simpa using running
    rw [show mainStep state step = state by simp only [mainStep, returned]]
    exact started
  case pos =>
    have how := mainStep_moves state step
    generalize mainStep state step = after at how
    have setStage : ∀ {thread : Nat} {connection : Connection},
        state.connections[thread]? = some connection → state.testAddr ≠ none := by
      intro thread connection selected
      apply started.addressed
      intro empty
      simp [empty] at selected
    have accepted : ∀ {client : SockaddrIn} {clientFd : Nat} {ready : MainState},
        Accepts state client clientFd ready → ready.testAddr ≠ none := by
      intro client clientFd ready accepts
      cases accepts with
      | later => simp [acceptClient]
      | first => simp [acceptClient, openDevice]
    cases how with
    | idle => exact started
    | signals => exact ⟨started.addressed, fun retval returned => absurd returned (running retval)⟩
    | polls | leaves | resumes => exact ⟨started.addressed, fun _ returned => by cases returned⟩
    | openFails client clientFd node created accepting signalled =>
        exact ⟨fun _ => by simp [acceptClient], fun _ _ => .inr signalled⟩
    | abandons outcome client clientFd ready leaving accepting accepts =>
        have address := accepted accepts
        exact ⟨fun _ => address, fun _ returned => by cases returned⟩
    | starts outcome client clientFd node ready accepting accepts =>
        have address := accepted accepts
        exact ⟨fun _ => address, fun _ returned => by cases returned⟩
    | finishes leaving =>
        refine ⟨?_, fun _ returned => .inl (MainPc.returned.inj returned).symm⟩
        simpa [finish] using started.addressed
    | visits | visitFaults | threadFaults => exact ⟨started.addressed, started.ended⟩
    | begins thread connection address _ selected =>
        exact ⟨fun _ => setStage selected, started.ended⟩
    | completes thread connection addressString node _ selected =>
        exact ⟨fun _ => setStage selected, started.ended⟩
    | closes thread connection addressString node _ selected =>
        refine ⟨fun _ => ?_, ?_⟩
        · simpa [MainState.setStage] using setStage selected
        · simpa [MainState.setStage] using started.ended

theorem started_run (sfd : Nat) (fd : Int) (steps : List MainStep) :
    Started (mainRun sfd fd steps) :=
  Runs.invariant_always Started (fun _ step started => started.step step) steps
    ⟨fun nonempty => absurd rfl nonempty, fun _ returned => by cases returned⟩

/-- A signal in any run puts the server on its way out. -/
theorem exists_ends {sfd : Nat} {fd : Int} {steps : List MainStep}
    (signalled : (mainRun sfd fd steps).completeExec = true) :
    ∃ count ≤ 5 * (mainRun sfd fd steps).connections.length + 3,
      (mainRun sfd fd steps).Ends count := by
  obtain ⟨kept, rest, done, bookkept⟩ := exists_bookkept sfd fd steps
  have started := started_run sfd fd steps
  refine ⟨_, ?_, kept, rest, done, bookkept, ⟨signalled, started.addressed, ?_⟩, rfl⟩
  · exact bookkept.stepsLeft_le
  · intro retval returned
    rcases started.ended retval returned with zero | running
    · exact zero
    · cases signalled.symm.trans running

end MainState

/-- The server shuts down as far as its clients let it. From any state in which a signal has come
there are at most five steps for each connection and three more that do anything, whatever their
order. When nobody can go on any more, unless by an answer of a client, `main` has returned and has
joined every thread, or it waits in the last `ll_clean` for a thread that serves its client: with no
such thread it has returned. -/
theorem shutdown (sfd : Nat) (fd : Int) (steps more : List MainStep)
    (signalled : (mainRun sfd fd steps).completeExec = true) :
    (Runs.Along mainStep (fun state step => mainStep state step ≠ state)
        (mainRun sfd fd steps) more →
      more.length ≤ 5 * (mainRun sfd fd steps).connections.length + 3) ∧
    ((∀ step, ¬step.ServesClient →
        mainStep (mainRun sfd fd (steps ++ more)) step = mainRun sfd fd (steps ++ more)) →
      ((mainRun sfd fd (steps ++ more)).pc = .returned 0 ∧
        JoinsAll (mainRun sfd fd (steps ++ more))) ∨
      (mainRun sfd fd (steps ++ more)).WaitsForClient) := by
  obtain ⟨count, small, ends⟩ := MainState.exists_ends signalled
  constructor
  case left =>
    intro along
    refine le_trans ?_ small
    apply along.length_le (fun count state => state.Ends count)
    case decreases =>
      intro count state step ends moves
      exact ends.step moves
    case initially => exact ends
  case right =>
    intro stuck
    have later : ∃ count, (mainRun sfd fd (steps ++ more)).Ends count := by
      rw [mainRun, Runs.run_append]
      apply Runs.invariant_always fun state => ∃ count, MainState.Ends state count
      · intro state step left
        obtain ⟨count, ends⟩ := left
        exact ends.stays step
      · exact ⟨count, ends⟩
    obtain ⟨fewer, laterEnds⟩ := later
    by_cases running : ∀ retval, (mainRun sfd fd (steps ++ more)).pc ≠ .returned retval
    case pos =>
      rcases laterEnds.exists_move (MainState.flagged_run sfd fd _) running with
        ⟨step, isOther, moves⟩ | waits
      · exact absurd (stuck step isOther) moves
      · exact .inr waits
    case neg =>
      obtain ⟨retval, returned⟩ : ∃ retval,
          (mainRun sfd fd (steps ++ more)).pc = .returned retval := by
        simpa using running
      obtain ⟨-, -, -, -, isSignalled, -⟩ := laterEnds
      obtain rfl := isSignalled.ended retval returned
      exact .inl ⟨returned, joinsAll_of_returned returned⟩

/-- Two connections and a signal. The second client ends, the first one does not, and then does. -/
theorem shutdown_two_connections :
    let steps : List MainStep :=
      [.accept (.connected ⟨1, 1⟩ 4 (some 5) (some 16) true), .visit, .visit,
        .accept (.connected ⟨2, 2⟩ 6 none (some 32) true), .begin 1, .signal]
    let waits : List MainStep :=
      [.visit, .complete 1, .begin 0, .visit, .visit, .accept .again, .close 1, .visit]
    let ends : List MainStep := waits ++ [.complete 0, .close 0, .visit, .visit]
    ∀ more ∈ [waits, ends],
    (Runs.Along mainStep (fun state step => mainStep state step ≠ state) (mainRun 3 0 steps) more →
      more.length ≤ 5 * (mainRun 3 0 steps).connections.length + 3) ∧
    ((∀ step, ¬step.ServesClient →
        mainStep (mainRun 3 0 (steps ++ more)) step = mainRun 3 0 (steps ++ more)) →
      ((mainRun 3 0 (steps ++ more)).pc = .returned 0 ∧
        JoinsAll (mainRun 3 0 (steps ++ more))) ∨
      (mainRun 3 0 (steps ++ more)).WaitsForClient) := by
  intro steps waits ends more _
  exact shutdown 3 0 steps more rfl

/-- Nobody can go on there: at first `main` waits, and at the end it has returned. -/
example :
    let steps : List MainStep := [.accept (.connected ⟨1, 1⟩ 4 (some 5) (some 16) true), .visit,
      .visit, .accept (.connected ⟨2, 2⟩ 6 none (some 32) true), .begin 1, .signal, .visit,
      .complete 1, .begin 0, .visit, .visit, .accept .again, .close 1, .visit]
    (mainRun 3 0 steps).pc = .cleaning (some .signal) ∧
      (mainRun 3 0 (steps ++ [.visit])).walk.current = some 16 ∧
      (mainRun 3 0 (steps ++ [.complete 0, .close 0, .visit, .visit])).pc = .returned 0 := by
  decide

end Aesd
