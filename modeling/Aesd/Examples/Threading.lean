import Aesd.Library.Parties
import Aesd.Library.Runs

/-!
# Threads that obtain a mutex

`examples/threading` starts threads that sleep, obtain one mutex, hold it for another sleep
and release it. A thread on which any of this fails goes to one place that records the
failure and returns. It goes there from between the lock and the unlock too, and then the
mutex is never released: no other thread obtains it again.
-/

namespace Aesd.Threading

open Parties

/-! ## What happens to a mutex -/

/-- A thread has obtained the mutex, or has released it. -/
inductive MutexEvent where
  | obtained (thread : Nat)
  | released (thread : Nat)
  deriving DecidableEq, Repr

/-- The thread has obtained the mutex and has not released it since. The latest event is the
first of the list. -/
def Owns (thread : Nat) : List MutexEvent → Prop
  | [] => False
  | .obtained acting :: log => acting = thread ∨ Owns thread log
  | .released acting :: log => acting ≠ thread ∧ Owns thread log

instance Owns.decidable (thread : Nat) : (log : List MutexEvent) → Decidable (Owns thread log)
  | [] => .isFalse id
  | .obtained _ :: log =>
      haveI := Owns.decidable thread log
      inferInstanceAs (Decidable (_ ∨ _))
  | .released _ :: log =>
      haveI := Owns.decidable thread log
      inferInstanceAs (Decidable (_ ∧ _))

/-- The thread of an event. -/
def MutexEvent.thread : MutexEvent → Nat
  | .obtained thread => thread
  | .released thread => thread

/-- Who owns the mutex does not depend on what other threads do. -/
theorem owns_cons_of_ne {thread : Nat} {event : MutexEvent} (apart : event.thread ≠ thread)
    (log : List MutexEvent) : Owns thread (event :: log) ↔ Owns thread log := by
  cases event with
  | obtained acting => exact ⟨fun owns => owns.resolve_left apart, .inr⟩
  | released acting => exact ⟨And.right, fun owns => ⟨apart, owns⟩⟩

/-- An owner has obtained the mutex. -/
theorem Owns.obtained {thread : Nat} {log : List MutexEvent} (owns : Owns thread log) :
    .obtained thread ∈ log := by
  induction log with
  | nil => exact owns.elim
  | cons event log ih =>
      cases event with
      | obtained acting =>
          rcases owns with rfl | earlier
          · exact List.mem_cons_self
          · exact List.mem_cons_of_mem _ (ih earlier)
      | released acting => exact List.mem_cons_of_mem _ (ih owns.2)

/-! ## `threadfunc` -/

/-- The call that `threadfunc` is about to make: the first `usleep`, `pthread_mutex_lock`, the
second `usleep`, `pthread_mutex_unlock`, or none. -/
inductive Stage where
  | sleepToObtain
  | lock
  | sleepToRelease
  | unlock
  | returned
  deriving DecidableEq, Repr

/-- `struct thread_data`, and where in `threadfunc` its thread is. -/
structure ThreadData where
  errorStatus : Int
  threadCompleteSuccess : Bool
  stage : Stage
  deriving DecidableEq, Repr

namespace ThreadData

/-- What `start_thread_obtaining_mutex` hands to the new thread. -/
def zero : ThreadData := ⟨0, false, .sleepToObtain⟩

/-- The thread goes on to its next call. -/
def goto (data : ThreadData) (stage : Stage) : ThreadData := { data with stage := stage }

/-- The end of `threadfunc` on success. -/
def succeed (_ : ThreadData) : ThreadData := ⟨0, true, .returned⟩

/-- The end of `threadfunc` from `err_handle`. -/
def errHandle (_ : ThreadData) : ThreadData := ⟨1, false, .returned⟩

end ThreadData

/-- The owner that the mutex records, the threads in the order of their start, and what has
happened to the mutex so far. -/
structure ThreadingState where
  owner : Option Nat
  threads : List ThreadData
  log : List MutexEvent
  deriving DecidableEq, Repr

/-- An initialised mutex and no thread. -/
def threadingInit : ThreadingState := ⟨none, [], []⟩

/-- A call of `start_thread_obtaining_mutex` with the outcomes of `malloc` and
`pthread_create`, or the next call of a thread: a sleep, which may fail, a lock, which may fail,
or an unlock. -/
inductive ThreadingStep where
  | start (allocated created : Bool)
  | usleep (thread : Nat) (fails : Bool)
  | lock (thread : Nat) (fails : Bool)
  | unlock (thread : Nat)
  deriving DecidableEq, Repr

namespace ThreadingState

/-- One thread goes on. -/
def update (state : ThreadingState) (thread : Nat) (data : ThreadData) : ThreadingState :=
  { state with threads := state.threads.set thread data }

/-- `start_thread_obtaining_mutex`. -/
def startThreadObtainingMutex (state : ThreadingState) (allocated created : Bool) :
    Bool × ThreadingState :=
  if allocated = false then (false, state)
  else if created = false then (false, state)
  else (true, { state with threads := state.threads ++ [.zero] })

/-- A sleep of a thread; if it fails, the thread goes to `err_handle`. -/
def usleep (state : ThreadingState) (thread : Nat) (fails : Bool) : ThreadingState :=
  match state.threads[thread]? with
  | none => state
  | some data =>
      match data.stage with
      | .sleepToObtain => state.update thread (if fails then data.errHandle else data.goto .lock)
      | .sleepToRelease =>
          state.update thread (if fails then data.errHandle else data.goto .unlock)
      | _ => state

/-- The lock of a thread. It fails, or obtains the mutex, or waits for its owner. -/
def lock (state : ThreadingState) (thread : Nat) (fails : Bool) : ThreadingState :=
  match state.threads[thread]? with
  | none => state
  | some data =>
      if data.stage ≠ .lock then state
      else if fails then state.update thread data.errHandle
      else
        match state.owner with
        | some _ => state
        | none => ⟨some thread, state.threads.set thread (data.goto .sleepToRelease),
            .obtained thread :: state.log⟩

/-- The unlock of a thread. It succeeds for the owner. -/
def unlock (state : ThreadingState) (thread : Nat) : ThreadingState :=
  match state.threads[thread]? with
  | none => state
  | some data =>
      if data.stage ≠ .unlock then state
      else if state.owner ≠ some thread then state.update thread data.errHandle
      else ⟨none, state.threads.set thread data.succeed, .released thread :: state.log⟩

end ThreadingState

/-- One step. A step of a thread that is elsewhere changes nothing. -/
def threadingStep (state : ThreadingState) : ThreadingStep → ThreadingState
  | .start allocated created => (state.startThreadObtainingMutex allocated created).2
  | .usleep thread fails => state.usleep thread fails
  | .lock thread fails => state.lock thread fails
  | .unlock thread => state.unlock thread

/-- The state after some steps. -/
def threading (steps : List ThreadingStep) : ThreadingState :=
  Runs.run threadingStep threadingInit steps

/-! ## What ought to hold -/

/-- At most one thread owns the mutex, no thread owns it that has returned, and exactly those
threads report success that have returned and have obtained and released it. -/
structure Disciplined (state : ThreadingState) : Prop where
  exclusive : ∀ first second, Owns first state.log → Owns second state.log → first = second
  returned : ∀ (thread : Nat) (data : ThreadData), state.threads[thread]? = some data →
    data.stage = .returned → ¬Owns thread state.log
  success : ∀ (thread : Nat) (data : ThreadData), state.threads[thread]? = some data →
    (data.threadCompleteSuccess = true ↔ data.stage = .returned ∧
      .obtained thread ∈ state.log ∧ .released thread ∈ state.log)

/-- The step is not a failing sleep between a lock and an unlock. -/
def SleepsToRelease (state : ThreadingState) : ThreadingStep → Prop
  | .usleep thread fails => fails = true →
      ∀ data ∈ state.threads[thread]?, data.stage ≠ .sleepToRelease
  | _ => True

/-! ## What a step does -/

/-- What a step does that is no failing sleep between a lock and an unlock. -/
inductive Moves (state : ThreadingState) : ThreadingState → Prop where
  | idle : Moves state state
  | starts : Moves state { state with threads := state.threads ++ [.zero] }
  | approaches (thread : Nat) (data next : ThreadData)
      (selected : state.threads[thread]? = some data)
      (before : data.stage = .sleepToObtain ∨ data.stage = .lock)
      (moves : next = data.goto .lock ∨ next = data.errHandle) :
      Moves state (state.update thread next)
  | obtains (thread : Nat) (data : ThreadData)
      (selected : state.threads[thread]? = some data)
      (before : data.stage = .lock) (free : state.owner = none) :
      Moves state ⟨some thread, state.threads.set thread (data.goto .sleepToRelease),
        .obtained thread :: state.log⟩
  | wakes (thread : Nat) (data : ThreadData)
      (selected : state.threads[thread]? = some data)
      (before : data.stage = .sleepToRelease) :
      Moves state (state.update thread (data.goto .unlock))
  | releases (thread : Nat) (data : ThreadData)
      (selected : state.threads[thread]? = some data)
      (before : data.stage = .unlock) (own : state.owner = some thread) :
      Moves state ⟨none, state.threads.set thread data.succeed, .released thread :: state.log⟩
  | refused (thread : Nat) (data : ThreadData)
      (selected : state.threads[thread]? = some data)
      (before : data.stage = .unlock) (foreign : state.owner ≠ some thread) :
      Moves state (state.update thread data.errHandle)

theorem moves_usleep {state : ThreadingState} {thread : Nat} {fails : Bool}
    (sleeps : SleepsToRelease state (.usleep thread fails)) :
    Moves state (state.usleep thread fails) := by
  unfold ThreadingState.usleep
  split
  next => exact .idle
  next data selected =>
    split
    next before =>
      refine .approaches thread data _ selected (.inl before) ?_
      cases fails with
      | false => exact .inl rfl
      | true => exact .inr rfl
    next before =>
      cases fails with
      | false => exact .wakes thread data selected before
      | true => exact absurd before (sleeps rfl data selected)
    next => exact .idle

theorem moves_lock (state : ThreadingState) (thread : Nat) (fails : Bool) :
    Moves state (state.lock thread fails) := by
  unfold ThreadingState.lock
  split
  next => exact .idle
  next data selected =>
    split
    next => exact .idle
    next atLock =>
      have before := not_not.mp atLock
      split
      next => exact .approaches thread data _ selected (.inr before) (.inr rfl)
      next =>
        split
        next => exact .idle
        next free => exact .obtains thread data selected before free

theorem moves_unlock (state : ThreadingState) (thread : Nat) :
    Moves state (state.unlock thread) := by
  unfold ThreadingState.unlock
  split
  next => exact .idle
  next data selected =>
    split
    next => exact .idle
    next atUnlock =>
      have before := not_not.mp atUnlock
      split
      next foreign => exact .refused thread data selected before foreign
      next own => exact .releases thread data selected before (not_not.mp own)

theorem moves_threadingStep {state : ThreadingState} {step : ThreadingStep}
    (sleeps : SleepsToRelease state step) : Moves state (threadingStep state step) := by
  cases step with
  | start allocated created =>
      cases allocated with
      | false => exact .idle
      | true =>
          cases created with
          | false => exact .idle
          | true => exact .starts
  | usleep thread fails => exact moves_usleep sleeps
  | lock thread fails => exact moves_lock state thread fails
  | unlock thread => exact moves_unlock state thread

/-- A thread whose sleep fails between its lock and its unlock returns. -/
theorem threadingStep_abandons {state : ThreadingState} {step : ThreadingStep}
    (fails : ¬SleepsToRelease state step) :
    ∃ thread data, state.threads[thread]? = some data ∧ data.stage = .sleepToRelease ∧
      threadingStep state step = state.update thread data.errHandle := by
  cases step with
  | usleep thread failed =>
      obtain ⟨rfl, data, selected, before⟩ : failed = true ∧
          ∃ data, state.threads[thread]? = some data ∧ data.stage = .sleepToRelease := by
        simpa [SleepsToRelease] using fails
      refine ⟨thread, data, selected, before, ?_⟩
      simp [threadingStep, ThreadingState.usleep, selected, before]
  | start | lock | unlock => exact absurd trivial fails

/-! ## What holds in every run -/

/-- The events of the thread are those of a thread at this place. -/
def ThreadData.Follows (log : List MutexEvent) (thread : Nat) (data : ThreadData) : Prop :=
  match data.stage with
  | .sleepToObtain | .lock =>
      .obtained thread ∉ log ∧ .released thread ∉ log ∧ data.threadCompleteSuccess = false
  | .sleepToRelease | .unlock =>
      Owns thread log ∧ .released thread ∉ log ∧ data.threadCompleteSuccess = false
  | .returned =>
      (data.threadCompleteSuccess = true →
        ¬Owns thread log ∧ .obtained thread ∈ log ∧ .released thread ∈ log) ∧
      (data.threadCompleteSuccess = false → .released thread ∉ log)

/-- The mutex records its owner, and every thread has done what belongs to its place. -/
structure Consistent (state : ThreadingState) : Prop where
  owner : ∀ thread, state.owner = some thread ↔ Owns thread state.log
  follows : Each (ThreadData.Follows state.log) state.threads
  started : ∀ event ∈ state.log, event.thread < state.threads.length

theorem consistent_init : Consistent threadingInit where
  owner thread := by simp [threadingInit, Owns]
  follows := .nil
  started event member := by simp [threadingInit] at member

theorem ThreadData.Follows.cons {event : MutexEvent} {log : List MutexEvent} {thread : Nat}
    {data : ThreadData} (follows : data.Follows log thread) (apart : event.thread ≠ thread) :
    data.Follows (event :: log) thread := by
  have obtained : .obtained thread ∈ event :: log ↔ .obtained thread ∈ log := by
    rw [List.mem_cons, or_iff_right]
    rintro rfl
    exact apart rfl
  have released : .released thread ∈ event :: log ↔ .released thread ∈ log := by
    rw [List.mem_cons, or_iff_right]
    rintro rfl
    exact apart rfl
  unfold ThreadData.Follows at follows ⊢
  rwa [obtained, released, owns_cons_of_ne apart]

namespace Consistent

variable {state : ThreadingState} {thread : Nat} {data next : ThreadData}

/-- A thread goes on without the mutex. -/
theorem update (consistent : Consistent state) (follows : next.Follows state.log thread) :
    Consistent (state.update thread next) where
  owner := consistent.owner
  follows := .set (fun number party _ selected => consistent.follows number party selected)
    follows
  started event member := by
    rw [ThreadingState.update, List.length_set]
    exact consistent.started event member

/-- A thread goes on and the mutex changes hands. -/
theorem record (consistent : Consistent state) (selected : state.threads[thread]? = some data)
    {event : MutexEvent} (own : event.thread = thread) {owner : Option Nat}
    (records : ∀ number, owner = some number ↔ Owns number (event :: state.log))
    (follows : next.Follows (event :: state.log) thread) :
    Consistent ⟨owner, state.threads.set thread next, event :: state.log⟩ where
  owner := records
  follows := by
    refine .set (fun number party apart earlier => ?_) follows
    exact (consistent.follows number party earlier).cons (by rw [own]; exact Ne.symm apart)
  started other member := by
    rw [List.length_set]
    rcases List.mem_cons.mp member with rfl | earlier
    · exact own ▸ lt_of_selected selected
    · exact consistent.started other earlier

theorem before (consistent : Consistent state) (selected : state.threads[thread]? = some data)
    (stage : data.stage = .sleepToObtain ∨ data.stage = .lock) :
    .obtained thread ∉ state.log ∧ .released thread ∉ state.log ∧
      data.threadCompleteSuccess = false := by
  have follows := consistent.follows thread data selected
  unfold ThreadData.Follows at follows
  rcases stage with stage | stage <;> rwa [stage] at follows

theorem holding (consistent : Consistent state) (selected : state.threads[thread]? = some data)
    (stage : data.stage = .sleepToRelease ∨ data.stage = .unlock) :
    Owns thread state.log ∧ .released thread ∉ state.log ∧
      data.threadCompleteSuccess = false := by
  have follows := consistent.follows thread data selected
  unfold ThreadData.Follows at follows
  rcases stage with stage | stage <;> rwa [stage] at follows

/-- `err_handle` records a failure of a thread that has released nothing. -/
theorem errHandle (consistent : Consistent state) (unreleased : .released thread ∉ state.log) :
    Consistent (state.update thread data.errHandle) := by
  refine consistent.update ⟨fun success => ?_, fun _ => unreleased⟩
  cases success

theorem moves (consistent : Consistent state) {after : ThreadingState}
    (moves : Moves state after) : Consistent after := by
  cases moves with
  | idle => exact consistent
  | starts =>
      refine ⟨consistent.owner, consistent.follows.join ?_, fun event member => ?_⟩
      · refine ⟨fun member => ?_, fun member => ?_, rfl⟩
        · exact absurd (consistent.started _ member) (Nat.lt_irrefl _)
        · exact absurd (consistent.started _ member) (Nat.lt_irrefl _)
      · rw [List.length_append]
        exact Nat.lt_add_right _ (consistent.started event member)
  | approaches thread data next selected before moves =>
      obtain ⟨unobtained, unreleased, unsuccessful⟩ := consistent.before selected before
      rcases moves with rfl | rfl
      · exact consistent.update ⟨unobtained, unreleased, unsuccessful⟩
      · exact consistent.errHandle unreleased
  | obtains thread data selected before free =>
      obtain ⟨-, unreleased, unsuccessful⟩ := consistent.before selected (.inr before)
      have nobody : ∀ number, ¬Owns number state.log := fun number owns => by
        rw [← consistent.owner number, free] at owns
        cases owns
      refine consistent.record selected rfl (fun number => ?_)
        ⟨.inl rfl, by simpa using unreleased, unsuccessful⟩
      rw [Option.some.injEq]
      exact ⟨.inl, fun owns => owns.resolve_right (nobody number)⟩
  | wakes thread data selected before =>
      have holding := consistent.holding selected (.inl before)
      exact consistent.update holding
  | releases thread data selected before own =>
      obtain ⟨owns, -, -⟩ := consistent.holding selected (.inr before)
      have only : ∀ number, ¬Owns number (.released thread :: state.log) :=
        fun number ⟨apart, other⟩ => by
          rw [← consistent.owner number, own] at other
          exact apart (Option.some.inj other)
      refine consistent.record selected rfl (fun number => ?_)
        ⟨fun _ => ⟨only thread, List.mem_cons_of_mem _ owns.obtained, List.mem_cons_self⟩,
          fun failed => by cases failed⟩
      exact iff_of_false (by simp) (only number)
  | refused thread data selected before foreign =>
      exact consistent.errHandle (consistent.holding selected (.inr before)).2.1

theorem step (consistent : Consistent state) (step : ThreadingStep) :
    Consistent (threadingStep state step) := by
  by_cases sleeps : SleepsToRelease state step
  · exact consistent.moves (moves_threadingStep sleeps)
  · obtain ⟨thread, data, selected, before, result⟩ := threadingStep_abandons sleeps
    rw [result]
    exact consistent.errHandle (consistent.holding selected (.inl before)).2.1

theorem exclusive (consistent : Consistent state) {first second : Nat}
    (owns : Owns first state.log) (other : Owns second state.log) : first = second :=
  Option.some.inj (((consistent.owner first).mpr owns).symm.trans
    ((consistent.owner second).mpr other))

/-- A thread reports success exactly if it has returned after both. -/
theorem success_iff (consistent : Consistent state)
    (selected : state.threads[thread]? = some data) :
    data.threadCompleteSuccess = true ↔ data.stage = .returned ∧
      .obtained thread ∈ state.log ∧ .released thread ∈ state.log := by
  have follows := consistent.follows thread data selected
  unfold ThreadData.Follows at follows
  cases stage : data.stage with
  | returned =>
      rw [stage] at follows
      obtain ⟨successful, failed⟩ := follows
      refine ⟨fun success => ⟨rfl, (successful success).2⟩, fun ⟨_, _, released⟩ => ?_⟩
      by_contra unsuccessful
      exact failed (by simpa using unsuccessful) released
  | sleepToObtain | lock | sleepToRelease | unlock =>
      rw [stage] at follows
      simp [follows.2.2]

/-- What is left to show: no thread that has returned owns the mutex. -/
theorem disciplined_iff (consistent : Consistent state) :
    Disciplined state ↔
      Each (fun thread data => data.stage = .returned → ¬Owns thread state.log)
        state.threads :=
  ⟨Disciplined.returned, fun returned =>
    ⟨fun _ _ => consistent.exclusive, returned,
      fun _ _ selected => consistent.success_iff selected⟩⟩

end Consistent

/-- A step that is no failing sleep between a lock and an unlock leaves no thread behind with
the mutex. -/
theorem disciplined_moves {state after : ThreadingState} (consistent : Consistent state)
    (disciplined : Disciplined state) (moves : Moves state after) : Disciplined after := by
  have next := consistent.moves moves
  have earlier : ∀ number party, state.threads[number]? = some party →
      party.stage = .returned → ¬Owns number state.log := disciplined.returned
  refine next.disciplined_iff.mpr ?_
  cases moves with
  | idle => exact earlier
  | starts => exact Each.join earlier fun returned => by cases returned
  | approaches thread data next selected before moves =>
      obtain ⟨unobtained, -⟩ := consistent.before selected before
      exact .set (fun number party _ => earlier number party)
        fun _ owns => unobtained owns.obtained
  | obtains thread data selected before free =>
      refine .set (fun number party apart found returned owns => ?_)
        fun returned => by cases returned
      rw [owns_cons_of_ne (Ne.symm apart)] at owns
      exact earlier number party found returned owns
  | wakes thread data selected before =>
      exact .set (fun number party _ => earlier number party) fun returned => by cases returned
  | releases thread data selected before own =>
      exact .set (fun number party _ found returned owns =>
        earlier number party found returned owns.2) fun _ owns => owns.1 rfl
  | refused thread data selected before foreign =>
      exact absurd ((consistent.owner thread).mpr
        (consistent.holding selected (.inr before)).1) foreign

/-- A thread whose sleep fails between its lock and its unlock returns with the mutex. -/
theorem disciplined_step_iff {state : ThreadingState} (consistent : Consistent state)
    (disciplined : Disciplined state) (step : ThreadingStep) :
    Disciplined (threadingStep state step) ↔ SleepsToRelease state step := by
  constructor
  · intro after
    by_contra fails
    obtain ⟨thread, data, selected, before, result⟩ := threadingStep_abandons fails
    obtain ⟨owns, -, -⟩ := consistent.holding selected (.inl before)
    rw [result] at after
    have returned : (state.update thread data.errHandle).threads[thread]? =
        some data.errHandle := List.getElem?_set_self (lt_of_selected selected)
    exact after.returned thread data.errHandle returned rfl owns
  · exact fun sleeps => disciplined_moves consistent disciplined (moves_threadingStep sleeps)

/-- No thread returns with the mutex, in any state of a run, if and only if no sleep between a
lock and an unlock fails in it. -/
theorem disciplined_run_iff (steps : List ThreadingStep) :
    (∀ visited, visited <+: steps → Disciplined (threading visited)) ↔
      Runs.Along threadingStep SleepsToRelease threadingInit steps :=
  Runs.forall_prefix_iff Consistent Disciplined (fun _ input base => base.step input)
    (fun _ input base property => disciplined_step_iff base property input) steps
    consistent_init (consistent_init.disciplined_iff.mpr Each.nil)

/-- A thread sleeps, locks, and fails in its second sleep: it has returned, and owns the
mutex. -/
theorem not_disciplined_failing_sleep :
    ¬Disciplined (threading [.start true true, .usleep 0 false, .lock 0 false,
      .usleep 0 true]) := by
  intro disciplined
  exact disciplined.returned 0 ⟨1, false, .returned⟩ rfl rfl (.inl rfl)

end Aesd.Threading
