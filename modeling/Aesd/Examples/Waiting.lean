import Aesd.Examples.Threading

/-!
# Threads that wait for a mutex

A thread of `examples/threading` makes at most four calls, so the threads come to an end. They
have all returned then, unless one of them has returned with the mutex: the others wait for it,
and will wait for ever.
-/

namespace Aesd.Threading

open Parties

/-! ## What is left to do -/

/-- The calls a thread has left. -/
def Stage.callsLeft : Stage → Nat
  | .sleepToObtain => 4
  | .lock => 3
  | .sleepToRelease => 2
  | .unlock => 1
  | .returned => 0

/-- The calls the threads have left. -/
def ThreadingState.callsLeft (state : ThreadingState) : Nat :=
  (state.threads.map fun data => data.stage.callsLeft).sum

/-- The thread whose call a step is. -/
def ThreadingStep.caller : ThreadingStep → Option Nat
  | .start _ _ => none
  | .usleep thread _ | .lock thread _ | .unlock thread => some thread

/-- The call of a step does not fail by itself. -/
def ThreadingStep.Succeeds : ThreadingStep → Prop
  | .start _ _ | .unlock _ => True
  | .usleep _ fails | .lock _ fails => fails = false

/-- The step is a call of a thread, and the call returns. -/
def Returns (state : ThreadingState) (step : ThreadingStep) : Prop :=
  step.caller ≠ none ∧ threadingStep state step ≠ state

/-- No thread goes on, unless its call fails. -/
def Stuck (state : ThreadingState) : Prop :=
  ∀ step : ThreadingStep, step.caller ≠ none → step.Succeeds → threadingStep state step = state

/-- A thread has returned and owns the mutex. -/
def Abandoned (state : ThreadingState) (owner : Nat) : Prop :=
  Owns owner state.log ∧ ∃ data, state.threads[owner]? = some data ∧ data.stage = .returned

/-- Every thread has returned. -/
def Finished (state : ThreadingState) : Prop :=
  Each (fun _ data => data.stage = .returned) state.threads

/-- Every thread has returned or waits for the mutex. -/
def Waiting (state : ThreadingState) : Prop :=
  Each (fun _ data => data.stage = .returned ∨ data.stage = .lock) state.threads

namespace ThreadingState

variable {state : ThreadingState} {thread : Nat} {data next : ThreadData}

/-- Each thread has at most four. -/
theorem callsLeft_le (state : ThreadingState) : state.callsLeft ≤ 4 * state.threads.length := by
  apply sum_le
  intro data
  cases data.stage
  all_goals simp [Stage.callsLeft]

/-- A call starts no thread. -/
theorem length_threads {step : ThreadingStep} (call : step.caller ≠ none) :
    (threadingStep state step).threads.length = state.threads.length := by
  cases step with
  | start => exact absurd rfl call
  | usleep thread fails =>
      simp only [threadingStep, usleep]
      split
      next => rfl
      next =>
        split
        all_goals simp [update]
  | lock thread fails =>
      simp only [threadingStep, lock]
      repeat' split
      all_goals simp [update]
  | unlock thread =>
      simp only [threadingStep, unlock]
      repeat' split
      all_goals simp [update]

end ThreadingState

/-- A thread that moves on has fewer calls left. -/
theorem Moves.nearer {state after : ThreadingState} (moves : Moves state after)
    (changes : after ≠ state) (same : after.threads.length = state.threads.length) :
    after.callsLeft < state.callsLeft := by
  cases moves with
  | idle => exact absurd rfl changes
  | starts => simp at same
  | approaches thread data next selected before moves =>
      apply sum_set_lt _ selected
      rcases moves with rfl | rfl
      case inl =>
        rcases before with before | before
        · simp [ThreadData.goto, before, Stage.callsLeft]
        · have idle : data.goto .lock = data := by rw [ThreadData.goto, ← before]
          refine absurd ?_ changes
          rw [idle, ThreadingState.update, set_selected selected]
      case inr =>
        rcases before with before | before
        all_goals simp [ThreadData.errHandle, before, Stage.callsLeft]
  | obtains thread data selected before free =>
      apply sum_set_lt _ selected
      simp [ThreadData.goto, before, Stage.callsLeft]
  | wakes thread data selected before =>
      apply sum_set_lt _ selected
      simp [ThreadData.goto, before, Stage.callsLeft]
  | releases thread data selected before own =>
      apply sum_set_lt _ selected
      simp [ThreadData.succeed, before, Stage.callsLeft]
  | refused thread data selected before foreign =>
      apply sum_set_lt _ selected
      simp [ThreadData.errHandle, before, Stage.callsLeft]

/-- A call that returns is one call less. -/
theorem Returns.nearer {state : ThreadingState} {step : ThreadingStep}
    (returns : Returns state step) : (threadingStep state step).callsLeft < state.callsLeft := by
  obtain ⟨call, changes⟩ := returns
  by_cases sleeps : SleepsToRelease state step
  case pos =>
    exact (moves_threadingStep sleeps).nearer changes (ThreadingState.length_threads call)
  case neg =>
    obtain ⟨thread, data, selected, before, result⟩ := threadingStep_abandons sleeps
    rw [result]
    apply sum_set_lt _ selected
    simp [ThreadData.errHandle, before, Stage.callsLeft]

/-! ## Where the threads end -/

/-- A thread that is not there, or has returned, makes no call. -/
theorem threadingStep_returned {state : ThreadingState} {step : ThreadingStep} {thread : Nat}
    (call : step.caller = some thread)
    (ended : ∀ data, state.threads[thread]? = some data → data.stage = .returned) :
    threadingStep state step = state := by
  cases selected : state.threads[thread]? with
  | none =>
      cases step with
      | start => cases call
      | usleep | lock | unlock =>
          obtain rfl := Option.some.inj call
          simp [threadingStep, ThreadingState.usleep, ThreadingState.lock, ThreadingState.unlock,
            selected]
  | some data =>
      have returned := ended data selected
      cases step with
      | start => cases call
      | usleep | lock | unlock =>
          obtain rfl := Option.some.inj call
          simp [threadingStep, ThreadingState.usleep, ThreadingState.lock, ThreadingState.unlock,
            selected, returned]

/-- A thread at the lock of a mutex that is not free waits. -/
theorem threadingStep_waits {state : ThreadingState} {step : ThreadingStep} {thread : Nat}
    {data : ThreadData} (call : step.caller = some thread) (succeeds : step.Succeeds)
    (selected : state.threads[thread]? = some data) (waits : data.stage = .lock) {owner : Nat}
    (owned : state.owner = some owner) : threadingStep state step = state := by
  cases step with
  | start => cases call
  | usleep | unlock =>
      obtain rfl := Option.some.inj call
      simp [threadingStep, ThreadingState.usleep, ThreadingState.unlock, selected, waits]
  | lock acting fails =>
      obtain rfl := Option.some.inj call
      obtain rfl : fails = false := succeeds
      simp [threadingStep, ThreadingState.lock, selected, waits, owned]

namespace Stuck

variable {state : ThreadingState}

/-- A thread that sleeps or has the mutex can go on. -/
theorem waiting (stuck : Stuck state) : Waiting state := by
  intro thread data selected
  have moves : ∀ next : ThreadData, next.stage ≠ data.stage → ∀ after : ThreadingState,
      after.threads = state.threads.set thread next → after ≠ state := by
    intro next other after threads same
    refine set_ne selected (fun equal => other (congrArg ThreadData.stage equal)) ?_
    rw [← threads, same]
  cases stage : data.stage with
  | returned => exact .inl rfl
  | lock => exact .inr rfl
  | sleepToObtain =>
      have idle := stuck (.usleep thread false) (by simp [ThreadingStep.caller]) rfl
      refine absurd idle (moves (data.goto .lock) ?_ _ ?_)
      · simp [ThreadData.goto, stage]
      · simp [threadingStep, ThreadingState.usleep, selected, stage, ThreadingState.update]
  | sleepToRelease =>
      have idle := stuck (.usleep thread false) (by simp [ThreadingStep.caller]) rfl
      refine absurd idle (moves (data.goto .unlock) ?_ _ ?_)
      · simp [ThreadData.goto, stage]
      · simp [threadingStep, ThreadingState.usleep, selected, stage, ThreadingState.update]
  | unlock =>
      have idle := stuck (.unlock thread) (by simp [ThreadingStep.caller]) trivial
      by_cases own : state.owner = some thread
      · refine absurd idle (moves data.succeed ?_ _ ?_)
        · simp [ThreadData.succeed, stage]
        · simp [threadingStep, ThreadingState.unlock, selected, stage, own]
      · refine absurd idle (moves data.errHandle ?_ _ ?_)
        · simp [ThreadData.errHandle, stage]
        · simp [threadingStep, ThreadingState.unlock, selected, stage, own,
            ThreadingState.update]

/-- A thread waits for an owner. -/
theorem exists_owner (stuck : Stuck state) {thread : Nat} {data : ThreadData}
    (selected : state.threads[thread]? = some data) (waits : data.stage = .lock) :
    ∃ owner, state.owner = some owner := by
  cases owned : state.owner with
  | some owner => exact ⟨owner, rfl⟩
  | none =>
      have idle := stuck (.lock thread false) (by simp [ThreadingStep.caller]) rfl
      have obtains := congrArg ThreadingState.owner idle
      simp [threadingStep, ThreadingState.lock, selected, waits, owned] at obtains

end Stuck

/-- The owner that others wait for has returned. -/
theorem Consistent.abandoned {state : ThreadingState} (consistent : Consistent state)
    (waiting : Waiting state) {owner : Nat} (owned : state.owner = some owner) :
    Abandoned state owner := by
  have owns := (consistent.owner owner).mp owned
  have started := consistent.started _ owns.obtained
  have selected : state.threads[owner]? = some state.threads[owner] :=
    List.getElem?_eq_getElem started
  refine ⟨owns, _, selected, ?_⟩
  rcases waiting owner _ selected with returned | waits
  · exact returned
  · exact absurd owns.obtained (consistent.before selected (.inr waits)).1

/-- The threads are stuck exactly if all have returned, or all that have not wait for one that
has. -/
theorem Consistent.stuck_iff {state : ThreadingState} (consistent : Consistent state) :
    Stuck state ↔ Finished state ∨ Waiting state ∧ ∃ owner, Abandoned state owner := by
  constructor
  case mp =>
    intro stuck
    by_cases finished : Finished state
    case pos => exact .inl finished
    case neg =>
      obtain ⟨thread, data, selected, running⟩ : ∃ (thread : Nat) (data : ThreadData),
          state.threads[thread]? = some data ∧ data.stage ≠ .returned := by
        simpa [Finished, Each] using finished
      have waits := (stuck.waiting thread data selected).resolve_left running
      obtain ⟨owner, owned⟩ := stuck.exists_owner selected waits
      exact .inr ⟨stuck.waiting, owner, consistent.abandoned stuck.waiting owned⟩
  case mpr =>
    intro ends step call succeeds
    obtain ⟨thread, caller⟩ := Option.ne_none_iff_exists'.mp call
    rcases ends with finished | ⟨waiting, owner, owns, -⟩
    · exact threadingStep_returned caller (finished thread)
    · cases selected : state.threads[thread]? with
      | none =>
          apply threadingStep_returned caller
          intro data found
          cases selected.symm.trans found
      | some data =>
          rcases waiting thread data selected with returned | waits
          · apply threadingStep_returned caller
            intro other found
            exact Option.some.inj (selected.symm.trans found) ▸ returned
          · exact threadingStep_waits caller succeeds selected waits
              ((consistent.owner owner).mpr owns)

/-! ## Threads on which nothing fails -/

/-- Every thread that has returned reports success. -/
def Successful (state : ThreadingState) : Prop :=
  Each (fun _ data => data.stage = .returned → data.threadCompleteSuccess = true) state.threads

/-- One thread goes on and has not failed. -/
theorem Successful.set {state : ThreadingState} (successful : Successful state) {thread : Nat}
    {next : ThreadData} (succeeds : next.stage = .returned → next.threadCompleteSuccess = true) :
    Each (fun _ data => data.stage = .returned → data.threadCompleteSuccess = true)
      (state.threads.set thread next) :=
  Each.set (fun number party _ => successful number party) succeeds

theorem Successful.step {state : ThreadingState} (consistent : Consistent state)
    (successful : Successful state) {step : ThreadingStep} (succeeds : step.Succeeds) :
    Successful (threadingStep state step) := by
  cases step with
  | start allocated created =>
      cases allocated with
      | false => exact successful
      | true =>
          cases created with
          | false => exact successful
          | true => exact Each.join successful fun returned => by cases returned
  | usleep thread fails =>
      obtain rfl : fails = false := succeeds
      simp only [threadingStep, ThreadingState.usleep]
      split
      next => exact successful
      next data selected =>
        split
        next => exact successful.set fun returned => by cases returned
        next => exact successful.set fun returned => by cases returned
        next => exact successful
  | lock thread fails =>
      obtain rfl : fails = false := succeeds
      simp only [threadingStep, ThreadingState.lock]
      split
      next => exact successful
      next data selected =>
        split
        next => exact successful
        next =>
          split
          next failed => cases failed
          next =>
            split
            next => exact successful
            next => exact successful.set fun returned => by cases returned
  | unlock thread =>
      simp only [threadingStep, ThreadingState.unlock]
      split
      next => exact successful
      next data selected =>
        split
        next => exact successful
        next atUnlock =>
          have holding := consistent.holding selected (.inr (not_not.mp atUnlock))
          split
          next foreign => exact absurd ((consistent.owner thread).mpr holding.1) foreign
          next => exact successful.set fun _ => rfl

/-- A thread that reports success has left the mutex. -/
theorem Successful.not_abandoned {state : ThreadingState} (consistent : Consistent state)
    (successful : Successful state) {owner : Nat} : ¬Abandoned state owner := by
  intro abandoned
  obtain ⟨owns, data, selected, returned⟩ := abandoned
  have follows := consistent.follows owner data selected
  unfold ThreadData.Follows at follows
  rw [returned] at follows
  exact (follows.1 (successful owner data selected returned)).1 owns

theorem consistent_threading (steps : List ThreadingStep) : Consistent (threading steps) :=
  Runs.invariant_always Consistent (fun _ step consistent => consistent.step step) steps
    consistent_init

theorem successful_threading {steps : List ThreadingStep}
    (succeed : ∀ step ∈ steps, step.Succeeds) : Successful (threading steps) := by
  have along : Runs.Along threadingStep (fun _ step => step.Succeeds) threadingInit steps :=
    .always fun _ => succeed
  have both : Consistent (threading steps) ∧ Successful (threading steps) := by
    refine Runs.invariant (fun state => Consistent state ∧ Successful state) ?_
      ⟨consistent_init, Each.nil⟩ along
    intro state step holds succeeds
    exact ⟨holds.1.step step, holds.2.step holds.1 succeeds⟩
  exact both.2

/-- The threads end. At most four calls of each return, in whatever order; when no thread can go
on, all have returned, or those that have not wait for one that has returned with the mutex; and
if no call failed, all have returned and report success. -/
theorem threads_end (steps more : List ThreadingStep) :
    (Runs.Along threadingStep Returns (threading steps) more →
      more.length ≤ 4 * (threading steps).threads.length) ∧
    (Stuck (threading steps) ↔ Finished (threading steps) ∨
      Waiting (threading steps) ∧ ∃ owner, Abandoned (threading steps) owner) ∧
    ((∀ step ∈ steps, step.Succeeds) → Stuck (threading steps) →
      Finished (threading steps) ∧
        ∀ data ∈ (threading steps).threads, data.threadCompleteSuccess = true) := by
  have consistent := consistent_threading steps
  refine ⟨?_, consistent.stuck_iff, ?_⟩
  case refine_1 =>
    intro along
    refine le_trans ?_ (threading steps).callsLeft_le
    apply along.length_le (fun count state => state.callsLeft = count)
    case decreases =>
      intro count state step calls returns
      exact ⟨_, calls ▸ returns.nearer, rfl⟩
    case initially => rfl
  case refine_2 =>
    intro succeed stuck
    have successful := successful_threading succeed
    have finished : Finished (threading steps) := by
      rcases consistent.stuck_iff.mp stuck with finished | ⟨-, owner, abandoned⟩
      · exact finished
      · exact absurd abandoned (successful.not_abandoned consistent)
    refine ⟨finished, fun data member => ?_⟩
    obtain ⟨thread, selected⟩ := List.getElem?_of_mem member
    exact successful thread data selected (finished thread data selected)

/-! ## A mutex that is never released -/

/-- Once a thread has returned with the mutex, no step moves the mutex or that thread. -/
theorem Abandoned.step {state : ThreadingState} (consistent : Consistent state) {owner : Nat}
    (abandoned : Abandoned state owner) (step : ThreadingStep) :
    Abandoned (threadingStep state step) owner ∧ (threadingStep state step).log = state.log := by
  obtain ⟨owns, data, selected, returned⟩ := abandoned
  -- a thread that goes on is not the owner, which has returned
  have stays : ∀ (thread : Nat) (acting next : ThreadData),
      state.threads[thread]? = some acting → acting.stage ≠ .returned →
        Abandoned (state.update thread next) owner := by
    intro thread acting next found running
    refine ⟨owns, data, ?_, returned⟩
    rw [ThreadingState.update, List.getElem?_set_ne]
    · exact selected
    · rintro rfl
      exact running (Option.some.inj (found.symm.trans selected) ▸ returned)
  by_cases sleeps : SleepsToRelease state step
  case neg =>
    obtain ⟨thread, acting, found, before, result⟩ := threadingStep_abandons sleeps
    rw [result]
    exact ⟨stays thread acting _ found (by simp [before]), rfl⟩
  case pos =>
    have moves := moves_threadingStep sleeps
    generalize threadingStep state step = after at moves ⊢
    cases moves with
    | idle => exact ⟨⟨owns, data, selected, returned⟩, rfl⟩
    | starts =>
        refine ⟨⟨owns, data, ?_, returned⟩, rfl⟩
        rw [List.getElem?_append_left (lt_of_selected selected)]
        exact selected
    | approaches thread acting next found before =>
        refine ⟨stays thread acting next found ?_, rfl⟩
        rcases before with before | before
        all_goals simp [before]
    | obtains thread acting found before free =>
        have owned := (consistent.owner owner).mpr owns
        rw [free] at owned
        cases owned
    | wakes thread acting found before =>
        exact ⟨stays thread acting _ found (by simp [before]), rfl⟩
    | releases thread acting found before own =>
        have owned := (consistent.owner owner).mpr owns
        obtain rfl := Option.some.inj (own.symm.trans owned)
        obtain rfl := Option.some.inj (found.symm.trans selected)
        cases before.symm.trans returned
    | refused thread acting found before =>
        exact ⟨stays thread acting _ found (by simp [before]), rfl⟩

theorem Abandoned.run {state : ThreadingState} (consistent : Consistent state) {owner : Nat}
    (abandoned : Abandoned state owner) (more : List ThreadingStep) :
    Abandoned (Runs.run threadingStep state more) owner ∧
      (Runs.run threadingStep state more).log = state.log := by
  induction more generalizing state with
  | nil => exact ⟨abandoned, rfl⟩
  | cons step more ih =>
      obtain ⟨later, same⟩ := abandoned.step consistent step
      obtain ⟨last, sameLog⟩ := ih (consistent.step step) later
      exact ⟨last, sameLog.trans same⟩

/-- A thread that has released the mutex reports success. -/
theorem Consistent.released {state : ThreadingState} (consistent : Consistent state) {thread : Nat}
    (released : .released thread ∈ state.log) :
    ∃ data, state.threads[thread]? = some data ∧ data.threadCompleteSuccess = true := by
  have started := consistent.started _ released
  have selected : state.threads[thread]? = some state.threads[thread] :=
    List.getElem?_eq_getElem started
  refine ⟨_, selected, ?_⟩
  have follows := consistent.follows thread _ selected
  unfold ThreadData.Follows at follows
  cases stage : state.threads[thread].stage with
  | sleepToObtain | lock | sleepToRelease | unlock =>
      rw [stage] at follows
      exact absurd released follows.2.1
  | returned =>
      rw [stage] at follows
      by_contra failed
      exact follows.2 (by simpa using failed) released

/-- A mutex that a thread has returned with is never released: whatever the threads do and
whatever threads are started, nobody obtains or releases it again, and no further thread reports
success. -/
theorem abandoned_forever (steps more : List ThreadingStep) (owner : Nat)
    (abandoned : Abandoned (threading steps) owner) :
    Abandoned (threading (steps ++ more)) owner ∧
    (threading (steps ++ more)).log = (threading steps).log ∧
    ∀ (thread : Nat) (data : ThreadData), (threading (steps ++ more)).threads[thread]? = some data →
      data.threadCompleteSuccess = true →
        ∃ earlier, (threading steps).threads[thread]? = some earlier ∧
          earlier.threadCompleteSuccess = true := by
  have consistent := consistent_threading steps
  have split : threading (steps ++ more) = Runs.run threadingStep (threading steps) more :=
    Runs.run_append ..
  obtain ⟨later, same⟩ := abandoned.run consistent more
  refine ⟨split ▸ later, split ▸ same, ?_⟩
  intro thread data selected success
  apply consistent.released
  rw [← same, ← split]
  exact (((consistent_threading _).success_iff selected).mp success).2.2

/-- The second sleep of one thread fails, a second thread waits, and a third is started. -/
theorem abandoned_forever_three_threads :
    let steps : List ThreadingStep :=
      [.start true true, .start true true, .usleep 0 false, .usleep 1 false, .lock 0 false,
        .lock 1 false, .usleep 0 true]
    let more : List ThreadingStep :=
      [.lock 1 false, .start true true, .usleep 2 false, .lock 2 false, .lock 1 true, .unlock 0]
    Abandoned (threading (steps ++ more)) 0 ∧
    (threading (steps ++ more)).log = (threading steps).log ∧
    ∀ (thread : Nat) (data : ThreadData), (threading (steps ++ more)).threads[thread]? = some data →
      data.threadCompleteSuccess = true →
        ∃ earlier, (threading steps).threads[thread]? = some earlier ∧
          earlier.threadCompleteSuccess = true := by
  intro steps more
  exact abandoned_forever steps more 0 ⟨.inl rfl, _, rfl, rfl⟩

end Aesd.Threading
