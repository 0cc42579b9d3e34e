import Aesd.Library.Parties
import Aesd.Library.Runs
import Mathlib.Data.List.Nodup

/-!
# Sections under one lock

Calls that run at once, each of which works on shared data between a lock and an unlock. One
statement is one step, so the statements of different calls may come in any order. Yet the
calls behave as if each of them were one step, taken when it obtains the lock
(`linearizes_run`), and none is shut out for good (`exists_returned`).

Nothing here knows what the calls do.
-/

namespace Sections

open Parties

universe u v w x

/-- What comes after a statement of a section: another one, or the unlock and the return. -/
inductive Outcome (Local : Type w) (Result : Type x) where
  | goOn (locals : Local)
  | unlock (result : Result)

/-- The same outcome in other words. -/
def Outcome.map {Local : Type w} {Result : Type x} {Other : Type*} {OtherResult : Type*}
    (image : Local → Other) (resultImage : Result → OtherResult) :
    Outcome Local Result → Outcome Other OtherResult
  | .goOn locals => .goOn (image locals)
  | .unlock result => .unlock (resultImage result)

/-- From here on the statements end with this result and leave the shared data like this. -/
inductive Finishes {Shared : Type u} {Local : Type w} {Result : Type x}
    (step : Local → Shared → Shared × Outcome Local Result) :
    Local → Shared → Result × Shared → Prop where
  | last {locals : Local} {shared after : Shared} {result : Result}
      (ends : step locals shared = (after, .unlock result)) :
      Finishes step locals shared (result, after)
  | more {locals next : Local} {shared between : Shared} {final : Result × Shared}
      (goesOn : step locals shared = (between, .goOn next))
      (rest : Finishes step next between final) : Finishes step locals shared final

/-- From here the statements have come to there. -/
inductive Comes {Shared : Type u} {Local : Type w} {Result : Type x}
    (step : Local → Shared → Shared × Outcome Local Result) (entry : Local) (found : Shared) :
    Local → Shared → Prop where
  | enters : Comes step entry found entry found
  | goesOn {locals next : Local} {shared between : Shared}
      (earlier : Comes step entry found locals shared)
      (goes : step locals shared = (between, .goOn next)) : Comes step entry found next between

/-- The code of the calls. A call returns before it has the lock, or starts its section. -/
structure Code (Shared : Type u) (Call : Type v) (Local : Type w) (Result : Type x) where
  enter : Call → Result ⊕ Local
  step : Local → Shared → Shared × Outcome Local Result

/-- A call before its lock, in its section, or past its return. -/
inductive Task (Call : Type v) (Local : Type w) (Result : Type x) where
  | waiting (call : Call)
  | inside (call : Call) (locals : Local)
  | returned (call : Call) (result : Result)

/-- The shared data, the holder of the lock, and the tasks in the order of their calls. The
record `order` has every task that has obtained the lock or has returned without it, in the
order in which this happened. -/
structure System (Shared : Type u) (Call : Type v) (Local : Type w) (Result : Type x) where
  shared : Shared
  owner : Option Nat
  tasks : List (Task Call Local Result)
  order : List (Nat × Call)

/-- A step: a new call, or the next statement of a task. -/
inductive Step (Call : Type v) where
  | call (call : Call)
  | advance (number : Nat)

variable {Shared : Type u} {Call : Type v} {Local : Type w} {Result : Type x}

/-- No call yet. -/
def System.init (start : Shared) : System Shared Call Local Result := ⟨start, none, [], []⟩

section Steps

variable (code : Code Shared Call Local Result)

/-- The next statement of a task. A task before its lock waits while another one has it. -/
def advance (system : System Shared Call Local Result) (number : Nat) :
    System Shared Call Local Result :=
  match system.tasks[number]? with
  | some (.waiting call) =>
      match code.enter call with
      | .inl result =>
          { system with
            tasks := system.tasks.set number (.returned call result)
            order := system.order ++ [(number, call)] }
      | .inr locals =>
          match system.owner with
          | some _ => system
          | none =>
              { system with
                owner := some number
                tasks := system.tasks.set number (.inside call locals)
                order := system.order ++ [(number, call)] }
  | some (.inside call locals) =>
      match code.step locals system.shared with
      | (shared, .goOn locals) =>
          { system with shared, tasks := system.tasks.set number (.inside call locals) }
      | (shared, .unlock result) =>
          { system with
            shared
            owner := none
            tasks := system.tasks.set number (.returned call result) }
  | _ => system

/-- One step. -/
def systemStep (system : System Shared Call Local Result) :
    Step Call → System Shared Call Local Result
  | .call call => { system with tasks := system.tasks ++ [.waiting call] }
  | .advance number => advance code system number

/-- The system after some steps. -/
def system (start : Shared) (steps : List (Step Call)) : System Shared Call Local Result :=
  Runs.run (systemStep code) (.init start) steps

/-- Run without interruption, a call does this. -/
structure Implements (atomic : Call → Shared → Result × Shared) : Prop where
  early : ∀ call result, code.enter call = .inl result →
    ∀ shared, atomic call shared = (result, shared)
  sections : ∀ call locals, code.enter call = .inr locals →
    ∀ shared, Finishes code.step locals shared (atomic call shared)

end Steps

/-! ## Calls one after another -/

section Sequential

variable (atomic : Call → Shared → Result × Shared)

/-- The shared data after some calls, each in one step. -/
def replay (start : Shared) (order : List (Nat × Call)) : Shared :=
  Runs.run (fun shared entry => (atomic entry.2 shared).2) start order

/-- The calls of an order, each with the result it has in its place. -/
def history (start : Shared) (order : List (Nat × Call)) : List ((Nat × Call) × Result) :=
  Runs.trace (fun shared entry => atomic entry.2 shared) start order

/-- The task has this place among the calls, and the result it gets there. -/
def Placed (start : Shared) (order : List (Nat × Call)) (number : Nat) (call : Call)
    (result : Result) : Prop :=
  ∃ before after, order = before ++ (number, call) :: after ∧
    result = (atomic call (replay atomic start before)).1

/-- The calls behave as if each were one step, in this order: every task that has obtained the
lock or has returned has one place in it, a returned task has the result of its place, and while
nobody is in a section the shared data are those after all of them. -/
structure Linearizes (start : Shared) (system : System Shared Call Local Result) : Prop where
  once : (system.order.map Prod.fst).Nodup
  placed : ∀ number call, (number, call) ∈ system.order ↔
    (∃ locals, system.tasks[number]? = some (.inside call locals)) ∨
      ∃ result, system.tasks[number]? = some (.returned call result)
  results : ∀ number call result, system.tasks[number]? = some (.returned call result) →
    Placed atomic start system.order number call result
  shared : system.owner = none → system.shared = replay atomic start system.order

variable {atomic : Call → Shared → Result × Shared} {start : Shared}
  {order : List (Nat × Call)} {number : Nat} {call : Call} {result : Result}

theorem replay_append_singleton (start : Shared) (order : List (Nat × Call)) (number : Nat)
    (call : Call) : replay atomic start (order ++ [(number, call)]) =
      (atomic call (replay atomic start order)).2 := by
  rw [replay, Runs.run_append]
  rfl

theorem Placed.mem (placed : Placed atomic start order number call result) :
    (number, call) ∈ order := by
  obtain ⟨before, after, rfl, -⟩ := placed
  exact List.mem_append_right before List.mem_cons_self

/-- A place does not change when others come behind it. -/
theorem Placed.append (placed : Placed atomic start order number call result)
    (more : List (Nat × Call)) :
    Placed atomic start (order ++ more) number call result := by
  obtain ⟨before, after, rfl, isResult⟩ := placed
  exact ⟨before, after ++ more, by simp, isResult⟩

theorem Placed.last (start : Shared) (order : List (Nat × Call)) (number : Nat) (call : Call) :
    Placed atomic start (order ++ [(number, call)]) number call
      (atomic call (replay atomic start order)).1 :=
  ⟨order, [], rfl, rfl⟩

theorem Placed.mem_history (placed : Placed atomic start order number call result) :
    ((number, call), result) ∈ history atomic start order := by
  obtain ⟨before, after, rfl, rfl⟩ := placed
  rw [history, Runs.trace_append]
  exact List.mem_append_right _ List.mem_cons_self

theorem history_prefix {first : List (Nat × Call)} (isPrefix : first <+: order) :
    history atomic start first <+: history atomic start order := by
  obtain ⟨rest, rfl⟩ := isPrefix
  rw [history, history, Runs.trace_append]
  exact List.prefix_append ..

end Sequential

/-! ## What a step does -/

section Moves

variable {code : Code Shared Call Local Result}

/-- What the next statement of a task does. -/
inductive Advances (code : Code Shared Call Local Result)
    (system : System Shared Call Local Result) (number : Nat) :
    System Shared Call Local Result → Prop where
  | idle : Advances code system number system
  | returns (call : Call) (result : Result)
      (selected : system.tasks[number]? = some (.waiting call))
      (early : code.enter call = .inl result) :
      Advances code system number
        { system with
          tasks := system.tasks.set number (.returned call result)
          order := system.order ++ [(number, call)] }
  | enters (call : Call) (locals : Local)
      (selected : system.tasks[number]? = some (.waiting call))
      (entry : code.enter call = .inr locals) (free : system.owner = none) :
      Advances code system number
        { system with
          owner := some number
          tasks := system.tasks.set number (.inside call locals)
          order := system.order ++ [(number, call)] }
  | goesOn (call : Call) (locals next : Local) (shared : Shared)
      (selected : system.tasks[number]? = some (.inside call locals))
      (goes : code.step locals system.shared = (shared, .goOn next)) :
      Advances code system number
        { system with shared, tasks := system.tasks.set number (.inside call next) }
  | leaves (call : Call) (locals : Local) (result : Result) (shared : Shared)
      (selected : system.tasks[number]? = some (.inside call locals))
      (ends : code.step locals system.shared = (shared, .unlock result)) :
      Advances code system number
        { system with
          shared
          owner := none
          tasks := system.tasks.set number (.returned call result) }

theorem advances (code : Code Shared Call Local Result)
    (system : System Shared Call Local Result) (number : Nat) :
    Advances code system number (advance code system number) := by
  unfold advance
  split
  next call selected =>
    split
    next result early => exact .returns call result selected early
    next locals entry =>
      split
      next => exact .idle
      next free => exact .enters call locals selected entry free
  next call locals selected =>
    split
    next shared next goes => exact .goesOn call locals next shared selected goes
    next shared result ends => exact .leaves call locals result shared selected ends
  next => exact .idle

theorem Finishes.goesOn {locals next : Local} {shared between : Shared}
    {final : Result × Shared} (finishes : Finishes code.step locals shared final)
    (goes : code.step locals shared = (between, .goOn next)) :
    Finishes code.step next between final := by
  cases finishes with
  | last ends => cases goes.symm.trans ends
  | more other rest =>
      cases goes.symm.trans other
      exact rest

/-- What no statement can mend goes back from the last one to the first. -/
theorem Finishes.of_final {step : Local → Shared → Shared × Outcome Local Result}
    {safe : Shared → Prop} (mends : ∀ locals shared, safe (step locals shared).1 → safe shared)
    {locals : Local} {shared : Shared} {final : Result × Shared}
    (finishes : Finishes step locals shared final) (isSafe : safe final.2) : safe shared := by
  induction finishes with
  | last ends =>
      apply mends
      rw [ends]
      exact isSafe
  | more goes rest ih =>
      apply mends
      rw [goes]
      exact ih isSafe

/-- Statements in other words finish alike. -/
theorem Finishes.map {Other : Type*} {OtherResult : Type*}
    {step : Local → Shared → Shared × Outcome Local Result}
    {otherStep : Other → Shared → Shared × Outcome Other OtherResult}
    {image : Local → Other} {resultImage : Result → OtherResult}
    (same : ∀ locals shared, otherStep (image locals) shared =
      ((step locals shared).1, (step locals shared).2.map image resultImage))
    {locals : Local} {shared : Shared} {final : Result × Shared}
    (finishes : Finishes step locals shared final) :
    Finishes otherStep (image locals) shared (resultImage final.1, final.2) := by
  induction finishes with
  | last ends =>
      apply Finishes.last
      rw [same, ends]
      rfl
  | more goes rest ih =>
      refine Finishes.more ?_ ih
      rw [same, goes]
      rfl

/-- Statements in other words come the same way. -/
theorem Comes.of_map {Other : Type*} {OtherResult : Type*}
    {step : Local → Shared → Shared × Outcome Local Result}
    {otherStep : Other → Shared → Shared × Outcome Other OtherResult}
    {image : Local → Other} {resultImage : Result → OtherResult}
    (same : ∀ locals shared, otherStep (image locals) shared =
      ((step locals shared).1, (step locals shared).2.map image resultImage))
    {entry : Local} {found : Shared} {other : Other} {shared : Shared}
    (comes : Comes otherStep (image entry) found other shared) :
    ∃ locals, other = image locals ∧ Comes step entry found locals shared := by
  induction comes with
  | enters => exact ⟨entry, rfl, .enters⟩
  | goesOn _ goes ih =>
      obtain ⟨locals, rfl, earlier⟩ := ih
      rw [same] at goes
      obtain ⟨rfl, outcome⟩ := Prod.mk.inj goes
      cases next : (step locals _).2 with
      | unlock result =>
          rw [next] at outcome
          cases outcome
      | goOn following =>
          rw [next] at outcome
          cases outcome
          exact ⟨following, rfl, earlier.goesOn (Prod.ext rfl next)⟩

theorem Finishes.ends {locals : Local} {shared after : Shared} {result : Result}
    {final : Result × Shared} (finishes : Finishes code.step locals shared final)
    (ends : code.step locals shared = (after, .unlock result)) : final = (result, after) := by
  cases finishes with
  | last other =>
      cases ends.symm.trans other
      rfl
  | more goes rest => cases ends.symm.trans goes

end Moves

/-! ## What holds in every run -/

section Invariant

variable {code : Code Shared Call Local Result} {atomic : Call → Shared → Result × Shared}
  {start : Shared} {system : System Shared Call Local Result}

/-- A task before its lock has no place yet, and a returned one has its result from its place.
A task in its section has the lock, and on its way to the end it leads to the data after all
calls of the order. -/
def Task.Sound (code : Code Shared Call Local Result) (atomic : Call → Shared → Result × Shared)
    (start : Shared) (system : System Shared Call Local Result) (number : Nat) :
    Task Call Local Result → Prop
  | .waiting _ => ∀ call, (number, call) ∉ system.order
  | .inside call locals => system.owner = some number ∧ ∃ result,
      Finishes code.step locals system.shared (result, replay atomic start system.order) ∧
        Placed atomic start system.order number call result
  | .returned call result => Placed atomic start system.order number call result

/-- What every step keeps. -/
structure Consistent (code : Code Shared Call Local Result)
    (atomic : Call → Shared → Result × Shared) (start : Shared)
    (system : System Shared Call Local Result) : Prop where
  once : (system.order.map Prod.fst).Nodup
  known : ∀ entry ∈ system.order, entry.1 < system.tasks.length
  sound : Each (Task.Sound code atomic start system) system.tasks
  free : system.owner = none → system.shared = replay atomic start system.order
  holder : ∀ number, system.owner = some number →
    ∃ call locals, system.tasks[number]? = some (.inside call locals)

theorem consistent_init (code : Code Shared Call Local Result)
    (atomic : Call → Shared → Result × Shared) (start : Shared) :
    Consistent code atomic start (.init start) where
  once := List.nodup_nil
  known entry member := by cases member
  sound := .nil
  free _ := rfl
  holder number owns := by cases owns

/-- A task that did not have a place gets the last one. -/
theorem Consistent.once_append (consistent : Consistent code atomic start system) {number : Nat}
    {call : Call} (selected : system.tasks[number]? = some (.waiting call)) :
    ((system.order ++ [(number, call)]).map Prod.fst).Nodup := by
  have unplaced := consistent.sound number _ selected
  rw [List.map_append]
  apply List.nodup_append.mpr
  refine ⟨consistent.once, List.nodup_singleton _, ?_⟩
  intro first isFirst second isSecond same
  obtain ⟨⟨other, otherCall⟩, member, rfl⟩ := List.mem_map.mp isFirst
  have isNumber : other = number := same.trans (List.mem_singleton.mp isSecond)
  exact unplaced otherCall (isNumber ▸ member)

theorem Consistent.known_append (consistent : Consistent code atomic start system)
    {number : Nat} {call : Call} (selected : system.tasks[number]? = some (.waiting call))
    (task : Task Call Local Result) :
    ∀ entry ∈ system.order ++ [(number, call)],
      entry.1 < (system.tasks.set number task).length := by
  intro entry member
  rw [List.length_set]
  rcases List.mem_append.mp member with earlier | new
  · exact consistent.known entry earlier
  · obtain rfl := List.mem_singleton.mp new
    exact lt_of_selected selected

/-- Only one task is in its section. -/
theorem Consistent.owner_eq (consistent : Consistent code atomic start system) {number : Nat}
    {call : Call} {locals : Local}
    (selected : system.tasks[number]? = some (.inside call locals)) :
    system.owner = some number := (consistent.sound number _ selected).1

theorem Consistent.call (consistent : Consistent code atomic start system) (call : Call) :
    Consistent code atomic start (systemStep code system (.call call)) where
  once := consistent.once
  known entry member := by
    rw [systemStep, List.length_append]
    exact Nat.lt_add_right _ (consistent.known entry member)
  sound := by
    apply Each.join consistent.sound
    intro other member
    exact Nat.lt_irrefl _ (consistent.known _ member)
  free := consistent.free
  holder number owns := by
    obtain ⟨other, locals, selected⟩ := consistent.holder number owns
    refine ⟨other, locals, ?_⟩
    rw [systemStep, List.getElem?_append_left (lt_of_selected selected), selected]

/-- Behind a task that takes no part in it, an order may grow, and data may be changed that only
the holder of the lock looks at. -/
theorem Task.Sound.frame {other : System Shared Call Local Result} {number : Nat}
    {task : Task Call Local Result} (sound : Task.Sound code atomic start system number task)
    {more : List (Nat × Call)} (order : other.order = system.order ++ more)
    (apart : ∀ call, (number, call) ∉ more)
    (held : system.owner = some number → other.owner = system.owner ∧
      other.shared = system.shared ∧
      replay atomic start other.order = replay atomic start system.order) :
    Task.Sound code atomic start other number task := by
  cases task with
  | waiting call =>
      intro found member
      rw [order] at member
      rcases List.mem_append.mp member with earlier | new
      · exact sound found earlier
      · exact apart found new
  | inside call locals =>
      obtain ⟨owns, result, finishes, placed⟩ := sound
      obtain ⟨sameOwner, sameShared, sameReplay⟩ := held owns
      refine ⟨sameOwner.trans owns, result, ?_, ?_⟩
      · rw [sameShared, sameReplay]
        exact finishes
      · rw [order]
        exact placed.append more
  | returned call result =>
      change Placed _ _ other.order _ _ _
      rw [order]
      exact Placed.append sound more

/-- A call that returns before its lock leaves everything as it is. -/
theorem Implements.replay_early (implements : Implements code atomic) {call : Call}
    {result : Result} (early : code.enter call = .inl result) (start : Shared)
    (order : List (Nat × Call)) (number : Nat) :
    replay atomic start (order ++ [(number, call)]) = replay atomic start order := by
  rw [replay_append_singleton, implements.early call result early]

theorem Consistent.advance (consistent : Consistent code atomic start system)
    (implements : Implements code atomic) (number : Nat) :
    Consistent code atomic start (advance code system number) := by
  have moves := advances code system number
  generalize Sections.advance code system number = after at moves
  cases moves with
  | idle => exact consistent
  | returns call result selected early =>
      have unchanged := implements.replay_early early start system.order number
      constructor
      case once => exact consistent.once_append selected
      case known => exact consistent.known_append selected _
      case free => exact fun free => (consistent.free free).trans unchanged.symm
      case holder =>
        intro other owns
        obtain ⟨otherCall, locals, holds⟩ := consistent.holder other owns
        have apart : number ≠ other := by
          rintro rfl
          cases selected.symm.trans holds
        exact ⟨otherCall, locals, by rw [List.getElem?_set_ne apart, holds]⟩
      case sound =>
        apply Each.set
        · intro other task apart found
          apply (consistent.sound other task found).frame rfl
          · simp [apart]
          · exact fun _ => ⟨rfl, rfl, unchanged⟩
        · have result_eq := congrArg Prod.fst
            (implements.early call result early (replay atomic start system.order))
          have placed : Placed atomic start (system.order ++ [(number, call)]) number call _ :=
            .last start system.order number call
          rwa [result_eq] at placed
  | enters call locals selected entry free =>
      constructor
      case once => exact consistent.once_append selected
      case known => exact consistent.known_append selected _
      case free => exact fun isFree => by cases isFree
      case holder =>
        intro other owns
        obtain rfl := Option.some.inj owns
        exact ⟨call, locals, List.getElem?_set_self (lt_of_selected selected)⟩
      case sound =>
        apply Each.set
        · intro other task apart found
          apply (consistent.sound other task found).frame rfl
          · simp [apart]
          · exact fun owns => by cases free.symm.trans owns
        · refine ⟨rfl, (atomic call (replay atomic start system.order)).1, ?_, .last ..⟩
          have finishes := implements.sections call locals entry system.shared
          rw [consistent.free free] at finishes
          change Finishes code.step locals system.shared _
          rw [replay_append_singleton, consistent.free free]
          exact finishes
  | goesOn call locals next shared selected goes =>
      have owns := consistent.owner_eq selected
      obtain ⟨-, result, finishes, placed⟩ := consistent.sound number _ selected
      constructor
      case once => exact consistent.once
      case known =>
        intro entry member
        rw [List.length_set]
        exact consistent.known entry member
      case free => exact fun isFree => by cases owns.symm.trans isFree
      case holder =>
        intro other isOwner
        obtain rfl := Option.some.inj (owns.symm.trans isOwner)
        exact ⟨call, next, List.getElem?_set_self (lt_of_selected selected)⟩
      case sound =>
        apply Each.set
        · intro other task apart found
          refine (consistent.sound other task found).frame (List.append_nil _).symm ?_ ?_
          · simp
          · exact fun isOwner => absurd (Option.some.inj (isOwner.symm.trans owns)) apart
        · exact ⟨owns, result, finishes.goesOn goes, placed⟩
  | leaves call locals result shared selected ends =>
      have owns := consistent.owner_eq selected
      obtain ⟨-, final, finishes, placed⟩ := consistent.sound number _ selected
      obtain ⟨rfl, isShared⟩ := Prod.mk.inj (finishes.ends ends)
      constructor
      case once => exact consistent.once
      case known =>
        intro entry member
        rw [List.length_set]
        exact consistent.known entry member
      case free => exact fun _ => isShared.symm
      case holder => exact fun other isOwner => by cases isOwner
      case sound =>
        apply Each.set
        · intro other task apart found
          refine (consistent.sound other task found).frame (List.append_nil _).symm ?_ ?_
          · simp
          · exact fun isOwner => absurd (Option.some.inj (isOwner.symm.trans owns)) apart
        · exact placed

theorem Consistent.systemStep (consistent : Consistent code atomic start system)
    (implements : Implements code atomic) (step : Step Call) :
    Consistent code atomic start (systemStep code system step) := by
  cases step with
  | call call => exact consistent.call call
  | advance number => exact consistent.advance implements number

theorem consistent_system (implements : Implements code atomic) (start : Shared)
    (steps : List (Step Call)) : Consistent code atomic start (Sections.system code start steps) :=
  Runs.invariant_always (Consistent code atomic start)
    (fun _ step consistent => consistent.systemStep implements step) steps
    (consistent_init code atomic start)

theorem Consistent.linearizes (consistent : Consistent code atomic start system) :
    Linearizes atomic start system where
  once := consistent.once
  results number call result selected := consistent.sound number _ selected
  shared := consistent.free
  placed number call := by
    constructor
    · intro member
      have bound := consistent.known _ member
      have same : ∀ {other result}, Placed atomic start system.order number other result →
          other = call := by
        intro other result placed
        have entries := List.inj_on_of_nodup_map consistent.once placed.mem member rfl
        exact congrArg Prod.snd entries
      have selected := List.getElem?_eq_getElem bound
      have sound := consistent.sound number _ selected
      cases task : system.tasks[number] with
      | waiting other =>
          rw [task] at sound
          exact absurd member (sound call)
      | inside other locals =>
          rw [task] at sound
          obtain ⟨-, result, -, placed⟩ := sound
          exact .inl ⟨locals, by rw [selected, task, same placed]⟩
      | returned other result =>
          rw [task] at sound
          exact .inr ⟨result, by rw [selected, task, same sound]⟩
    · rintro (⟨locals, selected⟩ | ⟨result, selected⟩)
      · obtain ⟨-, result, -, placed⟩ := consistent.sound number _ selected
        exact placed.mem
      · exact Placed.mem (consistent.sound number _ selected)

/-- The order only grows. -/
theorem order_prefix_systemStep (code : Code Shared Call Local Result)
    (system : System Shared Call Local Result) (step : Step Call) :
    system.order <+: (Sections.systemStep code system step).order := by
  cases step with
  | call => exact List.prefix_rfl
  | advance number =>
      have moves := advances code system number
      change system.order <+: (advance code system number).order
      generalize advance code system number = after at moves
      cases moves with
      | idle | goesOn | leaves => exact List.prefix_rfl
      | returns | enters => exact List.prefix_append ..

theorem order_prefix_system (code : Code Shared Call Local Result) (start : Shared)
    {visited steps : List (Step Call)} (isPrefix : visited <+: steps) :
    (Sections.system code start visited).order <+: (Sections.system code start steps).order := by
  obtain ⟨later, rfl⟩ := isPrefix
  unfold Sections.system
  rw [Runs.run_append]
  exact Runs.invariant_always
    (fun reached : System Shared Call Local Result =>
      (Runs.run (Sections.systemStep code) (.init start) visited).order <+: reached.order)
    (fun reached step isPrefix => isPrefix.trans (order_prefix_systemStep code reached step))
    later List.prefix_rfl

/-- Calls that run without interruption if they are alone are linearizable, whatever the order
of their statements. A call that has returned before another one is made comes before it. -/
theorem linearizes_run (implements : Implements code atomic) (start : Shared)
    (steps : List (Step Call)) :
    Linearizes atomic start (Sections.system code start steps) ∧
      ∀ visited, visited <+: steps →
        (Sections.system code start visited).order <+: (Sections.system code start steps).order :=
  ⟨(consistent_system implements start steps).linearizes,
    fun _ isPrefix => order_prefix_system code start isPrefix⟩

/-- The calls have one history, in which each that has returned has its result. -/
theorem history_run (implements : Implements code atomic) (start : Shared)
    (steps : List (Step Call)) :
    let events := history atomic start (Sections.system code start steps).order
    (events.map fun event => event.1.1).Nodup ∧
    (∀ (number : Nat) (call : Call) (result : Result),
      (Sections.system code start steps).tasks[number]? = some (.returned call result) →
        ((number, call), result) ∈ events) ∧
    ∀ visited, visited <+: steps →
      history atomic start (Sections.system code start visited).order <+: events := by
  have consistent := consistent_system implements start steps
  refine ⟨?_, ?_, ?_⟩
  case refine_1 =>
    have calls := Runs.map_fst_trace (fun shared entry => atomic entry.2 shared) start
      (Sections.system code start steps).order
    have numbers := consistent.once
    rw [← calls, List.map_map] at numbers
    exact numbers
  case refine_2 =>
    intro number call result selected
    exact Placed.mem_history (consistent.sound number _ selected)
  case refine_3 =>
    intro visited isPrefix
    exact history_prefix (order_prefix_system code start isPrefix)

/-- What every call keeps if it runs alone holds whenever nobody has the lock. -/
theorem invariant_free (implements : Implements code atomic) (invariant : Shared → Prop)
    (kept : ∀ call shared, invariant shared → invariant (atomic call shared).2)
    (initially : invariant start) (steps : List (Step Call))
    (free : (Sections.system code start steps).owner = none) :
    invariant (Sections.system code start steps).shared := by
  rw [(consistent_system implements start steps).free free]
  exact Runs.invariant_always invariant (fun shared entry holds => kept entry.2 shared holds)
    (Sections.system code start steps).order initially

/-- A task in its section has come there from the data after all calls before its own. -/
def Task.Comes (code : Code Shared Call Local Result) (atomic : Call → Shared → Result × Shared)
    (start : Shared) (system : System Shared Call Local Result) (number : Nat) :
    Task Call Local Result → Prop
  | .inside call locals => ∃ before behind entry,
      system.order = before ++ (number, call) :: behind ∧ code.enter call = .inr entry ∧
        Sections.Comes code.step entry (replay atomic start before) locals system.shared
  | _ => True

/-- Only the holder changes the data, and an order only grows. -/
theorem Task.Comes.frame {other : System Shared Call Local Result} {number : Nat}
    {task : Task Call Local Result} (comes : Task.Comes code atomic start system number task)
    {more : List (Nat × Call)} (order : other.order = system.order ++ more)
    (held : (∃ call locals, task = .inside call locals) → other.shared = system.shared) :
    Task.Comes code atomic start other number task := by
  cases task with
  | waiting | returned => trivial
  | inside call locals =>
      obtain ⟨before, behind, entry, place, enters, path⟩ := comes
      refine ⟨before, behind ++ more, entry, ?_, enters, ?_⟩
      · rw [order, place, List.append_assoc, List.cons_append]
      · rw [held ⟨call, locals, rfl⟩]
        exact path

theorem comes_advance (consistent : Consistent code atomic start system)
    (comes : Each (Task.Comes code atomic start system) system.tasks) (number : Nat) :
    Each (Task.Comes code atomic start (Sections.advance code system number))
      (Sections.advance code system number).tasks := by
  have moves := advances code system number
  generalize Sections.advance code system number = after at moves
  cases moves with
  | idle => exact comes
  | returns call result selected early =>
      apply Each.set
      · intro other task _ found
        exact (comes other task found).frame rfl fun _ => rfl
      · trivial
  | enters call locals selected entry free =>
      apply Each.set
      · intro other task _ found
        exact (comes other task found).frame rfl fun _ => rfl
      · refine ⟨system.order, [], locals, rfl, entry, ?_⟩
        rw [← consistent.free free]
        exact .enters
  | goesOn call locals next shared selected goes =>
      have owns := consistent.owner_eq selected
      apply Each.set
      · intro other task apart found
        refine (comes other task found).frame (List.append_nil _).symm ?_
        rintro ⟨otherCall, otherLocals, rfl⟩
        exact absurd (Option.some.inj ((consistent.owner_eq found).symm.trans owns)) apart
      · obtain ⟨before, behind, entry, place, enters, path⟩ := comes number _ selected
        exact ⟨before, behind, entry, place, enters, path.goesOn goes⟩
  | leaves call locals result shared selected ends =>
      have owns := consistent.owner_eq selected
      apply Each.set
      · intro other task apart found
        refine (comes other task found).frame (List.append_nil _).symm ?_
        rintro ⟨otherCall, otherLocals, rfl⟩
        exact absurd (Option.some.inj ((consistent.owner_eq found).symm.trans owns)) apart
      · trivial

/-- Where a section comes from and where it leads: from the data after all calls before its own to
the data after all calls of the order. -/
theorem inside_run (implements : Implements code atomic) (start : Shared)
    (steps : List (Step Call)) {number : Nat} {call : Call} {locals : Local}
    (selected : (Sections.system code start steps).tasks[number]? = some (.inside call locals)) :
    ∃ before behind entry result,
      (Sections.system code start steps).order = before ++ (number, call) :: behind ∧
      code.enter call = .inr entry ∧
      Comes code.step entry (replay atomic start before) locals
        (Sections.system code start steps).shared ∧
      Finishes code.step locals (Sections.system code start steps).shared
        (result, replay atomic start (Sections.system code start steps).order) := by
  have both : Consistent code atomic start (Sections.system code start steps) ∧
      Each (Task.Comes code atomic start (Sections.system code start steps))
        (Sections.system code start steps).tasks := by
    refine Runs.invariant_always (fun reached => Consistent code atomic start reached ∧
      Each (Task.Comes code atomic start reached) reached.tasks) ?_ steps
      ⟨consistent_init code atomic start, .nil⟩
    intro reached step holds
    refine ⟨holds.1.systemStep implements step, ?_⟩
    cases step with
    | call call =>
        apply Each.join
        · intro number task found
          exact (holds.2 number task found).frame (List.append_nil _).symm fun _ => rfl
        · trivial
    | advance number => exact comes_advance holds.1 holds.2 number
  obtain ⟨-, result, finishes, -⟩ := both.1.sound number _ selected
  obtain ⟨before, behind, entry, place, enters, path⟩ := both.2 number _ selected
  exact ⟨before, behind, entry, result, place, enters, path, finishes⟩

/-- The statements of a section have one end. -/
theorem Finishes.unique {step : Local → Shared → Shared × Outcome Local Result} {locals : Local}
    {shared : Shared} {first second : Result × Shared}
    (finishes : Finishes step locals shared first)
    (other : Finishes step locals shared second) : first = second := by
  induction finishes with
  | last ends =>
      cases other with
      | last otherEnds =>
          cases ends.symm.trans otherEnds
          rfl
      | more goes => cases ends.symm.trans goes
  | more goes _ ih =>
      cases other with
      | last otherEnds => cases goes.symm.trans otherEnds
      | more otherGoes rest =>
          cases goes.symm.trans otherGoes
          exact ih rest

/-! ## Every call can return -/

/-- Statements of tasks that have been called. -/
def Continues (code : Code Shared Call Local Result)
    (system after : System Shared Call Local Result) : Prop :=
  ∃ numbers : List Nat, after = Runs.run (Sections.advance code) system numbers

theorem Continues.refl (system : System Shared Call Local Result) :
    Continues code system system := ⟨[], rfl⟩

theorem Continues.next {after : System Shared Call Local Result} {number : Nat}
    (continues : Continues code (Sections.advance code system number) after) :
    Continues code system after := by
  obtain ⟨numbers, rfl⟩ := continues
  exact ⟨number :: numbers, rfl⟩

theorem Continues.trans {between after : System Shared Call Local Result}
    (first : Continues code system between) (second : Continues code between after) :
    Continues code system after := by
  obtain ⟨numbers, rfl⟩ := first
  obtain ⟨others, rfl⟩ := second
  exact ⟨numbers ++ others, (Runs.run_append ..).symm⟩

/-- A task in its section gets to its unlock by statements of its own. -/
theorem Finishes.exists_returned {locals : Local} {shared : Shared} {final : Result × Shared}
    (finishes : Finishes code.step locals shared final)
    {system : System Shared Call Local Result} {number : Nat} {call : Call}
    (selected : system.tasks[number]? = some (.inside call locals))
    (isShared : system.shared = shared) :
    ∃ after, Continues code system after ∧ after.owner = none ∧
      after.tasks = system.tasks.set number (.returned call final.1) := by
  induction finishes generalizing system with
  | last ends =>
      refine ⟨Sections.advance code system number, (Continues.refl _).next, ?_, ?_⟩
      · simp only [Sections.advance, selected, isShared, ends]
      · simp only [Sections.advance, selected, isShared, ends]
  | @more locals next shared between final goes rest ih =>
      have moved : Sections.advance code system number =
          { system with
            shared := between
            tasks := system.tasks.set number (.inside call next) } := by
        simp only [Sections.advance, selected, isShared, goes]
      have next_selected : (Sections.advance code system number).tasks[number]? =
          some (.inside call next) := by
        rw [moved]
        exact List.getElem?_set_self (lt_of_selected selected)
      have next_shared : (Sections.advance code system number).shared = between := by rw [moved]
      obtain ⟨after, continues, free, tasks⟩ := ih next_selected next_shared
      refine ⟨after, continues.next, free, ?_⟩
      rw [tasks, moved, List.set_set]

/-- Whoever has the lock can give it back; the tasks before their locks stay there. -/
theorem Consistent.exists_free (consistent : Consistent code atomic start system) :
    ∃ after, Continues code system after ∧ after.owner = none ∧
      ∀ (number : Nat) (task : Task Call Local Result), system.tasks[number]? = some task →
        (∀ call locals, task ≠ .inside call locals) → after.tasks[number]? = some task := by
  cases owner : system.owner with
  | none => exact ⟨system, .refl system, owner, fun _ _ selected _ => selected⟩
  | some holder =>
      obtain ⟨call, locals, holds⟩ := consistent.holder holder owner
      obtain ⟨-, result, finishes, -⟩ := consistent.sound holder _ holds
      obtain ⟨after, continues, free, tasks⟩ := finishes.exists_returned holds rfl
      refine ⟨after, continues, free, ?_⟩
      intro number task selected outside
      have apart : holder ≠ number := by
        rintro rfl
        exact outside call locals (Option.some.inj (selected.symm.trans holds))
      rw [tasks, List.getElem?_set_ne apart, selected]

/-- While nobody has the lock, a task before its lock can run up to its return. -/
theorem Consistent.exists_returned_of_free (consistent : Consistent code atomic start system)
    (implements : Implements code atomic) (free : system.owner = none) {number : Nat}
    {call : Call} (selected : system.tasks[number]? = some (.waiting call)) :
    ∃ after result, Continues code system after ∧
      after.tasks[number]? = some (.returned call result) := by
  have inside := lt_of_selected selected
  cases entry : code.enter call with
  | inl result =>
      refine ⟨Sections.advance code system number, result, (Continues.refl _).next, ?_⟩
      simp only [Sections.advance, selected, entry]
      exact List.getElem?_set_self inside
  | inr locals =>
      have entered : Sections.advance code system number =
          { system with
            owner := some number
            tasks := system.tasks.set number (.inside call locals)
            order := system.order ++ [(number, call)] } := by
        simp only [Sections.advance, selected, entry, free]
      have isInside : (Sections.advance code system number).tasks[number]? =
          some (.inside call locals) := by
        rw [entered]
        exact List.getElem?_set_self inside
      obtain ⟨-, result, finishes, -⟩ :=
        (consistent.advance implements number).sound number _ isInside
      obtain ⟨after, continues, -, tasks⟩ := finishes.exists_returned isInside rfl
      refine ⟨after, result, continues.next, ?_⟩
      rw [tasks]
      exact List.getElem?_set_self (lt_of_selected isInside)

/-- In every state that can be reached, every call can still return, by statements of the calls
that are under way: no return keeps the lock. -/
theorem exists_returned (implements : Implements code atomic) (start : Shared)
    (steps : List (Step Call)) {number : Nat}
    (called : number < (Sections.system code start steps).tasks.length) :
    ∃ after call result, Continues code (Sections.system code start steps) after ∧
      after.tasks[number]? = some (.returned call result) := by
  have consistent := consistent_system implements start steps
  have selected := List.getElem?_eq_getElem called
  cases task : (Sections.system code start steps).tasks[number] with
  | waiting call =>
      rw [task] at selected
      obtain ⟨between, continues, free, others⟩ := consistent.exists_free
      have reached : Consistent code atomic start between := by
        obtain ⟨numbers, rfl⟩ := continues
        exact Runs.invariant_always (Consistent code atomic start)
          (fun _ number consistent => consistent.advance implements number) numbers consistent
      obtain ⟨after, result, later, returned⟩ :=
        reached.exists_returned_of_free implements free (others number _ selected (by simp))
      exact ⟨after, call, result, continues.trans later, returned⟩
  | inside call locals =>
      rw [task] at selected
      obtain ⟨-, result, finishes, -⟩ := consistent.sound number _ selected
      obtain ⟨after, continues, -, tasks⟩ := finishes.exists_returned selected rfl
      refine ⟨after, call, result, continues, ?_⟩
      rw [tasks]
      exact List.getElem?_set_self called
  | returned call result =>
      exact ⟨_, call, result, .refl _, by rw [selected, task]⟩

/-- What no statement can mend and every call keeps if it runs alone holds in every state, also
inside of a section. -/
theorem invariant_always (implements : Implements code atomic) (invariant safe : Shared → Prop)
    (kept : ∀ call shared, invariant shared → invariant (atomic call shared).2)
    (isSafe : ∀ shared, invariant shared → safe shared)
    (mends : ∀ locals shared, safe (code.step locals shared).1 → safe shared)
    (initially : invariant start) (steps : List (Step Call)) :
    safe (Sections.system code start steps).shared := by
  have consistent := consistent_system implements start steps
  have sequential : safe (replay atomic start (Sections.system code start steps).order) :=
    isSafe _ (Runs.invariant_always invariant
      (fun shared entry holds => kept entry.2 shared holds) _ initially)
  cases owner : (Sections.system code start steps).owner with
  | none =>
      rw [consistent.free owner]
      exact sequential
  | some holder =>
      obtain ⟨call, locals, holds⟩ := consistent.holder holder owner
      obtain ⟨-, result, finishes, -⟩ := consistent.sound holder _ holds
      exact finishes.of_final mends sequential

end Invariant

end Sections
