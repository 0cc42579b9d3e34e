import Aesd.Library.Descriptors
import Aesd.Library.Runs

/-!
# Commands that are executed

`examples/systemcalls` executes commands in a child process, one of the functions with its output
in a file. The file is opened before the fork, so the descriptors of both processes come into it:
what the command finds, and what the caller is left with when the fork fails.
-/

namespace Aesd.Systemcalls

open Descriptors

universe u

variable {File : Type u}

/-! ## The calls -/

/-- The status that `waitpid` reports. -/
inductive WaitStatus where
  | exited (code : UInt8)
  | signaled (signal : Nat)
  deriving DecidableEq, Repr

/-- Whether `fork`, `execv` and `waitpid` succeed, and how the command ends if it is executed. -/
structure Outcome where
  forks : Bool
  executes : Bool
  ends : WaitStatus
  waits : Bool
  deriving DecidableEq, Repr

/-- What becomes of a child: it exits, or executes a command with its descriptors. -/
inductive Child (File : Type u) where
  | exits (code : UInt8)
  | executes (command : List String) (table : Table File)

/-- What a call returns, the child it has made, and the descriptors of the caller. -/
structure Result (File : Type u) where
  success : Bool
  child : Option (Child File)
  table : Table File

/-- The status of a child, for a command that ends in this way. -/
def Child.status (child : Child File) (ends : WaitStatus) : WaitStatus :=
  match child with
  | .exits code => .exited code
  | .executes _ _ => ends

/-- `do_system`, where `system` returns -1 or a status. -/
def doSystem (res : Option WaitStatus) (table : Table File) : Result File :=
  match res with
  | none => ⟨false, none, table⟩
  | some _ => ⟨true, none, table⟩

/-- The wait of the caller. -/
def waitChild (waits : Bool) (status : WaitStatus) : Bool :=
  if waits = false then false
  else
    match status with
    | .exited code => if code ≠ 0 then false else true
    | .signaled _ => false

/-- `execv` in the child, and its exit if that fails. -/
def execv (executes : Bool) (command : List String) (table : Table File) : Child File :=
  if executes then .executes command table else .exits 1

/-- `do_exec`. -/
def doExec (command : List String) (outcome : Outcome) (table : Table File) : Result File :=
  if outcome.forks = false then ⟨false, none, table⟩
  else
    let child := execv outcome.executes command table
    ⟨waitChild outcome.waits (child.status outcome.ends), some child, table⟩

/-- The child of `do_exec_redirect`: `dup2`, `close` and `execv`. -/
def redirectChild (fd : Nat) (command : List String) (duplicates executes : Bool)
    (table : Table File) : Child File :=
  if duplicates = false then .exits 1
  else execv executes command ((table.dup2 fd 1).close fd)

/-- `do_exec_redirect`. A fork that fails returns before the file is closed. -/
def doExecRedirect (outputfile : File) (command : List String) (opens duplicates : Bool)
    (outcome : Outcome) (table : Table File) : Result File :=
  if opens = false then ⟨false, none, table⟩
  else
    let fd := table.lowest
    let opened := table.openFile outputfile
    if outcome.forks = false then ⟨false, none, opened⟩
    else
      let child := redirectChild fd command duplicates outcome.executes opened
      ⟨waitChild outcome.waits (child.status outcome.ends), some child, opened.close fd⟩

/-- A call of one of the functions. -/
inductive Call (File : Type u) where
  | system (res : Option WaitStatus)
  | exec (command : List String) (outcome : Outcome)
  | execRedirect (outputfile : File) (command : List String) (opens duplicates : Bool)
      (outcome : Outcome)

/-- One call. -/
def perform (table : Table File) : Call File → Result File
  | .system res => doSystem res table
  | .exec command outcome => doExec command outcome table
  | .execRedirect outputfile command opens duplicates outcome =>
      doExecRedirect outputfile command opens duplicates outcome table

/-- The descriptors of the caller after some calls. -/
def callerTable (calls : List (Call File)) (table : Table File) : Table File :=
  Runs.run (fun table call => (perform table call).table) table calls

/-! ## What is expected of them -/

namespace Call

/-- The command of a call. -/
def command : Call File → List String
  | .system _ => []
  | .exec command _ | .execRedirect _ command _ _ _ => command

/-- The file that a call leaves open. -/
def leaked : Call File → List File
  | .execRedirect outputfile _ true _ outcome => if outcome.forks then [] else [outputfile]
  | _ => []

/-- The descriptors that the command of a call finds, for those of the caller. If the caller has
no standard output, the file may be opened as that, and is closed again. -/
def commandTable (table : Table File) : Call File → Table File
  | .execRedirect outputfile _ _ _ _ =>
      table.set 1 (if table.lowest = 1 then none else some outputfile)
  | _ => table

/-- The outcomes with which a call is a success. -/
def Succeeds : Call File → Prop
  | .system res => res ≠ none
  | .exec _ outcome =>
      outcome.forks = true ∧ outcome.executes = true ∧ outcome.waits = true ∧
        outcome.ends = .exited 0
  | .execRedirect _ _ opens duplicates outcome =>
      opens = true ∧ duplicates = true ∧ outcome.forks = true ∧ outcome.executes = true ∧
        outcome.waits = true ∧ outcome.ends = .exited 0

end Call

/-! ## What a call does -/

theorem waitChild_iff {waits : Bool} {status : WaitStatus} :
    waitChild waits status = true ↔ waits = true ∧ status = .exited 0 := by
  cases waits with
  | false => simp [waitChild]
  | true =>
      cases status with
      | exited code => simp [waitChild]
      | signaled signal => simp [waitChild]

/-- A child that has executed no command does not exit with 0. -/
theorem status_execv_iff {executes : Bool} {command : List String} {table : Table File}
    {ends : WaitStatus} : (execv executes command table).status ends = .exited 0 ↔
      executes = true ∧ ends = .exited 0 := by
  cases executes with
  | false => simp [execv, Child.status]
  | true => simp [execv, Child.status]

theorem status_redirectChild_iff {fd : Nat} {command : List String} {duplicates executes : Bool}
    {table : Table File} {ends : WaitStatus} :
    (redirectChild fd command duplicates executes table).status ends = .exited 0 ↔
      duplicates = true ∧ executes = true ∧ ends = .exited 0 := by
  cases duplicates with
  | false => simp [redirectChild, Child.status]
  | true => simp [redirectChild, status_execv_iff]

theorem of_execv_eq {executes : Bool} {command found : List String} {table after : Table File}
    (becomes : execv executes command table = .executes found after) :
    found = command ∧ after = table := by
  cases executes with
  | false => cases becomes
  | true =>
      cases becomes
      exact ⟨rfl, rfl⟩

/-- The child's standard output is the file, unless that was opened there. -/
theorem redirect_table (table : Table File) (outputfile : File) :
    ((table.openFile outputfile).dup2 table.lowest 1).close table.lowest =
      table.set 1 (if table.lowest = 1 then none else some outputfile) := by
  ext1
  funext fd
  have unused := table.get_lowest
  by_cases same : fd = table.lowest
  case pos =>
    subst same
    simp
  case neg =>
    by_cases output : fd = 1
    case pos =>
      subst output
      simp [same, Ne.symm same]
    case neg => simp [same, output]

theorem perform_table (table : Table File) (call : Call File) :
    (perform table call).table = table.openAll call.leaked := by
  cases call with
  | system res => cases res <;> rfl
  | exec command outcome =>
      simp only [perform, doExec]
      split
      all_goals rfl
  | execRedirect outputfile command opens duplicates outcome =>
      cases opens with
      | false => rfl
      | true =>
          cases forks : outcome.forks with
          | false => simp [perform, doExecRedirect, Call.leaked, forks]
          | true =>
              simp [perform, doExecRedirect, Call.leaked, forks, Table.close_openFile]

theorem perform_child {table found : Table File} {call : Call File} {command : List String}
    (executes : (perform table call).child = some (.executes command found)) :
    command = call.command ∧ found = call.commandTable table := by
  cases call with
  | system res => cases res <;> cases executes
  | exec requested outcome =>
      simp only [perform, doExec] at executes
      split at executes
      next => cases executes
      next => exact of_execv_eq (Option.some.inj executes)
  | execRedirect outputfile requested opens duplicates outcome =>
      simp only [perform, doExecRedirect] at executes
      split at executes
      next => cases executes
      next =>
        split at executes
        next => cases executes
        next =>
          have becomes := Option.some.inj executes
          unfold redirectChild at becomes
          split at becomes
          next => cases becomes
          next =>
            obtain ⟨sameCommand, sameTable⟩ := of_execv_eq becomes
            exact ⟨sameCommand, sameTable.trans (redirect_table table outputfile)⟩

theorem perform_success_iff (table : Table File) (call : Call File) :
    (perform table call).success = true ↔ call.Succeeds := by
  cases call with
  | system res =>
      cases res with
      | none => simp [perform, doSystem, Call.Succeeds]
      | some status => simp [perform, doSystem, Call.Succeeds]
  | exec command outcome =>
      cases forks : outcome.forks with
      | false => simp [perform, doExec, Call.Succeeds, forks]
      | true =>
          simp only [perform, doExec, Call.Succeeds, forks, Bool.true_eq_false, if_false,
            waitChild_iff, status_execv_iff]
          tauto
  | execRedirect outputfile command opens duplicates outcome =>
      cases opens with
      | false => simp [perform, doExecRedirect, Call.Succeeds]
      | true =>
          cases forks : outcome.forks with
          | false => simp [perform, doExecRedirect, Call.Succeeds, forks]
          | true =>
              simp only [perform, doExecRedirect, Call.Succeeds, forks, Bool.true_eq_false,
                if_false, waitChild_iff, status_redirectChild_iff]
              tauto

/-! ## Any calls one after another -/

theorem callerTable_eq (calls : List (Call File)) (table : Table File) :
    callerTable calls table = table.openAll (calls.flatMap Call.leaked) := by
  induction calls generalizing table with
  | nil => rfl
  | cons call calls ih =>
      calc callerTable (call :: calls) table
          = callerTable calls (perform table call).table := rfl
        _ = (table.openAll call.leaked).openAll (calls.flatMap Call.leaked) := by
            rw [perform_table, ih]
        _ = table.openAll ((call :: calls).flatMap Call.leaked) := by
            rw [List.flatMap_cons, Table.openAll_append]

/-- After any calls the caller has its descriptors, and one more for each file whose call could not
fork. The command of the next call finds these, with the file as its standard output unless the
caller had none and the file was opened in its place. The call is a success exactly if the command
was executed, exited with 0 and was waited for. A descriptor that is closed on `execv`, and what the
shell of `system` finds, are not looked at. -/
theorem commands_run (calls : List (Call File)) (call : Call File) (table : Table File) :
    callerTable calls table = table.openAll (calls.flatMap Call.leaked) ∧
    (∀ (command : List String) (found : Table File),
      (perform (callerTable calls table) call).child = some (.executes command found) →
        command = call.command ∧
          found = call.commandTable (table.openAll (calls.flatMap Call.leaked))) ∧
    ((perform (callerTable calls table) call).success = true ↔ call.Succeeds) := by
  refine ⟨callerTable_eq calls table, ?_, perform_success_iff _ call⟩
  intro command found executes
  rw [callerTable_eq] at executes
  exact perform_child executes

end Aesd.Systemcalls
