import Aesd.Library.Descriptors

/-!
# How the server starts

`main` before its accept loop: it gets a socket, becomes a daemon if it is asked to, and listens.
`daemon_create` opens `/dev/null` three times to put it on the descriptors 0, 1 and 2. By then the
socket is open, and nothing has been closed.
-/

namespace Aesd

open Descriptors

/-- The files the server may have open: `/dev/null`, the listening socket, the connection to the
system log, and what it was started with. -/
inductive ServerFile where
  | devNull
  | listening
  | log
  | inherited (number : Nat)
  deriving DecidableEq, Repr

/-- The outcome of `fork`, for the process that goes on from there. -/
inductive Forked where
  | failed
  | parent
  | child
  deriving DecidableEq, Repr

/-- The outcomes of `fork`, `setsid`, `chdir` and the three calls of `open`. -/
structure DaemonOutcome where
  fork : Forked
  setsid : Bool
  chdir : Bool
  opens : Fin 3 → Bool

/-- A process exits in `daemon_create`, or returns from it with its descriptors. -/
inductive DaemonResult where
  | exits (code : Int)
  | returns (value : Int) (table : Table ServerFile)

/-- `open("/dev/null", O_RDWR)`. -/
def openNull (succeeds : Bool) (table : Table ServerFile) : Table ServerFile :=
  if succeeds then table.openFile .devNull else table

/-- `daemon_create`. -/
def daemonCreate (outcome : DaemonOutcome) (table : Table ServerFile) : DaemonResult :=
  match outcome.fork with
  | .failed => .returns (-1) table
  | .parent => .exits 0
  | .child =>
      if outcome.setsid = false then .returns (-1) table
      else if outcome.chdir = false then .returns (-1) table
      else
        .returns 0 (openNull (outcome.opens 2) (openNull (outcome.opens 1)
          (openNull (outcome.opens 0) table)))

/-- `syslog`. The first message opens the connection to the log, if it is to be had. -/
def syslog (connects : Bool) (table : Table ServerFile) : Table ServerFile :=
  if connects then table.openFile .log else table

/-- The outcomes of the calls that `main` makes before its loop. -/
structure StartupOutcome where
  signalInit : Bool
  getaddrinfo : Bool
  servinfo : Bool
  socket : Bool
  setsockopt : Bool
  bind : Bool
  daemon : DaemonOutcome
  connects : Bool
  listen : Bool

/-- A process exits, returns from `main`, or comes to the loop with its socket and its
descriptors. -/
inductive Startup where
  | exits (code : Int)
  | returns (value : Int)
  | listens (sfd : Nat) (table : Table ServerFile)

/-- Where `main` ends if it does not come to have a bound socket. -/
def StartupOutcome.ends (outcome : StartupOutcome) : Option Startup :=
  if outcome.signalInit = false then some (.exits 1)
  else if outcome.getaddrinfo = false then some (.returns (-1))
  else if outcome.servinfo = false then some (.returns (-1))
  else if outcome.socket = false then some (.returns (-1))
  else if outcome.setsockopt = false then some (.returns (-1))
  else if outcome.bind = false then some (.returns (-1))
  else none

/-- `main` from `listen` to its loop. -/
def startListening (outcome : StartupOutcome) (sfd : Nat) (table : Table ServerFile) : Startup :=
  if outcome.listen = false then .returns (-1) else .listens sfd table

/-- `main` before its loop, for its arguments after the name of the program. A first argument that
is not `-d` is logged. With `-d` it goes on whether it has become a daemon or not. -/
def mainStartup (arguments : List String) (outcome : StartupOutcome) (table : Table ServerFile) :
    Startup :=
  let daemonFlag := arguments.head? == some "-d"
  let logged :=
    if arguments ≠ [] ∧ daemonFlag = false then syslog outcome.connects table else table
  match outcome.ends with
  | some startup => startup
  | none =>
      let sfd := logged.lowest
      let bound := logged.openFile .listening
      if daemonFlag = true then
        match daemonCreate outcome.daemon bound with
        | .exits code => .exits code
        | .returns _ after => startListening outcome sfd (syslog outcome.connects after)
      else startListening outcome sfd bound

/-! ## What the calls open -/

theorem exists_openNull (succeeds : Bool) (table : Table ServerFile) :
    ∃ files, openNull succeeds table = table.openAll files := by
  cases succeeds with
  | false => exact ⟨[], rfl⟩
  | true => exact ⟨[.devNull], rfl⟩

theorem exists_syslog (connects : Bool) (table : Table ServerFile) :
    ∃ files, (∀ file ∈ files, file = .log) ∧ syslog connects table = table.openAll files := by
  cases connects with
  | false => exact ⟨[], by simp, rfl⟩
  | true => exact ⟨[.log], by simp, rfl⟩

/-- `daemon_create` closes nothing. -/
theorem exists_daemonCreate {outcome : DaemonOutcome} {table after : Table ServerFile}
    {value : Int} (returned : daemonCreate outcome table = .returns value after) :
    ∃ files, after = table.openAll files := by
  unfold daemonCreate at returned
  split at returned
  next =>
    cases returned
    exact ⟨[], rfl⟩
  next => cases returned
  next =>
    split at returned
    next =>
      cases returned
      exact ⟨[], rfl⟩
    next =>
      split at returned
      next =>
        cases returned
        exact ⟨[], rfl⟩
      next =>
        cases returned
        obtain ⟨first, opensFirst⟩ := exists_openNull (outcome.opens 0) table
        obtain ⟨second, opensSecond⟩ := exists_openNull (outcome.opens 1) (table.openAll first)
        obtain ⟨third, opensThird⟩ :=
          exists_openNull (outcome.opens 2) ((table.openAll first).openAll second)
        refine ⟨first ++ (second ++ third), ?_⟩
        rw [opensFirst, opensSecond, opensThird, Table.openAll_append, Table.openAll_append]

theorem StartupOutcome.ends_ne (outcome : StartupOutcome) {sfd : Nat} {table : Table ServerFile} :
    outcome.ends ≠ some (.listens sfd table) := by
  unfold ends
  repeat' split
  all_goals simp

theorem of_startListening {outcome : StartupOutcome} {sfd fd : Nat}
    {table after : Table ServerFile}
    (listens : startListening outcome sfd table = .listens fd after) :
    fd = sfd ∧ after = table := by
  unfold startListening at listens
  split at listens
  next => cases listens
  next =>
    cases listens
    exact ⟨rfl, rfl⟩

/-- Up to the loop `main` closes nothing. It opens the socket, after a connection to the log or
not, and then other files. -/
theorem exists_mainStartup {arguments : List String} {outcome : StartupOutcome}
    {table after : Table ServerFile} {sfd : Nat}
    (listens : mainStartup arguments outcome table = .listens sfd after) :
    ∃ logged later, (∀ file ∈ logged, file = ServerFile.log) ∧
      sfd = (table.openAll logged).lowest ∧
      after = ((table.openAll logged).openFile .listening).openAll later := by
  obtain ⟨logged, logs, isLogged⟩ : ∃ files, (∀ file ∈ files, file = ServerFile.log) ∧
      (if arguments ≠ [] ∧ (arguments.head? == some "-d") = false then
        syslog outcome.connects table else table) = table.openAll files := by
    split
    next => exact exists_syslog outcome.connects table
    next => exact ⟨[], by simp, rfl⟩
  unfold mainStartup at listens
  simp only [isLogged] at listens
  cases ends : outcome.ends with
  | some startup =>
      rw [ends] at listens
      obtain rfl : startup = .listens sfd after := listens
      exact absurd ends outcome.ends_ne
  | none =>
      simp only [ends] at listens
      split at listens
      next =>
        split at listens
        next => cases listens
        next value created becomes =>
          obtain ⟨rfl, rfl⟩ := of_startListening listens
          obtain ⟨nulls, rfl⟩ := exists_daemonCreate becomes
          obtain ⟨message, -, isMessage⟩ := exists_syslog outcome.connects
            (((table.openAll logged).openFile .listening).openAll nulls)
          refine ⟨logged, nulls ++ message, logs, rfl, ?_⟩
          rw [isMessage, Table.openAll_append]
      next =>
        obtain ⟨rfl, rfl⟩ := of_startListening listens
        exact ⟨logged, [], logs, rfl, rfl⟩

/-- However `main` is started, if it comes to its loop, everything that was open is still open, and
its socket is on a descriptor that was unused. The descriptors 0, 1 and 2 are on `/dev/null` exactly
if all of them were before: if one of them is missing, the socket takes it, or the log. -/
theorem mainStartup_standard (arguments : List String) (outcome : StartupOutcome)
    (table after : Table ServerFile) (sfd : Nat)
    (listens : mainStartup arguments outcome table = .listens sfd after) :
    (∀ (fd : Nat) (file : ServerFile), table.get fd = some file → after.get fd = some file) ∧
    after.get sfd = some .listening ∧ table.get sfd = none ∧
    ((∀ fd < 3, after.get fd = some .devNull) ↔ ∀ fd < 3, table.get fd = some .devNull) := by
  obtain ⟨logged, later, logs, rfl, rfl⟩ := exists_mainStartup listens
  refine ⟨?_, ?_, ?_, ?_⟩
  case refine_1 =>
    intro fd file used
    exact Table.get_openAll_of_some
      (Table.get_openFile_of_some (Table.get_openAll_of_some used logged) _) later
  case refine_2 =>
    apply Table.get_openAll_of_some
    simp
  case refine_3 =>
    cases used : table.get (table.openAll logged).lowest with
    | none => rfl
    | some file =>
        have stays := Table.get_openAll_of_some used logged
        rw [Table.get_lowest] at stays
        cases stays
  case refine_4 =>
    cases logged with
    | nil => exact Table.forall_get_openAll_iff (by decide) later 3
    | cons first logged =>
        obtain rfl := logs first List.mem_cons_self
        have flat : ((table.openAll (.log :: logged)).openFile .listening).openAll later =
            table.openAll (.log :: (logged ++ .listening :: later)) := by
          rw [Table.openAll_cons, Table.openAll_cons, Table.openAll_append, Table.openAll_cons]
        rw [flat]
        exact Table.forall_get_openAll_iff (by decide) _ 3

/-- The descriptors of a process that is started from a terminal. -/
def terminal : Table ServerFile where
  get fd := if fd < 3 then some (.inherited 0) else none
  bounded := ⟨3, fun _ above => if_neg (Nat.not_lt.mpr above)⟩

/-- The daemon that is started there keeps the terminal. -/
theorem mainStartup_standard_terminal :
    let sfd := terminal.lowest
    let after := ((((terminal.openFile .listening).openFile .devNull).openFile .devNull).openFile
      .devNull).openFile .log
    (∀ (fd : Nat) (file : ServerFile), terminal.get fd = some file → after.get fd = some file) ∧
    after.get sfd = some .listening ∧ terminal.get sfd = none ∧
    ((∀ fd < 3, after.get fd = some .devNull) ↔ ∀ fd < 3, terminal.get fd = some .devNull) := by
  intro sfd after
  exact mainStartup_standard ["-d"]
    ⟨true, true, true, true, true, true, ⟨.child, true, true, fun _ => true⟩, true, true⟩
    terminal after sfd rfl

end Aesd
