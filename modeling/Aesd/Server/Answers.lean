import Aesd.Driver.Archive
import Aesd.Server.Request
import Aesd.Server.Succession

/-!
# What a client gets for what it sends

From the chunks `recv` delivers to the bytes `send` is handed. `Desk` is the server as its clients
see it: it takes one line after another, and answers each from the log of the lines so far and the
position at which the answer before it has ended. Connections that are handled one after another
get exactly these answers, however many there are.
-/

namespace Aesd

open KernelMemory MachineInt CString Parties

/-! ## The server in terms of lines -/

/-- The bytes a reader gets from a position on. -/
def Log.answer (log : Log) (position : Nat) : List UInt8 := log.visible.flatten.drop position

/-- Where the reader ends: in front of the first command that has lost its bytes, or at the start
again behind the last command. -/
def Log.stop (log : Log) (position : Nat) : Nat :=
  let last := max position log.visible.flatten.length
  if last < (log.completed.rtake maxWriteOperations).flatten.length then last else 0

/-- The seek a line asks for. -/
def seekOf (line : List UInt8) : Option AesdSeekto :=
  if ioctlStr <+: line then
    match sscanf seekFormat (line.drop ioctlStr.length) with
    | [writeCmd, writeCmdOffset] => some ⟨writeCmd, writeCmdOffset⟩
    | _ => none
  else none

/-- The log of the lines so far, where the next answer starts, and the answer to each client. -/
structure Desk where
  log : Log
  position : Nat
  answers : Nat → List UInt8

namespace Desk

def init : Desk := ⟨.empty, 0, fun _ => []⟩

/-- A client is answered from a log and a position. -/
def give (desk : Desk) (client : Nat) (log : Log) (position : Nat) : Desk where
  log := log
  position := log.stop position
  answers := Function.update desk.answers client (log.answer position)

/-- The next line. -/
def serve (desk : Desk) (client : Nat) (line : List UInt8) : Desk :=
  match seekOf line with
  | none => desk.give client (desk.log.feed (line ++ [newline])) desk.position
  | some seek =>
      let call : IoctlCall := ⟨aesdcharIocseekto, some seek, true⟩
      desk.give client desk.log (desk.log.ioctl call desk.position).2

end Desk

/-! ## Clients -/

/-- A client whose line comes in the first chunk, with what comes behind the line. A line that
asks for a seek has both numbers, and no line is out of the range of `char`. -/
structure Client (sign : CharSign) where
  line : List UInt8
  rest : List UInt8
  later : List (List UInt8)
  missing : newline ∉ line
  small : (line ++ newline :: rest).length ≤ initBufSize
  short : line.length < sign.max
  complete : HasBothNumbers line

/-- What the thread asks of the device, the outcomes of the call aside. -/
def Request.device : Request → DeviceRequest
  | .ordinary call => .write call.bytes
  | .seek request _ => .ioctl request

namespace Client

variable {sign : CharSign}

/-- What `recv` delivers. -/
def chunks (client : Client sign) : List (List UInt8) :=
  (client.line ++ newline :: client.rest) :: client.later

/-- The request for the line. -/
def request (client : Client sign) : DeviceRequest :=
  match seekOf client.line with
  | none => .write (client.line ++ [newline])
  | some seek => .ioctl seek

theorem packetRequest_eq (client : Client sign) (heap : List UInt8) (seek : AesdSeekto) :
    packetRequest (client.line ++ newline :: heap) (client.line.length + 1) seek =
      client.request := by
  unfold request seekOf
  by_cases starts : ioctlStr <+: client.line
  case neg =>
    rw [if_neg starts]
    exact packetRequest_of_not_starts starts heap seek
  case pos =>
    obtain ⟨writeCmd, writeCmdOffset, scanned⟩ := List.length_eq_two.mp (client.complete starts)
    rw [if_pos starts, scanned, packetRequest_of_starts starts, parseSeek_of_complete scanned]

theorem takeWhile_chunks (client : Client sign) :
    client.chunks.flatten.takeWhile (· ≠ newline) = client.line := by
  rw [chunks, List.flatten_cons, List.append_assoc, List.cons_append,
    Lines.takeWhile_line client.missing]

/-- The receive loop ends with the line in the buffer. -/
theorem receives (client : Client sign) : ∃ storageBuffer,
    receiveLoop .init (client.chunks.map (·, true)) =
        some (.complete storageBuffer (client.line.length + 1 : Nat)) ∧
      client.line.length + 1 ≤ storageBuffer.length ∧
      storageBuffer.take (client.line.length + 1) = (client.line ++ [newline]).map some := by
  have clear : ∀ chunk ∈ ([] : List (List UInt8)), newline ∉ chunk := by simp
  obtain ⟨storageBuffer, ended, inside, bytes⟩ := receiveLoop_complete clear client.missing
    client.small (Nat.zero_le _) true (client.later.map (·, true))
  simp only [List.length_nil, Nat.mul_zero, Nat.zero_add] at ended inside bytes
  exact ⟨storageBuffer, ended, inside, bytes fun chunk member => absurd member List.not_mem_nil⟩

theorem packet_chunks (client : Client sign) :
    packet client.chunks.flatten = client.line ++ [newline] := by
  rw [packet, client.takeWhile_chunks]

theorem assemblesPacket (client : Client sign) : AssemblesPacket client.chunks := by
  obtain ⟨storageBuffer, ended, inside, bytes⟩ := client.receives
  refine ⟨storageBuffer, client.line.length + 1, ended, inside, ?_⟩
  rw [client.packet_chunks]
  exact bytes

/-- The thread can ask for this request and no other. -/
theorem issues_iff (client : Client sign) (request : DeviceRequest) :
    Issues client.chunks request ↔ request = client.request := by
  constructor
  · intro issues
    obtain ⟨heap, seek, rfl⟩ := issues.exists_heap client.assemblesPacket
    rw [client.takeWhile_chunks]
    exact client.packetRequest_eq heap seek
  · intro isRequest
    obtain ⟨storageBuffer, ended, inside, bytes⟩ := client.receives
    have holds : HoldsCells (storageBuffer.map fun cell => cell.getD 0) storageBuffer := by
      intro index byte known
      rw [List.getElem?_map, known]
      rfl
    have length : (client.line ++ [newline]).length = client.line.length + 1 := by simp
    obtain ⟨heap, memory⟩ := holds.exists_heap (length ▸ bytes)
    refine ⟨storageBuffer, (client.line.length + 1 : Nat), _, ⟨0, 0⟩, ended, holds, ?_⟩
    rw [isRequest, memory, List.append_assoc, Int.toNat_natCast]
    exact (client.packetRequest_eq heap ⟨0, 0⟩).symm

end Client

/-! ## Rounds -/

namespace Log

variable {log : Log} {position served : Nat}

theorem answer_eq_nil (behind : log.visible.flatten.length ≤ position) :
    log.answer position = [] := List.drop_of_length_le behind

theorem length_answer (log : Log) (position : Nat) :
    (log.answer position).length = log.visible.flatten.length - position := List.length_drop

theorem answer_add (log : Log) (position served : Nat) :
    log.answer (position + served) = (log.answer position).drop served :=
  List.drop_drop.symm

/-- A reader that goes on ends where it would have ended. -/
theorem stop_add (within : position + served ≤ log.visible.flatten.length) :
    log.stop (position + served) = log.stop position := by
  unfold stop
  rw [max_eq_right within, max_eq_right (by omega)]

theorem InRange.stop_le {sign : CharSign} (inRange : log.InRange sign) (position : Nat) :
    log.stop position ≤ maxWriteOperations * sign.max := by
  have most := inRange.length_rtake_le
  unfold stop
  dsimp only
  split
  case isTrue before => omega
  case isFalse => exact Nat.zero_le _

theorem InRange.length_visible_le {sign : CharSign} (inRange : log.InRange sign) :
    log.visible.flatten.length ≤ maxWriteOperations * sign.max := by
  have counted := inRange.length_flatten_le fun command (member : command ∈ log.visible) =>
    List.mem_of_mem_take (List.mem_of_mem_drop member)
  rw [length_visible] at counted
  exact counted.trans (Nat.mul_le_mul_right _ (by omega))

end Log

section Rounds

variable {sign : CharSign} {state : SessionState} {log : Log} {thread position : Nat}
  {conversation : Conversation}

/-- A round in which nothing fails: it ends the answer, or sends the next bytes of it. -/
theorem sessionStep_granted (stores : state.driver.Stores sign log) (inRange : log.InRange sign)
    (selected : state.threads[thread]? = some (.replying conversation))
    (here : state.fPos = position) (small : position < 2 ^ 62) :
    (log.answer position = [] ∧
      sessionStep sign state (.reply thread .granted) =
        ⟨state.driver, log.stop position, state.threads.set thread (.closed conversation)⟩) ∨
    ∃ served, 0 < served ∧ position + served ≤ log.visible.flatten.length ∧
      sessionStep sign state (.reply thread .granted) =
        ⟨(aesdRead state.driver ReplyRound.granted.readCall position).state,
          (position + served : Nat), state.threads.set thread (.replying (conversation.send
            (((log.answer position).take served).map some)))⟩ := by
  have readable := stores.readableUpTo inRange
  have shown := stores.shownBytes_eq inRange
  have enters : ReplyRound.granted.readCall.Enters := ⟨rfl, rfl, rfl⟩
  have shownLength := congrArg List.length shown
  rw [List.length_map] at shownLength
  by_cases behind : log.visible.flatten.length ≤ position
  case pos =>
    have stopped := readable.aesdRead_stop enters (by omega) (shownLength ▸ behind)
    rw [stores.stopPosition_eq inRange] at stopped
    refine .inl ⟨Log.answer_eq_nil behind, ?_⟩
    simp only [sessionStep, selected, replyRound, here, stopped]
    simp [Log.stop]
  case neg =>
    obtain ⟨served, progress, within, retval, data, moved⟩ := readable.aesdRead_shown enters rfl
      (show 0 < UInt64.ofNat initBufSize by decide) (shownLength ▸ Nat.lt_of_not_le behind)
    rw [shown, ← List.map_drop, ← List.map_take] at data
    refine .inr ⟨served, progress, shownLength ▸ within, ?_⟩
    have unsent : ReplyRound.granted.unsent = some 0 := rfl
    simp only [sessionStep, selected, replyRound, here, retval, data, moved, unsent]
    rw [if_neg (by omega), if_neg (by omega), Nat.sub_zero, List.take_length]
    rfl

end Rounds

/-! ## Connections one after another -/

/-- Nothing fails in the call. -/
def Request.Succeeds (sign : CharSign) (driver : DriverState) : Request → Prop
  | .ordinary call => driver.Succeeds sign call
  | .seek _ lock => lock = true

instance (sign : CharSign) (driver : DriverState) : (request : Request) →
    Decidable (request.Succeeds sign driver)
  | .ordinary call => inferInstanceAs (Decidable (driver.Succeeds sign call))
  | .seek _ lock => inferInstanceAs (Decidable (lock = true))

/-- A connection is handled without a failure: the thread asks for what its client can have sent,
nothing fails in the call, and every chunk of the answer is sent whole. -/
def Served (sign : CharSign) (clients : Nat → Client sign) (state : SessionState) :
    SessionStep → Prop
  | .accept => True
  | .dispatch thread request =>
      state.threads[thread]? = some .receiving ∧
        Issues (clients thread).chunks request.device ∧ request.Succeeds sign state.driver
  | .reply _ round => round = .granted

instance {sign : CharSign} (clients : Nat → Client sign) (state : SessionState) :
    (step : SessionStep) → Decidable (Served sign clients state step)
  | .accept => .isTrue trivial
  | .dispatch thread request =>
      haveI := decidable_of_iff' _ ((clients thread).issues_iff request.device)
      inferInstanceAs (Decidable (_ ∧ _ ∧ _))
  | .reply _ _ => inferInstanceAs (Decidable (_ = _))

/-- What a step of the server is for its clients. -/
def Desk.follow {sign : CharSign} (clients : Nat → Client sign) (desk : Desk) :
    SessionStep → Desk
  | .accept => desk
  | .dispatch thread _ => desk.serve thread (clients thread).line
  | .reply _ _ => desk

/-- The device stores the log of the desk, and each thread past its call has sent its answer as
far as it has got. -/
structure SessionState.Answers (sign : CharSign) (state : SessionState) (desk : Desk) : Prop where
  stores : state.driver.Stores sign desk.log
  inRange : desk.log.InRange sign
  whole : desk.log.unfinished = []
  small : desk.position ≤ maxWriteOperations * sign.max
  exclusive : ∀ first second, InReply state.threads first → InReply state.threads second →
    first = second
  idle : state.Idle → state.fPos = desk.position
  replying : ∀ (thread : Nat) conversation,
    state.threads[thread]? = some (.replying conversation) →
      ∃ position : Nat, state.fPos = position ∧ position ≤ maxWriteOperations * sign.max ∧
        desk.log.stop position = desk.position ∧
        (desk.answers thread).map some =
          conversation.reply ++ (desk.log.answer position).map some
  closed : ∀ (thread : Nat) conversation,
    state.threads[thread]? = some (.closed conversation) →
      conversation.reply = (desk.answers thread).map some

namespace SessionState.Answers

variable {sign : CharSign} {clients : Nat → Client sign} {state : SessionState} {desk : Desk}
  {thread : Nat}

theorem init (sign : CharSign) : sessionInit.Answers sign .init where
  stores := DriverState.stores_init sign
  inRange := by simp [Log.InRange, Desk.init, Log.empty]
  whole := rfl
  small := Nat.zero_le _
  exclusive first second replying := by simp [InReply, sessionInit] at replying
  idle _ := rfl
  replying thread conversation selected := by simp [sessionInit] at selected
  closed thread conversation selected := by simp [sessionInit] at selected

/-- Another connection. -/
theorem accept (answers : state.Answers sign desk) :
    Answers sign { state with threads := state.threads ++ [.receiving] } desk where
  stores := answers.stores
  inRange := answers.inRange
  whole := answers.whole
  small := answers.small
  exclusive := by
    intro first second firstReplying secondReplying
    obtain ⟨conversation, selected⟩ := inReply_iff.mp firstReplying
    obtain ⟨other, otherSelected⟩ := inReply_iff.mp secondReplying
    exact answers.exclusive first second
      (inReply_iff.mpr ⟨_, phase_of_accept selected (by simp)⟩)
      (inReply_iff.mpr ⟨_, phase_of_accept otherSelected (by simp)⟩)
  idle idle := answers.idle fun phase member => idle phase (List.mem_append_left _ member)
  replying thread conversation selected :=
    answers.replying thread conversation (phase_of_accept selected (by simp))
  closed thread conversation selected :=
    answers.closed thread conversation (phase_of_accept selected (by simp))

/-- The one thread in its reply loop goes on, or a thread enters it when none is in it. -/
theorem holding {next : Desk} {driver : DriverState} {position : Nat}
    {conversation : Conversation} (inside : thread < state.threads.length)
    (only : ∀ (other : Nat) (found : Conversation),
      state.threads[other]? = some (.replying found) → other = thread)
    (stores : driver.Stores sign next.log) (inRange : next.log.InRange sign)
    (whole : next.log.unfinished = []) (small : position ≤ maxWriteOperations * sign.max)
    (stops : next.log.stop position = next.position)
    (sofar : (next.answers thread).map some =
      conversation.reply ++ (next.log.answer position).map some)
    (closed : ∀ (other : Nat) (found : Conversation), other ≠ thread →
      state.threads[other]? = some (.closed found) →
        found.reply = (next.answers other).map some) :
    Answers sign ⟨driver, position, state.threads.set thread (.replying conversation)⟩ next := by
  have others : ∀ (other : Nat) (found : Conversation),
      (state.threads.set thread (.replying conversation))[other]? = some (.replying found) →
        other = thread := by
    intro other found selected
    rcases selected_set selected with ⟨same, -⟩ | ⟨-, isOld⟩
    · exact same
    · exact only other found isOld
  constructor
  case stores => exact stores
  case inRange => exact inRange
  case whole => exact whole
  case small =>
    rw [← stops]
    exact inRange.stop_le position
  case exclusive =>
    intro first second firstReplying secondReplying
    obtain ⟨found, selected⟩ := inReply_iff.mp firstReplying
    obtain ⟨other, otherSelected⟩ := inReply_iff.mp secondReplying
    rw [others first found selected, others second other otherSelected]
  case idle =>
    intro idle
    exact absurd (List.getElem?_set_self inside) idle.not_replying
  case replying =>
    intro other found selected
    obtain rfl := others other found selected
    rw [List.getElem?_set_self inside] at selected
    obtain rfl := Phase.replying.inj (Option.some.inj selected)
    exact ⟨position, rfl, small, stops, sofar⟩
  case closed =>
    intro other found selected
    rcases selected_set selected with ⟨-, isNew⟩ | ⟨different, isOld⟩
    · cases isNew
    · exact closed other found different isOld

/-- The one thread in its reply loop leaves it at the end of its answer. -/
theorem leave (answers : state.Answers sign desk) {conversation : Conversation}
    (selected : state.threads[thread]? = some (.replying conversation))
    (ended : conversation.reply = (desk.answers thread).map some) :
    Answers sign
      ⟨state.driver, desk.position, state.threads.set thread (.closed conversation)⟩ desk := by
  have nobody : ∀ (other : Nat) (found : Conversation),
      (state.threads.set thread (.closed conversation))[other]? ≠ some (.replying found) := by
    intro other found replying
    rcases selected_set replying with ⟨-, isNew⟩ | ⟨different, isOld⟩
    · cases isNew
    · exact different (answers.exclusive other thread (inReply_iff.mpr ⟨_, isOld⟩)
        (inReply_iff.mpr ⟨_, selected⟩))
  constructor
  case stores => exact answers.stores
  case inRange => exact answers.inRange
  case whole => exact answers.whole
  case small => exact answers.small
  case exclusive =>
    intro first second firstReplying
    obtain ⟨found, replying⟩ := inReply_iff.mp firstReplying
    exact absurd replying (nobody first found)
  case idle =>
    intro _
    rfl
  case replying =>
    intro other found replying
    exact absurd replying (nobody other found)
  case closed =>
    intro other found isClosed
    rcases selected_set isClosed with ⟨rfl, isNew⟩ | ⟨-, isOld⟩
    · obtain rfl := Phase.closed.inj isNew
      exact ended
    · exact answers.closed other found isOld

/-- The device gives a thread its log and its start. -/
theorem give (answers : state.Answers sign desk) (idle : state.Idle)
    (selected : state.threads[thread]? = some .receiving) {driver : DriverState} {log : Log}
    (stores : driver.Stores sign log) (inRange : log.InRange sign) (whole : log.unfinished = [])
    {position : Nat} (small : position ≤ maxWriteOperations * sign.max) (request : Request)
    (retval : Int) :
    Answers sign
      ⟨driver, position, state.threads.set thread (.replying ⟨request, retval, []⟩)⟩
      (desk.give thread log position) := by
  apply holding (lt_of_selected selected)
  case only =>
    intro other found replying
    exact absurd replying idle.not_replying
  case stores => exact stores
  case inRange => exact inRange
  case whole => exact whole
  case small => exact small
  case stops => rfl
  case sofar =>
    dsimp only [Desk.give]
    rw [Function.update_self, List.nil_append]
  case closed =>
    intro other found different isClosed
    dsimp only [Desk.give]
    rw [Function.update_of_ne different]
    exact answers.closed other found isClosed

theorem dispatch (answers : state.Answers sign desk) (idle : state.Idle) {request : Request}
    (served : Served sign clients state (.dispatch thread request)) :
    Answers sign (sessionStep sign state (.dispatch thread request))
      (desk.serve thread (clients thread).line) := by
  obtain ⟨selected, issues, nothingFails⟩ := served
  have isRequest := ((clients thread).issues_iff request.device).mp issues
  have here := answers.idle idle
  unfold Client.request at isRequest
  unfold Desk.serve
  cases isSeek : seekOf (clients thread).line with
  | none =>
      rw [isSeek] at isRequest
      cases request with
      | seek => cases isRequest
      | ordinary call =>
          have bytes : call.bytes = (clients thread).line ++ [newline] :=
            DeviceRequest.write.inj isRequest
          have stores := answers.stores.line nothingFails bytes (clients thread).missing
          have fed := desk.log.feed_line (clients thread).missing
          have short := (clients thread).short
          rw [answers.whole, List.nil_append] at fed
          rw [sessionStep_ordinary selected, here]
          rw [bytes] at stores
          apply answers.give idle selected stores
          case inRange =>
            rw [fed]
            intro command member
            rcases List.mem_append.mp member with earlier | new
            · exact answers.inRange command earlier
            · rw [List.mem_singleton.mp new, List.length_append, List.length_singleton]
              exact short
          case whole => rw [fed]
          case small => exact answers.small
  | some seek =>
      rw [isSeek] at isRequest
      cases request with
      | ordinary => cases isRequest
      | seek target lock =>
          obtain rfl : target = seek := DeviceRequest.ioctl.inj isRequest
          obtain rfl : lock = true := nothingFails
          obtain ⟨-, moved⟩ := answers.stores.ioctl_eq answers.inRange
            ⟨aesdcharIocseekto, some target, true⟩ desk.position
          rw [sessionStep_seek selected, here]
          dsimp only
          rw [moved]
          exact answers.give idle selected answers.stores answers.inRange answers.whole
            (answers.inRange.ioctl_le _ answers.small) _ _

theorem reply (answers : state.Answers sign desk) :
    Answers sign (sessionStep sign state (.reply thread .granted)) desk := by
  by_cases replying : InReply state.threads thread
  case neg =>
    rwa [sessionStep_reply_of_ne fun conversation selected =>
      replying (inReply_iff.mpr ⟨conversation, selected⟩)]
  case pos =>
    obtain ⟨conversation, selected⟩ := inReply_iff.mp replying
    obtain ⟨position, here, small, stops, sofar⟩ := answers.replying thread conversation selected
    have bound := sign.max_le
    rcases sessionStep_granted answers.stores answers.inRange selected here (by
      unfold maxWriteOperations at small
      omega) with ⟨nothing, ended⟩ | ⟨served, -, within, moved⟩
    case inl =>
      rw [ended, stops]
      rw [nothing, List.map_nil, List.append_nil] at sofar
      exact answers.leave selected sofar.symm
    case inr =>
      rw [moved]
      have most := answers.inRange.length_visible_le
      apply holding (lt_of_selected selected)
      case only =>
        intro other found isOther
        exact answers.exclusive other thread (inReply_iff.mpr ⟨found, isOther⟩) replying
      case stores => exact answers.stores.aesdRead _ _
      case inRange => exact answers.inRange
      case whole => exact answers.whole
      case small => exact within.trans most
      case stops => rw [Log.stop_add within, stops]
      case sofar =>
        rw [sofar, Log.answer_add]
        dsimp only [Conversation.send]
        rw [List.append_assoc, ← List.map_append, List.take_append_drop]
      case closed =>
        intro other found _ isClosed
        exact answers.closed other found isClosed

theorem step (answers : state.Answers sign desk) {step : SessionStep}
    (next : OneAfterAnother state step ∧ Served sign clients state step) :
    Answers sign (sessionStep sign state step) (desk.follow clients step) := by
  cases step with
  | accept => exact answers.accept
  | dispatch thread request => exact answers.dispatch next.1 next.2
  | reply thread round =>
      obtain rfl : round = .granted := next.2
      exact answers.reply

theorem run (answers : state.Answers sign desk) {steps : List SessionStep}
    (along : Runs.Along (sessionStep sign)
      (fun state step => OneAfterAnother state step ∧ Served sign clients state step)
      state steps) :
    Answers sign (Runs.run (sessionStep sign) state steps)
      (Runs.run (Desk.follow clients) desk steps) := by
  induction steps generalizing state desk with
  | nil => exact answers
  | cons step steps ih => exact ih (answers.step along.1) along.2

/-- The rounds of a thread come to an end. -/
theorem finishes (answers : state.Answers sign desk) {conversation : Conversation}
    (selected : state.threads[thread]? = some (.replying conversation)) :
    ∃ rounds ending, (Runs.run (sessionStep sign) state
        (List.replicate rounds (.reply thread .granted))).threads[thread]? =
          some (.closed ending) ∧ ending.reply = (desk.answers thread).map some := by
  obtain ⟨remaining, rest⟩ : ∃ remaining, (desk.answers thread).length -
      conversation.reply.length = remaining := ⟨_, rfl⟩
  induction remaining using Nat.strongRecOn generalizing state conversation with
  | ind remaining ih =>
      obtain ⟨position, here, small, -, sofar⟩ := answers.replying thread conversation selected
      have bound := sign.max_le
      have inside := lt_of_selected selected
      have after : Answers sign (sessionStep sign state (.reply thread .granted)) desk :=
        answers.reply
      have total := congrArg List.length sofar
      rw [List.length_map, List.length_append, List.length_map, Log.length_answer] at total
      rcases sessionStep_granted answers.stores answers.inRange selected here (by
        unfold maxWriteOperations at small
        omega) with ⟨-, ended⟩ | ⟨served, progress, within, moved⟩
      case inl =>
        have closed : (sessionStep sign state (.reply thread .granted)).threads[thread]? =
            some (.closed conversation) := by
          rw [ended]
          exact List.getElem?_set_self inside
        exact ⟨1, conversation, closed, after.closed thread conversation closed⟩
      case inr =>
        have next : (sessionStep sign state (.reply thread .granted)).threads[thread]? =
            some (.replying (conversation.send
              (((desk.log.answer position).take served).map some))) := by
          rw [moved]
          exact List.getElem?_set_self inside
        have more : (conversation.send
            (((desk.log.answer position).take served).map some)).reply.length =
              conversation.reply.length + served := by
          dsimp only [Conversation.send]
          rw [List.length_append, List.length_map, List.length_take, Log.length_answer]
          omega
        obtain ⟨rounds, ending, closed, reply⟩ := ih _ (by rw [more]; omega) after next rfl
        exact ⟨rounds + 1, ending, closed, reply⟩

end SessionState.Answers

/-- The desk after a run of the server. -/
def Desk.after {sign : CharSign} (clients : Nat → Client sign) (steps : List SessionStep) : Desk :=
  Runs.run (Desk.follow clients) .init steps

/-- From lines to answers. In every run in which connections are handled one after another and
nothing fails, however many there are, each thread past its reply loop has sent its client what
the desk answers, which only depends on the lines in the order in which they were handed over; and
a thread in its reply loop gets there. -/
theorem session_answers (sign : CharSign) (clients : Nat → Client sign)
    (steps : List SessionStep)
    (successive : Runs.Along (sessionStep sign) OneAfterAnother sessionInit steps)
    (served : Runs.Along (sessionStep sign) (Served sign clients) sessionInit steps) :
    let desk := Desk.after clients steps
    (∀ (thread : Nat) conversation,
      (session sign steps).threads[thread]? = some (.closed conversation) →
        conversation.reply = (desk.answers thread).map some) ∧
    ∀ (thread : Nat) conversation,
      (session sign steps).threads[thread]? = some (.replying conversation) →
        ∃ rounds ending,
          (session sign (steps ++ List.replicate rounds (.reply thread .granted))).threads[thread]?
            = some (.closed ending) ∧ ending.reply = (desk.answers thread).map some := by
  intro desk
  have answers : (session sign steps).Answers sign desk :=
    (SessionState.Answers.init sign).run (successive.and served)
  constructor
  case left => exact answers.closed
  case right =>
    intro thread conversation replying
    obtain ⟨rounds, ending, closed, reply⟩ := answers.finishes replying
    refine ⟨rounds, ending, ?_, reply⟩
    rw [session, Runs.run_append]
    exact closed

/-- A line with more bytes behind it, a seek to its second byte, and the line again. -/
theorem session_answers_three_clients :
    let line : Client .signed := ⟨[97], [98], [], by decide, by decide, by decide, by decide⟩
    let seek : Client .signed :=
      ⟨ioctlStr ++ [48, 44, 49], [], [], by decide, by decide, by decide, by decide⟩
    let clients := fun thread => if thread = 1 then seek else line
    let steps : List SessionStep :=
      [.accept, .accept, .dispatch 0 (.ordinary (.granted [97, newline] 0)), .reply 0 .granted,
        .reply 0 .granted, .dispatch 1 (.seek ⟨0, 1⟩ true), .reply 1 .granted, .reply 1 .granted,
        .accept, .dispatch 2 (.ordinary (.granted [97, newline] 1)), .reply 2 .granted]
    (∀ (thread : Nat) conversation,
      (session .signed steps).threads[thread]? = some (.closed conversation) →
        conversation.reply = ((Desk.after clients steps).answers thread).map some) ∧
    ∀ (thread : Nat) conversation,
      (session .signed steps).threads[thread]? = some (.replying conversation) →
        ∃ rounds ending,
          (session .signed
            (steps ++ List.replicate rounds (.reply thread .granted))).threads[thread]? =
              some (.closed ending) ∧
            ending.reply = ((Desk.after clients steps).answers thread).map some := by
  intro line seek clients steps
  exact session_answers .signed clients steps (by decide +kernel) (by decide +kernel)

/-- Eleven lines fill the device and lose the bytes of the last one, so the eleventh client does
not get its own. The twelfth client starts there and gets nothing. -/
example :
    let lines := (List.range 12).map fun n => [UInt8.ofNat (97 + n)]
    let desk := lines.zipIdx.foldl (fun (desk : Desk) line => desk.serve line.2 line.1) .init
    desk.answers 10 = (List.range 9).flatMap (fun n => [UInt8.ofNat (98 + n), newline]) ∧
      desk.answers 11 = [] := by
  decide +kernel

end Aesd
