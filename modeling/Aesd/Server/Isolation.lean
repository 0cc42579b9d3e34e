import Aesd.Driver.Delivery
import Aesd.Driver.Seek
import Aesd.Library.Parties
import Aesd.Server.Session

/-!
# Replies of threads that share a position

What keeps replies apart is that the position belongs to one thread at a time.
`Orderly` says so: at most one thread is in the middle of its reply, the position
is where that thread has got to, and it is 0 when there is none. Writes of other
threads only add commands behind the position, so a reply that reaches the end is
the contents of the device at that moment.
-/

namespace Aesd

open KernelMemory MachineInt Parties

/-! ## Positions of bytes -/

/-- The requested byte is one of the retained ones. -/
theorem bytePosition_lt {commands : List (List Cell)} {request : AesdSeekto}
    (has : HasByte commands request) : bytePosition commands request < commands.flatten.length := by
  obtain ⟨command, selected, inside⟩ := has
  have parts := congrArg (fun rest => rest.flatten.length)
    (List.take_append_drop request.writeCmd.toNat commands)
  rw [List.drop_eq_getElem?_toList_append, Option.mem_def.mp selected] at parts
  simp only [List.flatten_append, List.length_append, Option.toList_some, List.flatten_cons,
    List.singleton_append] at parts
  unfold bytePosition
  omega

/-! ## Devices that hold whole packets -/

namespace DriverState

/-- The device holds these packets, oldest first from slot 0 on, and has evicted
none. -/
structure Intact (sign : CharSign) (driver : DriverState) (packets : List (List UInt8)) :
    Prop where
  follows : driver.Follows sign ⟨packets, []⟩
  fits : Log.Fits sign ⟨packets, []⟩
  nonempty : ∀ packet ∈ packets, packet ≠ []
  straight : driver.dev.circBuffer.outOffs = 0

theorem intact_init (sign : CharSign) : aesdInitModule.Intact sign [] where
  follows := follows_init sign
  fits := ⟨Nat.zero_le _, by simp [Log.Within, Log.InRange]⟩
  nonempty := by simp
  straight := rfl

namespace Intact

variable {sign : CharSign} {driver : DriverState} {packets : List (List UInt8)}

theorem commands_eq (intact : driver.Intact sign packets) :
    driver.commands = packets.map (List.map some) := by
  rw [intact.follows.commands intact.fits, Log.image, Window.rtake_of_length_le intact.fits.1]

theorem readable (intact : driver.Intact sign packets) : driver.Readable :=
  intact.follows.readable intact.fits

theorem occupied (intact : driver.Intact sign packets) : driver.dev.circBuffer.Occupied where
  ring := intact.follows.wellFormed.ring
  positive entry member := by
    have size : entry.size.toNat ∈ driver.commands.map List.length := by
      rw [map_length_commands]
      exact List.mem_map_of_mem member
    rw [intact.commands_eq, List.map_map] at size
    obtain ⟨packet, isPacket, length⟩ := List.mem_map.mp size
    rw [← length]
    simpa [List.length_pos_iff] using intact.nonempty packet isPacket

theorem total_lt (intact : driver.Intact sign packets) :
    driver.dev.circBuffer.sizes.sum < 2 ^ 31 := by
  have bound := intact.follows.sum_sizes_le intact.fits
  have most := Nat.mul_le_mul_left maxWriteOperations sign.max_le
  unfold maxWriteOperations at *
  omega

/-- A packet that finds room is added. -/
theorem writeStep (intact : driver.Intact sign packets) {call : WriteCall}
    (succeeds : driver.Succeeds sign call) {line : List UInt8}
    (isLine : call.bytes = line ++ [newline]) (missing : newline ∉ line)
    (short : call.bytes.length ≤ sign.max) (room : driver.dev.circBuffer.full = false) :
    (Aesd.writeStep sign driver call).Intact sign (packets ++ [call.bytes]) where
  follows := by
    have follows := intact.follows.line succeeds isLine missing
    rw [isLine, Log.feed_line _ missing, List.nil_append, ← isLine] at follows
    exact follows
  fits := by
    have few := intact.follows.wellFormed.length_commands_lt room
    rw [intact.commands_eq, List.length_map] at few
    refine ⟨?_, fun packet member => ?_, Nat.zero_le _⟩
    · rw [List.length_append, List.length_singleton]
      omega
    · rcases List.mem_append.mp member with old | new
      · exact intact.fits.2.1 packet old
      · rw [List.mem_singleton.mp new]
        exact short
  nonempty packet member := by
    rcases List.mem_append.mp member with old | new
    · exact intact.nonempty packet old
    · rw [List.mem_singleton.mp new, isLine]
      simp
  straight := by
    rw [succeeds.circBuffer_line intact.follows.wellFormed isLine missing,
      AesdCircularBuffer.snd_addEntry, room]
    exact intact.straight

theorem aesdRead (intact : driver.Intact sign packets) (call : ReadCall) (fPos : Int) :
    (Aesd.aesdRead driver call fPos).state.Intact sign packets where
  follows := intact.follows.aesdRead call fPos
  fits := intact.fits
  nonempty := intact.nonempty
  straight := by
    obtain ⟨recent, after⟩ := driver.state_aesdRead call fPos
    rw [after]
    exact intact.straight

/-- The size of a slot is the length of the command with its number. -/
theorem slot_size (intact : driver.Intact sign packets) (index : Nat) :
    (driver.dev.circBuffer.slot index).size.toNat =
      (driver.commands[index]?.map List.length).getD 0 := by
  rw [slot_size_of_straight intact.follows.wellFormed.ring intact.straight, retainedSize,
    ← map_length_commands, List.getElem?_map]

theorem hasByte_iff (intact : driver.Intact sign packets) (request : AesdSeekto) :
    HasByte driver.commands request ↔ request.writeCmdOffset.toNat <
      (driver.dev.circBuffer.slot request.writeCmd.toNat).size.toNat := by
  rw [intact.slot_size, HasByte]
  cases driver.commands[request.writeCmd.toNat]? with
  | none => simp
  | some command => simp

/-- The slots before a number hold the commands before it. -/
theorem slotPrefix_eq (intact : driver.Intact sign packets) {count : Nat}
    (inside : count ≤ maxWriteOperations) :
    driver.dev.circBuffer.slotPrefix count = (driver.commands.take count).flatten.length := by
  rw [slotPrefix_of_straight intact.follows.wellFormed.ring intact.straight inside,
    AesdCircularBuffer.entryPrefix, ← map_length_commands, List.length_flatten, List.map_take]

/-- A seek is accepted exactly if the device has the byte, and then the position is
that of the byte. -/
theorem aesdUnlockedIoctl (intact : driver.Intact sign packets) (request : AesdSeekto)
    (fPos : Int) :
    Aesd.aesdUnlockedIoctl driver.dev ⟨aesdcharIocseekto, some request, true⟩ fPos =
      if HasByte driver.commands request then (0, (bytePosition driver.commands request : Int))
      else (-errnoEinval, fPos) := by
  rw [aesdUnlockedIoctl_eq intact.occupied]
  by_cases has : HasByte driver.commands request
  · have inRange := (intact.hasByte_iff request).mp has
    have inside := driver.dev.circBuffer.lt_of_slot_size_pos (Nat.zero_lt_of_lt inRange)
    have below := bytePosition_lt has
    have total := intact.total_lt
    rw [← length_flatten_commands] at total
    rw [if_pos has, if_pos inRange, intact.slotPrefix_eq inside.le, ← Int.natCast_add,
      ← bytePosition, toInt32_of_bounds (by omega) (by omega)]
  · rw [if_neg has, if_neg (mt (intact.hasByte_iff request).mpr has)]

end Intact

end DriverState

/-! ## Replies under way -/

theorem HasByte.append {commands : List (List Cell)} {request : AesdSeekto}
    (has : HasByte commands request) (more : List (List Cell)) :
    HasByte (commands ++ more) request := by
  obtain ⟨command, selected, inside⟩ := has
  have bound := lt_of_selected selected
  exact ⟨command, by rwa [List.getElem?_append_left bound], inside⟩

/-- A retained byte stays where it is when commands are added. -/
theorem bytePosition_append {commands : List (List Cell)} {request : AesdSeekto}
    (has : HasByte commands request) (more : List (List Cell)) :
    bytePosition (commands ++ more) request = bytePosition commands request := by
  obtain ⟨command, selected, -⟩ := has
  have bound := lt_of_selected selected
  rw [bytePosition, List.take_append_of_le_length bound.le, ← bytePosition]

namespace Conversation

/-- The position where the reply of the thread starts. -/
def start (conversation : Conversation) (commands : List (List Cell)) : Nat :=
  (conversation.target.map (bytePosition commands)).getD 0

/-- What a thread in its reply loop has sent is the contents from the start of its reply
on, as far as it has got. -/
structure Sound (conversation : Conversation) (commands : List (List Cell)) : Prop where
  own : ∀ call, conversation.request = .ordinary call → call.bytes.map some ∈ commands
  inRange : ∀ request, conversation.target = some request → HasByte commands request
  within : conversation.start commands + conversation.reply.length ≤ commands.flatten.length
  soFar : conversation.reply =
    (commands.flatten.drop (conversation.start commands)).take conversation.reply.length

namespace Sound

variable {conversation : Conversation} {commands : List (List Cell)}

theorem start_append (sound : conversation.Sound commands) (more : List (List Cell)) :
    conversation.start (commands ++ more) = conversation.start commands := by
  unfold start
  cases isTarget : conversation.target with
  | none => rfl
  | some request =>
      rw [Option.map_some, Option.map_some,
        bytePosition_append (sound.inRange request isTarget) more]

/-- Added commands are behind what has been sent. -/
theorem append (sound : conversation.Sound commands) (more : List (List Cell)) :
    conversation.Sound (commands ++ more) where
  own call isOrdinary := List.mem_append_left more (sound.own call isOrdinary)
  inRange request isTarget := (sound.inRange request isTarget).append more
  within := by
    rw [sound.start_append, List.flatten_append, List.length_append]
    exact sound.within.trans (Nat.le_add_right _ _)
  soFar := by
    have within := sound.within
    rw [sound.start_append, List.flatten_append, List.drop_append_of_le_length (by omega),
      List.take_append_of_le_length (by rw [List.length_drop]; omega)]
    exact sound.soFar

/-- The next bytes of the contents are sent. -/
theorem send (sound : conversation.Sound commands) {served : Nat}
    (fits : conversation.start commands + conversation.reply.length + served ≤
      commands.flatten.length) :
    (conversation.send ((commands.flatten.drop
      (conversation.start commands + conversation.reply.length)).take served)).Sound commands ∧
    (conversation.send ((commands.flatten.drop
      (conversation.start commands + conversation.reply.length)).take served)).reply.length =
        conversation.reply.length + served := by
  have length : ((commands.flatten.drop (conversation.start commands +
      conversation.reply.length)).take served).length = served := by
    rw [List.length_take, List.length_drop]
    omega
  have total : (conversation.reply ++ (commands.flatten.drop (conversation.start commands +
      conversation.reply.length)).take served).length = conversation.reply.length + served := by
    rw [List.length_append, length]
  refine ⟨⟨sound.own, sound.inRange, ?_, ?_⟩, total⟩
  · change conversation.start commands + _ ≤ _
    dsimp only [Conversation.send]
    omega
  · change _ = (commands.flatten.drop (conversation.start commands)).take _
    dsimp only [Conversation.send]
    rw [total, List.take_add, List.drop_drop, ← sound.soFar]

/-- A reply that has reached the end answers the request. -/
theorem answers (sound : conversation.Sound commands)
    (atEnd : conversation.start commands + conversation.reply.length =
      commands.flatten.length) : conversation.Answers commands := by
  have whole : conversation.reply = commands.flatten.drop (conversation.start commands) := by
    rw [sound.soFar]
    exact List.take_of_length_le (by rw [List.length_drop]; omega)
  cases isRequest : conversation.request with
  | ordinary call =>
      have first : conversation.start commands = 0 := by simp [start, target, isRequest]
      simp only [Answers, isRequest]
      rw [first, List.drop_zero] at whole
      exact ⟨sound.own call isRequest, whole⟩
  | seek request lock =>
      simp only [Answers, isRequest]
      intro accepted
      have isTarget : conversation.target = some request := by
        simp [target, isRequest, accepted]
      refine ⟨sound.inRange request isTarget, ?_⟩
      rw [start, isTarget] at whole
      exact whole

end Sound

end Conversation

/-! ## Threads -/

theorem Holds.lt {threads : List Phase} {thread : Nat} (holds : Holds threads thread) :
    thread < threads.length := by
  obtain ⟨phase, selected, -⟩ := holds
  exact lt_of_selected selected

theorem Alone.eq {threads : List Phase} {thread other : Nat} (alone : Alone threads thread)
    (holds : Holds threads other) : other = thread := alone other holds.lt holds

/-- A connection adds no phase but `receiving`. -/
theorem phase_of_accept {threads : List Phase} {thread : Nat} {found : Phase}
    (selected : (threads ++ [.receiving])[thread]? = some found) (later : found ≠ .receiving) :
    threads[thread]? = some found := by
  rcases selected_join selected with earlier | ⟨-, isNew⟩
  · exact earlier
  · exact absurd isNew later

/-- What changes when one thread goes on. -/
theorem holds_set {threads : List Phase} {thread : Nat} (inside : thread < threads.length)
    (phase : Phase) (other : Nat) :
    Holds (threads.set thread phase) other ↔
      if other = thread then phase.Holds else Holds threads other := by
  unfold Holds
  by_cases same : other = thread
  · subst same
    rw [if_pos rfl, List.getElem?_set_self inside]
    simp
  · rw [if_neg same, List.getElem?_set_ne (Ne.symm same)]

theorem holds_accept (threads : List Phase) (other : Nat) :
    Holds (threads ++ [.receiving]) other ↔ Holds threads other := by
  constructor
  · rintro ⟨phase, selected, holds⟩
    exact ⟨phase, phase_of_accept selected (by rintro rfl; exact holds), holds⟩
  · rintro ⟨phase, selected, holds⟩
    have inside := lt_of_selected selected
    exact ⟨phase, by rwa [List.getElem?_append_left inside], holds⟩

theorem not_holds_of_receiving {threads : List Phase} {thread : Nat}
    (selected : threads[thread]? = some .receiving) : ¬Holds threads thread := by
  rintro ⟨phase, isPhase, holds⟩
  obtain rfl := Option.some.inj (selected.symm.trans isPhase)
  exact holds

/-- The position is that of the one thread in the middle of its reply, or 0. -/
structure Orderly (sign : CharSign) (state : SessionState) : Prop where
  device : ∃ packets, state.driver.Intact sign packets
  sound : ∀ (thread : Nat) (conversation : Conversation),
    state.threads[thread]? = some (.replying conversation) →
      conversation.Sound state.driver.commands
  exclusive : ∀ first second, Holds state.threads first → Holds state.threads second →
    first = second
  resting : (∀ thread, ¬Holds state.threads thread) → state.fPos = 0
  held : ∀ (thread : Nat) (conversation : Conversation),
    state.threads[thread]? = some (.replying conversation) → Holds state.threads thread →
      state.fPos = (conversation.start state.driver.commands + conversation.reply.length : Nat)

theorem orderly_init (sign : CharSign) : Orderly sign sessionInit where
  device := ⟨[], DriverState.intact_init sign⟩
  sound thread conversation selected := by simp [sessionInit] at selected
  exclusive first second holds := by simp [Holds, sessionInit] at holds
  resting _ := rfl
  held thread conversation selected := by simp [sessionInit] at selected

namespace Orderly

variable {sign : CharSign} {state : SessionState}

/-- A thread that is alone finds the position where its reply goes on. -/
theorem fPos_eq (orderly : Orderly sign state) {thread : Nat} {conversation : Conversation}
    (selected : state.threads[thread]? = some (.replying conversation))
    (alone : Alone state.threads thread) :
    state.fPos =
      (conversation.start state.driver.commands + conversation.reply.length : Nat) := by
  by_cases holds : Holds state.threads thread
  · exact orderly.held thread conversation selected holds
  · have nobody : ∀ other, ¬Holds state.threads other := fun other otherHolds =>
      holds (alone.eq otherHolds ▸ otherHolds)
    have fresh : conversation.reply = [] ∧ conversation.target = none := by
      by_contra moved
      exact holds ⟨.replying conversation, selected, not_and_or.mp moved⟩
    rw [orderly.resting nobody]
    simp [Conversation.start, fresh]

/-- Another connection. -/
theorem accept (orderly : Orderly sign state) :
    Orderly sign { state with threads := state.threads ++ [.receiving] } := by
  refine ⟨orderly.device, fun thread conversation selected =>
    orderly.sound thread conversation (phase_of_accept selected (by simp)), ?_, ?_, ?_⟩
  · intro first second firstHolds secondHolds
    exact orderly.exclusive first second ((holds_accept _ _).mp firstHolds)
      ((holds_accept _ _).mp secondHolds)
  · intro nobody
    exact orderly.resting fun thread holds => nobody thread ((holds_accept _ _).mpr holds)
  · intro thread conversation selected holds
    exact orderly.held thread conversation (phase_of_accept selected (by simp))
      ((holds_accept _ _).mp holds)

/-- A thread that did not hold the position goes on without it, and the device may have
got more commands. -/
theorem stepAside (orderly : Orderly sign state) {driver : DriverState}
    (device : ∃ packets, driver.Intact sign packets) {more : List (List Cell)}
    (commands : driver.commands = state.driver.commands ++ more) {thread : Nat}
    (inside : thread < state.threads.length) (free : ¬Holds state.threads thread)
    {conversation : Conversation} (sound : conversation.Sound driver.commands)
    (unmoved : ¬(Phase.replying conversation).Holds) :
    Orderly sign ⟨driver, state.fPos, state.threads.set thread (.replying conversation)⟩ := by
  have same : ∀ other,
      Holds (state.threads.set thread (.replying conversation)) other ↔
        Holds state.threads other := fun other => by
    rw [holds_set inside]
    split
    next isThread => exact iff_of_false unmoved (isThread ▸ free)
    next => rfl
  refine ⟨device, ?_, ?_, ?_, ?_⟩
  · intro other otherConversation selected
    rcases selected_set selected with ⟨-, isNew⟩ | ⟨-, isOld⟩
    · obtain rfl := Phase.replying.inj isNew
      exact sound
    · dsimp only
      rw [commands]
      exact (orderly.sound other otherConversation isOld).append more
  · intro first second firstHolds secondHolds
    exact orderly.exclusive first second ((same first).mp firstHolds)
      ((same second).mp secondHolds)
  · intro nobody
    exact orderly.resting fun other holds => nobody other ((same other).mpr holds)
  · intro other otherConversation selected holds
    have held := (same other).mp holds
    rcases selected_set selected with ⟨rfl, -⟩ | ⟨-, isOld⟩
    · exact absurd held free
    · dsimp only
      rw [orderly.held other otherConversation isOld held, commands,
        (orderly.sound other otherConversation isOld).start_append]

/-- A thread that is alone takes the position, or goes on with it. -/
theorem take (orderly : Orderly sign state) {driver : DriverState}
    (device : ∃ packets, driver.Intact sign packets)
    (commands : driver.commands = state.driver.commands) {thread : Nat}
    (inside : thread < state.threads.length) (alone : Alone state.threads thread)
    {conversation : Conversation} (sound : conversation.Sound state.driver.commands)
    (holds : (Phase.replying conversation).Holds) :
    Orderly sign ⟨driver,
      (conversation.start state.driver.commands + conversation.reply.length : Nat),
      state.threads.set thread (.replying conversation)⟩ := by
  have only : ∀ other, Holds (state.threads.set thread (.replying conversation)) other ↔
      other = thread := fun other => by
    rw [holds_set inside]
    split
    next isThread => exact iff_of_true holds isThread
    next different =>
      exact iff_of_false (fun otherHolds => different (alone.eq otherHolds)) different
  refine ⟨device, ?_, ?_, ?_, ?_⟩
  · intro other otherConversation selected
    dsimp only
    rw [commands]
    rcases selected_set selected with ⟨-, isNew⟩ | ⟨-, isOld⟩
    · obtain rfl := Phase.replying.inj isNew
      exact sound
    · exact orderly.sound other otherConversation isOld
  · intro first second firstHolds secondHolds
    rw [(only first).mp firstHolds, (only second).mp secondHolds]
  · intro nobody
    exact absurd ((only thread).mpr rfl) (nobody thread)
  · intro other otherConversation selected otherHolds
    obtain rfl := (only other).mp otherHolds
    rcases selected_set selected with ⟨-, isNew⟩ | ⟨different, -⟩
    · obtain rfl := Phase.replying.inj isNew
      dsimp only
      rw [commands]
    · exact absurd rfl different

/-- A thread that is alone ends its reply, and the position is back at 0. -/
theorem release (orderly : Orderly sign state) {thread : Nat}
    (inside : thread < state.threads.length) (alone : Alone state.threads thread)
    (conversation : Conversation) :
    Orderly sign ⟨state.driver, 0, state.threads.set thread (.closed conversation)⟩ := by
  have nobody : ∀ other, ¬Holds (state.threads.set thread (.closed conversation)) other := by
    intro other
    rw [holds_set inside]
    split
    next => exact id
    next different => exact fun otherHolds => different (alone.eq otherHolds)
  refine ⟨orderly.device, ?_, ?_, fun _ => rfl, ?_⟩
  · intro other otherConversation selected
    rcases selected_set selected with ⟨-, isNew⟩ | ⟨-, isOld⟩
    · cases isNew
    · exact orderly.sound other otherConversation isOld
  · intro first second firstHolds
    exact absurd firstHolds (nobody first)
  · intro other otherConversation selected otherHolds
    exact absurd otherHolds (nobody other)

end Orderly

/-! ## Steps -/

section Steps

variable {sign : CharSign} {state : SessionState} {thread : Nat}

theorem sessionStep_ordinary (selected : state.threads[thread]? = some .receiving)
    (call : WriteCall) :
    sessionStep sign state (.dispatch thread (.ordinary call)) =
      ⟨writeStep sign state.driver call, state.fPos, state.threads.set thread
        (.replying ⟨.ordinary call, (aesdWrite sign state.driver call).1, []⟩)⟩ := by
  simp only [sessionStep, selected, issue, writeStep]

theorem sessionStep_seek (selected : state.threads[thread]? = some .receiving)
    (request : AesdSeekto) (lock : Bool) :
    sessionStep sign state (.dispatch thread (.seek request lock)) =
      let result := aesdUnlockedIoctl state.driver.dev
        ⟨aesdcharIocseekto, some request, lock⟩ state.fPos
      ⟨state.driver, result.2, state.threads.set thread
        (.replying ⟨.seek request lock, result.1, []⟩)⟩ := by
  simp only [sessionStep, selected, issue]

/-- Whatever its request, the thread enters its reply loop. -/
theorem sessionStep_dispatch (sign : CharSign)
    (selected : state.threads[thread]? = some .receiving)
    (request : Request) :
    ∃ conversation, (sessionStep sign state (.dispatch thread request)).threads =
      state.threads.set thread (.replying conversation) := by
  cases request with
  | ordinary call => exact ⟨_, by rw [sessionStep_ordinary selected]⟩
  | seek target lock => exact ⟨_, by rw [sessionStep_seek selected]⟩

theorem sessionStep_dispatch_of_ne (elsewhere : state.threads[thread]? ≠ some .receiving)
    (request : Request) : sessionStep sign state (.dispatch thread request) = state := by
  simp only [sessionStep]

theorem sessionStep_reply_of_ne
    (elsewhere : ∀ conversation, state.threads[thread]? ≠ some (.replying conversation))
    (round : ReplyRound) : sessionStep sign state (.reply thread round) = state := by
  simp only [sessionStep]

/-- A round in which nothing fails and no entry without a block is met: it ends the reply
and resets the position, or it sends the next bytes. -/
theorem sessionStep_reply (sign : CharSign) {conversation : Conversation} {round : ReplyRound}
    (selected : state.threads[thread]? = some (.replying conversation))
    (ring : state.driver.dev.circBuffer.WellFormed)
    (noWrap : state.driver.dev.circBuffer.sizes.sum < 2 ^ 63) (lock : round.lock = true)
    (copies : round.uncopied = 0) (block : state.driver.HasBlock state.fPos)
    (whole : (toSizeT state.fPos).toNat < state.driver.dev.circBuffer.sizes.sum →
      round.unsent = some 0) :
    (state.driver.commands.flatten.length ≤ (toSizeT state.fPos).toNat ∧
      sessionStep sign state (.reply thread round) =
        ⟨state.driver, 0, state.threads.set thread (.closed conversation)⟩) ∨
    ∃ served, 0 < served ∧
      (toSizeT state.fPos).toNat + served ≤ state.driver.commands.flatten.length ∧
      sessionStep sign state (.reply thread round) =
        ⟨(aesdRead state.driver round.readCall state.fPos).state,
          ((toSizeT state.fPos).toNat + served : Nat),
          state.threads.set thread (.replying (conversation.send
            ((state.driver.commands.flatten.drop (toSizeT state.fPos).toNat).take served)))⟩ := by
  have enters : round.readCall.Enters := ⟨rfl, rfl, lock⟩
  have total := state.driver.length_flatten_commands
  by_cases before : (toSizeT state.fPos).toNat < state.driver.commands.flatten.length
  · obtain ⟨served, progress, -, fits, retval, data, moved⟩ :=
      DriverState.aesdRead_next ring noWrap enters copies
        (show 0 < UInt64.ofNat initBufSize by decide) before block
    refine .inr ⟨served, progress, fits, ?_⟩
    simp only [sessionStep, selected, replyRound, retval, data, moved, whole (by omega)]
    rw [if_neg (by omega), if_neg (by omega), Nat.sub_zero, List.take_length]
  · have ended : aesdRead state.driver round.readCall state.fPos = ⟨0, [], 0, state.driver⟩ :=
      DriverState.aesdRead_of_end ring (by omega) enters (by omega)
    refine .inl ⟨by omega, ?_⟩
    simp only [sessionStep, selected, replyRound, ended]
    simp

/-- A round of a thread that is alone: it has reached the end, or it sends the next
bytes. -/
theorem Orderly.sessionStep_reply (orderly : Orderly sign state) {conversation : Conversation}
    (selected : state.threads[thread]? = some (.replying conversation))
    (alone : Alone state.threads thread) :
    (conversation.start state.driver.commands + conversation.reply.length =
        state.driver.commands.flatten.length ∧
      sessionStep sign state (.reply thread .granted) =
        ⟨state.driver, 0, state.threads.set thread (.closed conversation)⟩) ∨
    ∃ next : Conversation, next.Sound state.driver.commands ∧
      next.start state.driver.commands = conversation.start state.driver.commands ∧
      conversation.reply.length < next.reply.length ∧
      sessionStep sign state (.reply thread .granted) =
        ⟨(aesdRead state.driver ReplyRound.granted.readCall state.fPos).state,
          (next.start state.driver.commands + next.reply.length : Nat),
          state.threads.set thread (.replying next)⟩ := by
  obtain ⟨packets, intact⟩ := orderly.device
  have readable := intact.readable
  have sound := orderly.sound thread conversation selected
  have within := sound.within
  have position : (toSizeT state.fPos).toNat =
      conversation.start state.driver.commands + conversation.reply.length := by
    rw [orderly.fPos_eq selected alone]
    exact DriverState.toNat_position readable.noWrap within
  have round := Aesd.sessionStep_reply sign selected readable.ring readable.noWrap rfl rfl
    (readable.hasBlock _) fun _ => (rfl : ReplyRound.granted.unsent = some 0)
  rw [position] at round
  rcases round with ⟨atEnd, ended⟩ | ⟨served, progress, fits, moved⟩
  · exact .inl ⟨Nat.le_antisymm within atEnd, ended⟩
  · obtain ⟨nextSound, length⟩ := sound.send fits
    refine .inr ⟨_, nextSound, rfl, by omega, ?_⟩
    rw [length, ← Nat.add_assoc]
    exact moved

end Steps

theorem Conversation.Sound.init {request : Request} {retval : Int} {commands : List (List Cell)}
    (own : ∀ call, request = .ordinary call → call.bytes.map some ∈ commands)
    (inRange : ∀ target, (Conversation.mk request retval []).target = some target →
      HasByte commands target) : (Conversation.mk request retval []).Sound commands where
  own := own
  inRange := inRange
  within := by
    unfold Conversation.start
    cases isTarget : (Conversation.mk request retval []).target with
    | none => exact Nat.zero_le _
    | some target => exact (bytePosition_lt (inRange target isTarget)).le
  soFar := rfl

namespace Orderly

variable {sign : CharSign} {state : SessionState} {thread : Nat}

theorem dispatchOrdinary (orderly : Orderly sign state) {call : WriteCall}
    (selected : state.threads[thread]? = some .receiving)
    (succeeds : state.driver.Succeeds sign call) (ends : call.bytes.getLast? = some newline)
    (missing : newline ∉ call.bytes.dropLast) (short : call.bytes.length ≤ sign.max)
    (room : state.driver.dev.circBuffer.full = false) :
    Orderly sign (sessionStep sign state (.dispatch thread (.ordinary call))) := by
  obtain ⟨packets, intact⟩ := orderly.device
  have isLine := (List.dropLast_append_getLast? newline ends).symm
  have next := intact.writeStep succeeds isLine missing short room
  have commands : (writeStep sign state.driver call).commands =
      state.driver.commands ++ [call.bytes.map some] := by
    rw [next.commands_eq, intact.commands_eq, List.map_append]
    rfl
  rw [sessionStep_ordinary selected]
  refine orderly.stepAside ⟨_, next⟩ commands (lt_of_selected selected)
    (not_holds_of_receiving selected) (.init ?_ ?_) ?_
  · rintro other same
    rw [← Request.ordinary.inj same, commands]
    simp
  · intro target isTarget
    simp [Conversation.target] at isTarget
  · simp [Phase.Holds, Conversation.target]

theorem dispatchSeek (orderly : Orderly sign state) {request : AesdSeekto} {lock : Bool}
    (selected : state.threads[thread]? = some .receiving)
    (kept : lock = true → request.writeCmdOffset.toNat <
      (state.driver.dev.circBuffer.slot request.writeCmd.toNat).size.toNat →
        Alone state.threads thread) :
    Orderly sign (sessionStep sign state (.dispatch thread (.seek request lock))) := by
  obtain ⟨packets, intact⟩ := orderly.device
  have inside := lt_of_selected selected
  rw [sessionStep_seek selected]
  rcases aesdUnlockedIoctl_cases state.driver.dev ⟨aesdcharIocseekto, some request, lock⟩
    state.fPos with ⟨retval, negative, result⟩ | ⟨locked, position, result⟩
  · -- A refused request leaves the position to whoever holds it.
    have noTarget : (Conversation.mk (.seek request lock) retval []).target = none := by
      simp [Conversation.target, negative.ne]
    simp only [result]
    refine orderly.stepAside orderly.device (List.append_nil _).symm inside
      (not_holds_of_receiving selected) (.init ?_ ?_) ?_
    · rintro call same
      cases same
    · intro target isTarget
      rw [noTarget] at isTarget
      cases isTarget
    · simp [Phase.Holds, noTarget]
  · obtain rfl : lock = true := locked
    have accepted := result
    rw [intact.aesdUnlockedIoctl] at accepted
    split at accepted
    next has =>
      obtain rfl := (Prod.mk.inj accepted).2
      have isTarget : (Conversation.mk (.seek request true) 0 []).target = some request := by
        simp [Conversation.target]
      have sound : (Conversation.mk (.seek request true) 0 []).Sound state.driver.commands :=
        .init (by rintro call ⟨⟩) fun target same => by
          rw [isTarget] at same
          exact Option.some.inj same ▸ has
      have taken := orderly.take orderly.device rfl inside
        (kept rfl ((intact.hasByte_iff request).mp has)) sound (.inr (by simp [isTarget]))
      rw [Conversation.start, isTarget] at taken
      simp only [result]
      exact taken
    next => exact absurd (Prod.mk.inj accepted).1 (by decide)

theorem reply (orderly : Orderly sign state) {conversation : Conversation}
    (selected : state.threads[thread]? = some (.replying conversation))
    (alone : Alone state.threads thread) :
    Orderly sign (sessionStep sign state (.reply thread .granted)) := by
  have inside := lt_of_selected selected
  rcases orderly.sessionStep_reply selected alone with ⟨-, ended⟩ | ⟨next, sound, -, more, moved⟩
  · rw [ended]
    exact orderly.release inside alone conversation
  · obtain ⟨packets, intact⟩ := orderly.device
    rw [moved]
    exact orderly.take ⟨packets, intact.aesdRead _ _⟩ (state.driver.commands_aesdRead _ _) inside
      alone sound (.inl (List.ne_nil_of_length_pos (by omega)))

/-- One step, whoever takes it. -/
theorem step (orderly : Orderly sign state) {step : SessionStep}
    (isolated : Isolated sign state step) : Orderly sign (sessionStep sign state step) := by
  cases step with
  | accept => exact orderly.accept
  | dispatch thread request =>
      by_cases selected : state.threads[thread]? = some .receiving
      · cases request with
        | ordinary call =>
            obtain ⟨succeeds, ends, missing, short, room⟩ := isolated selected
            exact orderly.dispatchOrdinary selected succeeds ends missing short room
        | seek request lock => exact orderly.dispatchSeek selected (isolated selected)
      · rwa [sessionStep_dispatch_of_ne selected]
  | reply thread round =>
      by_cases replying : ∃ conversation, state.threads[thread]? = some (.replying conversation)
      · obtain ⟨conversation, selected⟩ := replying
        obtain ⟨rfl, alone⟩ := isolated ⟨_, selected, rfl⟩
        exact orderly.reply selected alone
      · rwa [sessionStep_reply_of_ne (not_exists.mp replying)]

/-- When a thread ends its reply, the reply answers its request. -/
theorem settled (orderly : Orderly sign state) {step : SessionStep}
    (isolated : Isolated sign state step) {conversation : Conversation}
    (closed : (sessionStep sign state step).threads[thread]? = some (.closed conversation)) :
    state.threads[thread]? = some (.closed conversation) ∨
      (sessionStep sign state step).Dispatched thread ∧
        conversation.Answers (sessionStep sign state step).driver.commands := by
  cases step with
  | accept => exact .inl (phase_of_accept closed (by simp))
  | dispatch other request =>
      refine .inl ?_
      by_cases selected : state.threads[other]? = some .receiving
      · have inside := lt_of_selected selected
        obtain ⟨replying, phases⟩ := sessionStep_dispatch sign selected request
        rw [phases] at closed
        rcases selected_set closed with ⟨-, isNew⟩ | ⟨-, isOld⟩
        · cases isNew
        · exact isOld
      · rwa [sessionStep_dispatch_of_ne selected] at closed
  | reply other round =>
      by_cases replying : ∃ conversation, state.threads[other]? = some (.replying conversation)
      · obtain ⟨ending, selected⟩ := replying
        obtain ⟨rfl, alone⟩ := isolated ⟨_, selected, rfl⟩
        have inside := lt_of_selected selected
        rcases orderly.sessionStep_reply selected alone with
          ⟨atEnd, ended⟩ | ⟨next, -, -, -, moved⟩
        · rw [ended] at closed ⊢
          rcases selected_set closed with ⟨rfl, isNew⟩ | ⟨-, isOld⟩
          · obtain rfl := Phase.closed.inj isNew
            exact .inr ⟨⟨.closed conversation, closed, by simp⟩,
              (orderly.sound thread conversation selected).answers atEnd⟩
          · exact .inl isOld
        · rw [moved] at closed
          rcases selected_set closed with ⟨-, isNew⟩ | ⟨-, isOld⟩
          · cases isNew
          · exact .inl isOld
      · rw [sessionStep_reply_of_ne (not_exists.mp replying)] at closed
        exact .inl closed

/-- A thread that is left alone reaches the end of its reply. -/
theorem finishes (orderly : Orderly sign state) {conversation : Conversation}
    (selected : state.threads[thread]? = some (.replying conversation))
    (alone : Alone state.threads thread) :
    ∃ rounds ending,
      Runs.Along (sessionStep sign) (Isolated sign) state
        (List.replicate rounds (.reply thread .granted)) ∧
      (Runs.run (sessionStep sign) state
        (List.replicate rounds (.reply thread .granted))).threads[thread]? =
          some (.closed ending) := by
  obtain ⟨remaining, rest⟩ := Nat.exists_eq_add_of_le
    (orderly.sound thread conversation selected).within
  induction remaining using Nat.strongRecOn generalizing state conversation with
  | ind remaining ih =>
      have isolated : Isolated sign state (.reply thread .granted) := fun _ => ⟨rfl, alone⟩
      have inside := lt_of_selected selected
      have after := orderly.step isolated
      rcases orderly.sessionStep_reply selected alone with
        ⟨-, ended⟩ | ⟨next, sound, sameStart, more, moved⟩
      · refine ⟨1, conversation, ⟨isolated, trivial⟩, ?_⟩
        rw [List.replicate_one, Runs.run_cons, Runs.run_nil, ended]
        exact List.getElem?_set_self inside
      · have selectedNext : (sessionStep sign state (.reply thread .granted)).threads[thread]? =
            some (.replying next) := by
          rw [moved]
          exact List.getElem?_set_self inside
        have aloneNext : Alone (sessionStep sign state (.reply thread .granted)).threads thread :=
          fun other _ holds => after.exclusive other thread holds
            ⟨_, selectedNext, .inl (List.ne_nil_of_length_pos (by omega))⟩
        have same : (sessionStep sign state (.reply thread .granted)).driver.commands =
            state.driver.commands := by
          rw [moved]
          exact state.driver.commands_aesdRead _ _
        have within := sound.within
        obtain ⟨rounds, ending, along, closed⟩ := ih
          (remaining - (next.reply.length - conversation.reply.length)) (by omega) after
          selectedNext aloneNext (by rw [same]; omega)
        exact ⟨rounds + 1, ending, ⟨isolated, along⟩, closed⟩

end Orderly

/-! ## Runs -/

theorem orderly_session {sign : CharSign} {steps : List SessionStep}
    (isolated : Runs.Along (sessionStep sign) (Isolated sign) sessionInit steps) :
    Orderly sign (session sign steps) :=
  Runs.invariant (Orderly sign) (fun _ _ orderly isolated => orderly.step isolated)
    (orderly_init sign) isolated

theorem repliesIsolated_of_along {sign : CharSign} {steps : List SessionStep}
    (isolated : Runs.Along (sessionStep sign) (Isolated sign) sessionInit steps) :
    RepliesIsolated sign steps := fun thread conversation closed =>
  Runs.exists_moment (Orderly sign)
    (fun state => state.threads[thread]? = some (.closed conversation))
    (fun state => state.Dispatched thread ∧ conversation.Answers state.driver.commands)
    (fun _ _ orderly isolated => orderly.step isolated)
    (fun _ _ orderly isolated closed => orderly.settled isolated closed) (orderly_init sign)
    (fun closed => by simp [sessionInit] at closed) isolated closed

/-- Reply isolation. In every run whose steps keep replies apart, whatever the order in
which threads take them, every thread past its reply loop has sent the contents of the
device at one moment not before its own call, its own packet included, or after an
accepted seek the contents from the requested byte on; and a thread in its reply loop
that is left alone gets there. -/
theorem replies_isolated (sign : CharSign) (steps : List SessionStep)
    (isolated : Runs.Along (sessionStep sign) (Isolated sign) sessionInit steps) :
    RepliesIsolated sign steps ∧
      ∀ thread conversation,
        (session sign steps).threads[thread]? = some (.replying conversation) →
        Alone (session sign steps).threads thread →
        ∃ rounds ending,
          RepliesIsolated sign (steps ++ List.replicate rounds (.reply thread .granted)) ∧
          (session sign (steps ++ List.replicate rounds (.reply thread .granted))).threads[thread]?
            = some (.closed ending) := by
  refine ⟨repliesIsolated_of_along isolated, fun thread conversation selected alone => ?_⟩
  obtain ⟨rounds, ending, along, closed⟩ :=
    (orderly_session isolated).finishes selected alone
  refine ⟨rounds, ending, repliesIsolated_of_along
    ((Runs.Along.append_iff _ _ _).mpr ⟨isolated, along⟩), ?_⟩
  rw [session, Runs.run_append]
  exact closed

/-- Two packets whose threads take turns, and a seek to the second one. -/
theorem replies_isolated_three_threads :
    let steps : List SessionStep :=
      [.accept, .accept, .accept, .dispatch 0 (.ordinary (.granted [97, newline] 0)),
        .reply 0 .granted, .dispatch 1 (.ordinary (.granted [98, newline] 1)),
        .reply 0 .granted, .reply 0 .granted, .dispatch 2 (.seek ⟨1, 0⟩ true),
        .reply 2 .granted, .reply 2 .granted, .reply 1 .granted, .reply 1 .granted,
        .reply 1 .granted]
    RepliesIsolated .signed steps ∧
      (session .signed steps).threads[1]? = some (.closed
        ⟨.ordinary (.granted [98, newline] 1), 2,
          [some 97, some newline, some 98, some newline]⟩) ∧
      (session .signed steps).threads[2]? =
        some (.closed ⟨.seek ⟨1, 0⟩ true, 0, [some 98, some newline]⟩) :=
  ⟨(replies_isolated .signed _ (by decide +kernel)).1, by decide +kernel, by decide +kernel⟩

/-- Two threads write and then read in turns: the second gets its own packet only, at
the position where the first has left the shared file. -/
theorem replies_mixed_up :
    ¬RepliesIsolated .signed
      [.accept, .accept, .dispatch 0 (.ordinary (.granted [97, newline] 0)),
        .dispatch 1 (.ordinary (.granted [98, newline] 1)), .reply 0 .granted,
        .reply 1 .granted, .reply 1 .granted] := by
  intro isolated
  obtain ⟨visited, isPrefix, moment⟩ := isolated 1
    ⟨.ordinary (.granted [98, newline] 1), 2, [some 98, some newline]⟩ (by decide +kernel)
  rw [List.prefix_iff_eq_take.mp isPrefix] at moment
  have few : visited.length < 8 := Nat.lt_succ_of_le isPrefix.length_le
  revert moment
  generalize visited.length = count at few
  revert count
  decide +kernel

end Aesd
