import Aesd.Server.Isolation

/-!
# Connections one after another

A thread that handles a connection leaves the shared file open for the next one. Nothing
puts the position back on purpose: it is at 0 again only because a read past the retained
bytes resets it. A reply loop that ends otherwise, because a `send` or a read has failed or
because the read has met an entry without a block, leaves the position where it is, and
the next reply starts there.
-/

namespace Aesd

open KernelMemory MachineInt Parties

/-- The thread is in its reply loop. -/
def InReply (threads : List Phase) (thread : Nat) : Prop :=
  ∃ phase ∈ threads[thread]?, phase matches .replying _

instance (threads : List Phase) (thread : Nat) : Decidable (InReply threads thread) :=
  inferInstanceAs (Decidable (∃ phase ∈ threads[thread]?, _))

/-- No thread is in its reply loop. -/
def SessionState.Idle (state : SessionState) : Prop :=
  ∀ phase ∈ state.threads, ¬phase matches .replying _

instance (state : SessionState) : Decidable state.Idle :=
  inferInstanceAs (Decidable (∀ phase ∈ state.threads, _))

/-- Connections are handled one after another: a thread makes its call when the one before
has left its reply loop. -/
def OneAfterAnother (state : SessionState) : SessionStep → Prop
  | .accept => True
  | .dispatch _ _ => state.Idle
  | .reply _ _ => True

instance (state : SessionState) : (step : SessionStep) → Decidable (OneAfterAnother state step)
  | .accept => .isTrue trivial
  | .dispatch _ _ => inferInstanceAs (Decidable state.Idle)
  | .reply _ _ => .isTrue trivial

/-- A round of a reply loop goes on to the end of the contents: the read does not fail and
meets no entry without a block, and a chunk it returns is sent whole. -/
def GoesOn (state : SessionState) : SessionStep → Prop
  | .accept => True
  | .dispatch _ _ => True
  | .reply thread round =>
      InReply state.threads thread →
        round.lock = true ∧ round.uncopied = 0 ∧
          state.driver.dev.circBuffer.sizes.sum < 2 ^ 63 ∧ state.driver.HasBlock state.fPos ∧
          ((toSizeT state.fPos).toNat < state.driver.dev.circBuffer.sizes.sum →
            round.unsent = some 0)

instance (state : SessionState) : (step : SessionStep) → Decidable (GoesOn state step)
  | .accept => .isTrue trivial
  | .dispatch _ _ => .isTrue trivial
  | .reply thread _ => inferInstanceAs (Decidable (InReply state.threads thread → _))

/-- No connection disturbs the ones after it: the position is 0 whenever no thread is in
its reply loop, and a thread that ends its reply to an ordinary packet has sent the
contents of the device from byte 0 on. -/
structure Undisturbing (sign : CharSign) (steps : List SessionStep) : Prop where
  rewound : ∀ visited, visited <+: steps → (session sign visited).Idle →
    (session sign visited).fPos = 0
  complete : ∀ visited thread round call retval reply,
    visited ++ [.reply thread round] <+: steps →
    InReply (session sign visited).threads thread →
    (session sign (visited ++ [.reply thread round])).threads[thread]? =
      some (.closed ⟨.ordinary call, retval, reply⟩) →
    reply = (session sign visited).driver.commands.flatten

theorem inReply_iff {threads : List Phase} {thread : Nat} :
    InReply threads thread ↔
      ∃ conversation, threads[thread]? = some (.replying conversation) := by
  constructor
  · rintro ⟨phase, selected, replying⟩
    cases phase with
    | receiving => cases replying
    | replying conversation => exact ⟨conversation, selected⟩
    | closed conversation => cases replying
  · rintro ⟨conversation, selected⟩
    exact ⟨_, selected, rfl⟩

/-! ## Rounds -/

section Rounds

variable {state : SessionState} {thread : Nat} {round : ReplyRound}
  {conversation : Conversation}

/-- A round that goes on: it ends the reply and resets the position, or it sends the next
bytes. -/
theorem GoesOn.sessionStep_reply (goesOn : GoesOn state (.reply thread round))
    (sign : CharSign) (ring : state.driver.dev.circBuffer.WellFormed)
    (selected : state.threads[thread]? = some (.replying conversation)) :
    (state.driver.commands.flatten.length ≤ (toSizeT state.fPos).toNat ∧
      sessionStep sign state (.reply thread round) =
        ⟨state.driver, 0, state.threads.set thread (.closed conversation)⟩) ∨
    ∃ served, 0 < served ∧
      (toSizeT state.fPos).toNat + served ≤ state.driver.commands.flatten.length ∧
      sessionStep sign state (.reply thread round) =
        ⟨(aesdRead state.driver round.readCall state.fPos).state,
          ((toSizeT state.fPos).toNat + served : Nat),
          state.threads.set thread (.replying (conversation.send
            ((state.driver.commands.flatten.drop (toSizeT state.fPos).toNat).take served)))⟩ := by
  obtain ⟨lock, copies, noWrap, block, whole⟩ := goesOn ⟨_, selected, rfl⟩
  exact Aesd.sessionStep_reply sign selected ring noWrap lock copies block whole

theorem goesOn_granted (readable : state.driver.Readable) :
    GoesOn state (.reply thread .granted) := fun _ =>
  ⟨rfl, rfl, readable.noWrap, readable.hasBlock _, fun _ => rfl⟩

end Rounds

/-! ## Turns -/

/-- What connections one after another keep: one thread at most is in its reply loop, the
position is 0 if none is, and otherwise where the reply to an ordinary packet has got
to. -/
structure TakesTurns (state : SessionState) : Prop where
  device : state.driver.WellFormed
  exclusive : ∀ first second, InReply state.threads first → InReply state.threads second →
    first = second
  rewound : state.Idle → state.fPos = 0
  soFar : ∀ (thread : Nat) call retval reply,
    state.threads[thread]? = some (.replying ⟨.ordinary call, retval, reply⟩) →
      ∃ position : Nat, state.fPos = position ∧
        position ≤ state.driver.commands.flatten.length ∧
        reply = state.driver.commands.flatten.take position

theorem takesTurns_init : TakesTurns sessionInit where
  device := DriverState.wellFormed_init
  exclusive first second replying := by simp [InReply, sessionInit] at replying
  rewound _ := rfl
  soFar thread call retval reply selected := by simp [sessionInit] at selected

theorem SessionState.Idle.not_replying {state : SessionState} (idle : state.Idle) {thread : Nat}
    {conversation : Conversation} : state.threads[thread]? ≠ some (.replying conversation) :=
  fun selected => idle _ (List.mem_of_getElem? selected) rfl

namespace TakesTurns

variable {sign : CharSign} {state : SessionState} {thread : Nat}

/-- Another connection. -/
theorem accept (turns : TakesTurns state) :
    TakesTurns { state with threads := state.threads ++ [.receiving] } where
  device := turns.device
  exclusive := by
    intro first second firstReplying secondReplying
    obtain ⟨conversation, selected⟩ := inReply_iff.mp firstReplying
    obtain ⟨other, otherSelected⟩ := inReply_iff.mp secondReplying
    exact turns.exclusive first second
      (inReply_iff.mpr ⟨_, phase_of_accept selected (by simp)⟩)
      (inReply_iff.mpr ⟨_, phase_of_accept otherSelected (by simp)⟩)
  rewound idle := turns.rewound fun phase member => idle phase (List.mem_append_left _ member)
  soFar thread call retval reply selected :=
    turns.soFar thread call retval reply (phase_of_accept selected (by simp))

/-- The one thread in its reply loop goes on, or a thread enters it when none is in it. -/
theorem holding {driver : DriverState} (device : driver.WellFormed) {fPos : Int}
    (inside : thread < state.threads.length)
    (only : ∀ (other : Nat) (conversation : Conversation),
      state.threads[other]? = some (.replying conversation) → other = thread)
    {conversation : Conversation}
    (soFar : ∀ call retval reply, conversation = ⟨.ordinary call, retval, reply⟩ →
      ∃ position : Nat, fPos = position ∧ position ≤ driver.commands.flatten.length ∧
        reply = driver.commands.flatten.take position) :
    TakesTurns ⟨driver, fPos, state.threads.set thread (.replying conversation)⟩ := by
  have others : ∀ (other : Nat) (found : Conversation),
      (state.threads.set thread (.replying conversation))[other]? = some (.replying found) →
        other = thread := by
    intro other found selected
    rcases selected_set selected with ⟨same, -⟩ | ⟨-, isOld⟩
    · exact same
    · exact only other found isOld
  refine ⟨device, ?_, fun idle => ?_, ?_⟩
  · intro first second firstReplying secondReplying
    obtain ⟨found, selected⟩ := inReply_iff.mp firstReplying
    obtain ⟨other, otherSelected⟩ := inReply_iff.mp secondReplying
    rw [others first found selected, others second other otherSelected]
  · exact absurd (List.getElem?_set_self inside) idle.not_replying
  · intro other call retval reply selected
    obtain rfl := others other _ selected
    rw [List.getElem?_set_self inside] at selected
    exact soFar call retval reply (Phase.replying.inj (Option.some.inj selected))

/-- The one thread in its reply loop leaves it, and the position is back at 0. -/
theorem leave (turns : TakesTurns state) {conversation : Conversation}
    (selected : state.threads[thread]? = some (.replying conversation)) :
    TakesTurns ⟨state.driver, 0, state.threads.set thread (.closed conversation)⟩ := by
  have inside := lt_of_selected selected
  have nobody : ∀ (other : Nat) (found : Conversation),
      (state.threads.set thread (.closed conversation))[other]? ≠ some (.replying found) := by
    intro other found replying
    rcases selected_set replying with ⟨-, isNew⟩ | ⟨different, isOld⟩
    · cases isNew
    · exact different (turns.exclusive other thread (inReply_iff.mpr ⟨_, isOld⟩)
        (inReply_iff.mpr ⟨_, selected⟩))
  refine ⟨turns.device, ?_, fun _ => rfl, ?_⟩
  · intro first second firstReplying
    obtain ⟨found, replying⟩ := inReply_iff.mp firstReplying
    exact absurd replying (nobody first found)
  · intro other call retval reply replying
    exact absurd replying (nobody other _)

/-- What a thread has sent of the contents, in terms of the position as a read takes it. -/
theorem sent (turns : TakesTurns state) (noWrap : state.driver.dev.circBuffer.sizes.sum < 2 ^ 63)
    {call : WriteCall} {retval : Int} {reply : List Cell}
    (selected : state.threads[thread]? = some (.replying ⟨.ordinary call, retval, reply⟩)) :
    (toSizeT state.fPos).toNat ≤ state.driver.commands.flatten.length ∧
      reply = state.driver.commands.flatten.take (toSizeT state.fPos).toNat := by
  obtain ⟨position, isPosition, within, soFar⟩ := turns.soFar thread call retval reply selected
  rw [isPosition, DriverState.toNat_position noWrap within]
  exact ⟨within, soFar⟩

theorem dispatch (turns : TakesTurns state) (idle : state.Idle) (request : Request) :
    TakesTurns (sessionStep sign state (.dispatch thread request)) := by
  by_cases selected : state.threads[thread]? = some .receiving
  · have inside := lt_of_selected selected
    have only : ∀ (other : Nat) (conversation : Conversation),
        state.threads[other]? = some (.replying conversation) → other = thread :=
      fun other conversation replying => absurd replying idle.not_replying
    cases request with
    | ordinary call =>
        rw [sessionStep_ordinary selected]
        refine holding (wellFormed_writeStep sign state.driver call turns.device) inside only ?_
        rintro other retval reply ⟨⟩
        exact ⟨0, turns.rewound idle, Nat.zero_le _, rfl⟩
    | seek target lock =>
        rw [sessionStep_seek selected]
        refine holding turns.device inside only ?_
        rintro other retval reply ⟨⟩
  · rwa [sessionStep_dispatch_of_ne selected]

theorem reply (turns : TakesTurns state) {round : ReplyRound}
    (goesOn : GoesOn state (.reply thread round)) :
    TakesTurns (sessionStep sign state (.reply thread round)) := by
  by_cases replying : InReply state.threads thread
  · obtain ⟨conversation, selected⟩ := inReply_iff.mp replying
    have noWrap := (goesOn replying).2.2.1
    rcases goesOn.sessionStep_reply sign turns.device.ring selected with
      ⟨-, ended⟩ | ⟨served, -, fits, moved⟩
    · rw [ended]
      exact turns.leave selected
    · rw [moved]
      refine holding (turns.device.aesdRead _ _) (lt_of_selected selected)
        (fun other found isOther =>
          turns.exclusive other thread (inReply_iff.mpr ⟨found, isOther⟩) replying) ?_
      intro call retval reply isOrdinary
      obtain ⟨request, returned, before⟩ := conversation
      obtain ⟨rfl, rfl, rfl⟩ := Conversation.mk.inj isOrdinary
      rw [state.driver.commands_aesdRead]
      refine ⟨_, rfl, fits, ?_⟩
      rw [List.take_add, ← (turns.sent noWrap selected).2]
  · rwa [sessionStep_reply_of_ne fun conversation selected =>
      replying (inReply_iff.mpr ⟨conversation, selected⟩)]

theorem step (turns : TakesTurns state) {step : SessionStep}
    (next : OneAfterAnother state step ∧ GoesOn state step) :
    TakesTurns (sessionStep sign state step) := by
  cases step with
  | accept => exact turns.accept
  | dispatch thread request => exact turns.dispatch next.1 request
  | reply thread round => exact turns.reply next.2

/-- A round that ends the reply to an ordinary packet has found nothing left to send. -/
theorem complete (turns : TakesTurns state) {round : ReplyRound}
    (goesOn : GoesOn state (.reply thread round)) (replying : InReply state.threads thread)
    {call : WriteCall} {retval : Int} {reply : List Cell}
    (ended : (sessionStep sign state (.reply thread round)).threads[thread]? =
      some (.closed ⟨.ordinary call, retval, reply⟩)) :
    reply = state.driver.commands.flatten := by
  obtain ⟨conversation, selected⟩ := inReply_iff.mp replying
  have inside := lt_of_selected selected
  rcases goesOn.sessionStep_reply sign turns.device.ring selected with
    ⟨atEnd, left⟩ | ⟨served, -, -, moved⟩
  · rw [left, List.getElem?_set_self inside] at ended
    obtain rfl := Phase.closed.inj (Option.some.inj ended)
    rw [(turns.sent (goesOn replying).2.2.1 selected).2, List.take_of_length_le atEnd]
  · rw [moved, List.getElem?_set_self inside] at ended
    cases Option.some.inj ended

/-- On a device that has lost no block, the rounds of a thread come to an end. -/
theorem finishes (turns : TakesTurns state) {conversation : Conversation}
    (selected : state.threads[thread]? = some (.replying conversation))
    (readable : state.driver.Readable) :
    ∃ rounds ending,
      Runs.Along (sessionStep sign)
        (fun state step => OneAfterAnother state step ∧ GoesOn state step) state
        (List.replicate rounds (.reply thread .granted)) ∧
      (Runs.run (sessionStep sign) state
        (List.replicate rounds (.reply thread .granted))).threads[thread]? =
          some (.closed ending) := by
  obtain ⟨remaining, rest⟩ : ∃ remaining, state.driver.commands.flatten.length -
      (toSizeT state.fPos).toNat = remaining := ⟨_, rfl⟩
  induction remaining using Nat.strongRecOn generalizing state conversation with
  | ind remaining ih =>
      have goesOn : GoesOn state (.reply thread .granted) := goesOn_granted readable
      have inside := lt_of_selected selected
      have after : TakesTurns (sessionStep sign state (.reply thread .granted)) :=
        turns.reply goesOn
      rcases goesOn.sessionStep_reply sign turns.device.ring selected with
        ⟨-, ended⟩ | ⟨served, progress, fits, moved⟩
      · refine ⟨1, conversation, ⟨⟨trivial, goesOn⟩, trivial⟩, ?_⟩
        rw [List.replicate_one, Runs.run_cons, Runs.run_nil, ended]
        exact List.getElem?_set_self inside
      · have less : (aesdRead state.driver ReplyRound.granted.readCall
              state.fPos).state.commands.flatten.length -
            (toSizeT ((toSizeT state.fPos).toNat + served : Nat)).toNat < remaining := by
          rw [state.driver.commands_aesdRead, DriverState.toNat_position readable.noWrap fits]
          omega
        rw [moved] at after
        obtain ⟨rounds, ending, along, closed⟩ := ih _ less after
          (List.getElem?_set_self inside) (readable.aesdRead _ _) rfl
        refine ⟨rounds + 1, ending, ⟨⟨trivial, goesOn⟩, ?_⟩, ?_⟩
        · rw [moved]
          exact along
        · rw [List.replicate_succ, Runs.run_cons, moved]
          exact closed

end TakesTurns

/-! ## Runs -/

theorem takesTurns_session {sign : CharSign} {steps : List SessionStep}
    (along : Runs.Along (sessionStep sign)
      (fun state step => OneAfterAnother state step ∧ GoesOn state step) sessionInit steps) :
    TakesTurns (session sign steps) :=
  Runs.invariant TakesTurns (fun _ _ turns next => turns.step next) takesTurns_init along

theorem undisturbing_of_along {sign : CharSign} {steps : List SessionStep}
    (along : Runs.Along (sessionStep sign)
      (fun state step => OneAfterAnother state step ∧ GoesOn state step) sessionInit steps) :
    Undisturbing sign steps where
  rewound visited isPrefix := (takesTurns_session (along.of_prefix isPrefix)).rewound
  complete visited thread round call retval reply isPrefix replying ended := by
    obtain ⟨before, ⟨-, goesOn⟩, -⟩ :=
      (Runs.Along.append_iff _ _ _).mp (along.of_prefix isPrefix)
    rw [session, Runs.run_append, Runs.run_cons, Runs.run_nil] at ended
    exact (takesTurns_session before).complete goesOn replying ended

/-- Connections do not disturb their successors, as long as reply loops go on to the end:
in every run of connections one after another in which no round fails or meets an entry
without a block, the position is 0 when a connection ends, and every ordinary packet is
answered with the contents from byte 0 on, each command in its recorded size; and a
connection under way gets to its end. -/
theorem undisturbing (sign : CharSign) (steps : List SessionStep)
    (successive : Runs.Along (sessionStep sign) OneAfterAnother sessionInit steps)
    (goesOn : Runs.Along (sessionStep sign) GoesOn sessionInit steps) :
    Undisturbing sign steps ∧
      ∀ (thread : Nat) (conversation : Conversation),
        (session sign steps).threads[thread]? = some (.replying conversation) →
        (session sign steps).driver.Readable →
        ∃ rounds ending,
          Undisturbing sign (steps ++ List.replicate rounds (.reply thread .granted)) ∧
          (session sign (steps ++ List.replicate rounds (.reply thread .granted))).threads[thread]?
            = some (.closed ending) := by
  have along := successive.and goesOn
  refine ⟨undisturbing_of_along along, fun thread conversation selected readable => ?_⟩
  obtain ⟨rounds, ending, later, closed⟩ :=
    (takesTurns_session along).finishes selected readable
  refine ⟨rounds, ending, undisturbing_of_along
    ((Runs.Along.append_iff _ _ _).mpr ⟨along, later⟩), ?_⟩
  rw [session, Runs.run_append]
  exact closed

/-- A packet, a seek to its second byte, a seek to a command there is none of, and another
packet. -/
theorem undisturbing_four_connections :
    let steps : List SessionStep :=
      [.accept, .dispatch 0 (.ordinary (.granted [97, newline] 0)), .reply 0 .granted,
        .reply 0 .granted, .accept, .dispatch 1 (.seek ⟨0, 1⟩ true), .reply 1 .granted,
        .reply 1 .granted, .accept, .dispatch 2 (.seek ⟨5, 0⟩ true), .reply 2 .granted,
        .reply 2 .granted, .accept, .dispatch 3 (.ordinary (.granted [98, newline] 1)),
        .reply 3 .granted, .reply 3 .granted, .reply 3 .granted]
    Undisturbing .signed steps ∧
      (session .signed steps).threads[3]? = some (.closed
        ⟨.ordinary (.granted [98, newline] 1), 2,
          [some 97, some newline, some 98, some newline]⟩) :=
  ⟨(undisturbing .signed _ (by decide +kernel) (by decide +kernel)).1, by decide +kernel⟩

/-- The first connection fails in `send`, and the second one is sent its own packet
only. -/
theorem not_undisturbing_failed_send :
    let steps : List SessionStep :=
      [.accept, .dispatch 0 (.ordinary (.granted [97, newline] 0)), .reply 0 ⟨true, 0, none⟩,
        .accept, .dispatch 1 (.ordinary (.granted [98, newline] 1)), .reply 1 .granted,
        .reply 1 .granted]
    Runs.Along (sessionStep .signed) OneAfterAnother sessionInit steps ∧
      ¬Undisturbing .signed steps ∧
      (session .signed steps).threads[1]? = some (.closed
        ⟨.ordinary (.granted [98, newline] 1), 2, [some 98, some newline]⟩) := by
  refine ⟨by decide +kernel, fun undisturbing => ?_, by decide +kernel⟩
  have rewound := undisturbing.rewound
    [.accept, .dispatch 0 (.ordinary (.granted [97, newline] 0)), .reply 0 ⟨true, 0, none⟩]
    (by decide +kernel) (by decide +kernel)
  revert rewound
  decide +kernel

end Aesd
