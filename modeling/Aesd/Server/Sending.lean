import Aesd.Server.Isolation

/-!
# Replies and partial sends

The reply loop of `thread_socket` compares what `send` returns with -1 and with nothing
else. `send` may accept a part of the chunk, as it does when a signal interrupts it: the
handlers are installed without `SA_RESTART`. The rest of the chunk is then never sent, and
the next chunk follows the part.
-/

namespace Aesd

open KernelMemory MachineInt Parties

/-- What the calls of one pass of the reply loop return: `rd_bytes`, the bytes that `read`
has stored, and how many of them `send` accepts (`none` if it returns -1). -/
structure ReplyPass where
  rdBytes : Int
  chunk : List Cell
  sent : Option Nat
  deriving DecidableEq, Repr

namespace ReplyPass

/-- The bytes that the socket accepts in this pass. -/
def accepted (pass : ReplyPass) : List Cell :=
  if pass.rdBytes > 0 then pass.chunk.take (pass.sent.getD 0) else []

/-- The loop ends with this pass. -/
def isLast (pass : ReplyPass) : Bool := pass.rdBytes ≤ 0 || pass.sent.isNone

end ReplyPass

/-- The reply loop: the bytes that the socket accepts, pass after pass. -/
def replyLoop : List ReplyPass → List Cell
  | [] => []
  | pass :: passes =>
      if pass.rdBytes > 0 then
        match pass.sent with
        | none => []
        | some accepted => pass.chunk.take accepted ++ replyLoop passes
      else []

theorem replyLoop_cons (pass : ReplyPass) (passes : List ReplyPass) :
    replyLoop (pass :: passes) =
      pass.accepted ++ if pass.isLast then [] else replyLoop passes := by
  obtain ⟨rdBytes, chunk, sent⟩ := pass
  by_cases positive : rdBytes > 0
  · cases sent with
    | none => simp [replyLoop, ReplyPass.accepted, ReplyPass.isLast]
    | some accepted =>
        simp [replyLoop, ReplyPass.accepted, ReplyPass.isLast, positive]
  · simp [replyLoop, ReplyPass.accepted, ReplyPass.isLast, positive, Int.not_lt.mp positive]

/-- Nothing is sent twice and nothing out of order: what the socket accepts is a part of
what has been read, in its order. -/
theorem replyLoop_sublist (passes : List ReplyPass) :
    List.Sublist (replyLoop passes) (passes.map ReplyPass.chunk).flatten := by
  induction passes with
  | nil => exact List.Sublist.refl []
  | cons pass passes ih =>
      have first : List.Sublist pass.accepted pass.chunk := by
        unfold ReplyPass.accepted
        split
        next => exact List.take_sublist ..
        next => exact List.nil_sublist _
      have later : List.Sublist (if pass.isLast then [] else replyLoop passes)
          (passes.map ReplyPass.chunk).flatten := by
        split
        next => exact List.nil_sublist _
        next => exact ih
      rw [replyLoop_cons, List.map_cons, List.flatten_cons]
      exact first.append later

/-! ## What the client gets -/

/-- A chunk with bytes, and the number of bytes that `send` accepts of it. -/
structure Sending where
  chunk : List Cell
  accepted : Nat
  accepted_pos : 0 < accepted
  accepted_le : accepted ≤ chunk.length

namespace Sending

/-- The pass that sends the chunk. -/
def pass (sending : Sending) : ReplyPass :=
  ⟨sending.chunk.length, sending.chunk, some sending.accepted⟩

theorem replyLoop_cons (sending : Sending) (passes : List ReplyPass) :
    replyLoop (sending.pass :: passes) =
      sending.chunk.take sending.accepted ++ replyLoop passes := by
  have nonempty := Nat.lt_of_lt_of_le sending.accepted_pos sending.accepted_le
  have positive : sending.pass.rdBytes > 0 := show (sending.chunk.length : Int) > 0 by omega
  rw [replyLoop, if_pos positive]
  rfl

/-- The bytes read. -/
def stream (sendings : List Sending) : List Cell := (sendings.map chunk).flatten

end Sending

/-- The pass on which the loop ends: `read` returns 0, or -1. -/
def endPass (failed : Bool) : ReplyPass := ⟨if failed then -1 else 0, [], none⟩

theorem replyLoop_endPass (failed : Bool) : replyLoop [endPass failed] = [] := by
  cases failed <;> rfl

/-- The client gets exactly the bytes read. -/
def Delivers (sendings : List Sending) (failed : Bool) : Prop :=
  replyLoop (sendings.map Sending.pass ++ [endPass failed]) = Sending.stream sendings

instance (sendings : List Sending) (failed : Bool) : Decidable (Delivers sendings failed) :=
  inferInstanceAs (Decidable (_ = _))

/-- The client gets no more bytes than were read, and as many only if every chunk is accepted
whole. -/
theorem replyLoop_length (sendings : List Sending) (failed : Bool) :
    (replyLoop (sendings.map Sending.pass ++ [endPass failed])).length ≤
        (Sending.stream sendings).length ∧
      ((replyLoop (sendings.map Sending.pass ++ [endPass failed])).length =
          (Sending.stream sendings).length →
        ∀ sending ∈ sendings, sending.accepted = sending.chunk.length) := by
  induction sendings with
  | nil => simp [replyLoop_endPass]
  | cons sending sendings ih =>
      obtain ⟨shorter, whole⟩ := ih
      have bound := sending.accepted_le
      have length : (Sending.stream (sending :: sendings)).length =
          sending.chunk.length + (Sending.stream sendings).length := by
        simp [Sending.stream]
      rw [List.map_cons, List.cons_append, Sending.replyLoop_cons, List.length_append,
        List.length_take, Nat.min_eq_left bound, length]
      refine ⟨by omega, fun same other member => ?_⟩
      rcases List.mem_cons.mp member with rfl | later
      · omega
      · exact whole (by omega) other later

/-- Chunks accepted whole arrive whole. -/
theorem delivers_of_whole {sendings : List Sending} (failed : Bool)
    (whole : ∀ sending ∈ sendings, sending.accepted = sending.chunk.length) :
    Delivers sendings failed := by
  induction sendings with
  | nil => exact replyLoop_endPass failed
  | cons sending sendings ih =>
      have here := whole sending List.mem_cons_self
      have later : replyLoop (sendings.map Sending.pass ++ [endPass failed]) =
          Sending.stream sendings :=
        ih fun other member => whole other (List.mem_cons_of_mem _ member)
      rw [Delivers, List.map_cons, List.cons_append, Sending.replyLoop_cons, here,
        List.take_length, later]
      rfl

/-- The client gets exactly the bytes read if and only if `send` accepts every chunk whole. -/
theorem delivers_iff (sendings : List Sending) (failed : Bool) :
    Delivers sendings failed ↔ ∀ sending ∈ sendings, sending.accepted = sending.chunk.length :=
  ⟨fun delivered => (replyLoop_length sendings failed).2 (congrArg List.length delivered),
    delivers_of_whole failed⟩

/-- Of a first chunk of four bytes `send` accepts two. The client gets the second chunk in the
place of the other two. -/
theorem not_delivers_partial_send :
    ¬Delivers [⟨[some 97, some 98, some 99, some 10], 2, by decide, by decide⟩,
      ⟨[some 100, some 10], 2, by decide, by decide⟩] false := by
  decide

/-! ## The loop in the server -/

/-- A round of a thread, as its reply loop sees it. -/
def ReplyRound.pass (round : ReplyRound) (driver : DriverState) (fPos : Int) : ReplyPass :=
  let result := aesdRead driver round.readCall fPos
  ⟨result.retval, result.data, round.unsent.map fun unsent => result.data.length - unsent⟩

/-- What the client has been sent. -/
def Phase.reply : Phase → List Cell
  | .receiving => []
  | .replying conversation => conversation.reply
  | .closed conversation => conversation.reply

/-- What the client of a thread has been sent; nothing if it is not connected yet. -/
def SessionState.reply (state : SessionState) (thread : Nat) : List Cell :=
  (state.threads[thread]?.map Phase.reply).getD []

/-- The pass of the reply loop of this thread that a step is, if it is one. -/
def replyPass (state : SessionState) (thread : Nat) : SessionStep → Option ReplyPass
  | .reply acting round =>
      if acting = thread then
        match state.threads[thread]? with
        | some (.replying _) => some (round.pass state.driver state.fPos)
        | _ => none
      else none
  | _ => none

/-- The passes of the reply loop of a thread in a run. -/
def replyPasses (sign : CharSign) (thread : Nat) :
    SessionState → List SessionStep → List ReplyPass
  | _, [] => []
  | state, step :: steps =>
      (replyPass state thread step).toList ++
        replyPasses sign thread (sessionStep sign state step) steps

/-- A round adds to the reply what the socket accepts in its pass, and the last pass ends the
loop. -/
theorem replyRound_pass (driver : DriverState) (fPos : Int) (conversation : Conversation)
    (round : ReplyRound) :
    (replyRound driver fPos conversation round).2.2.reply =
        conversation.reply ++ (round.pass driver fPos).accepted ∧
      ((round.pass driver fPos).isLast = true →
        (replyRound driver fPos conversation round).2.2 = .closed conversation) := by
  by_cases ended : (aesdRead driver round.readCall fPos).retval ≤ 0
  · simp [replyRound, ended, Phase.reply, ReplyRound.pass, ReplyPass.accepted,
      Int.not_lt.mpr ended]
  · have positive := Int.not_le.mp ended
    cases unsent : round.unsent with
    | none =>
        simp [replyRound, ended, unsent, Phase.reply, ReplyRound.pass, ReplyPass.accepted]
    | some rest =>
        simp [replyRound, ended, unsent, positive, Phase.reply, Conversation.send,
          ReplyRound.pass, ReplyPass.accepted, ReplyPass.isLast]

section Steps

variable {sign : CharSign} {state : SessionState} {thread : Nat}

theorem reply_of_phase {phase : Phase} (selected : state.threads[thread]? = some phase) :
    state.reply thread = phase.reply := by
  rw [SessionState.reply, selected]
  rfl

/-- What a step does to the threads: nothing, a connection, a first call, or a pass of a reply
loop. -/
theorem sessionStep_threads (sign : CharSign) (state : SessionState) (step : SessionStep) :
    (∀ thread, replyPass state thread step = none) ∧
        ((sessionStep sign state step).threads = state.threads ∨
          (sessionStep sign state step).threads = state.threads ++ [.receiving] ∨
          ∃ acting conversation, state.threads[acting]? = some .receiving ∧
            conversation.reply = [] ∧ (sessionStep sign state step).threads =
              state.threads.set acting (.replying conversation)) ∨
      ∃ acting conversation round, step = .reply acting round ∧
        state.threads[acting]? = some (.replying conversation) ∧
        (sessionStep sign state step).threads = state.threads.set acting
          (replyRound state.driver state.fPos conversation round).2.2 := by
  cases step with
  | accept => exact .inl ⟨fun _ => rfl, .inr (.inl rfl)⟩
  | dispatch acting request =>
      refine .inl ⟨fun _ => rfl, ?_⟩
      by_cases selected : state.threads[acting]? = some .receiving
      · refine .inr (.inr ⟨acting, ?_⟩)
        cases request with
        | ordinary call => exact ⟨_, selected, rfl, by rw [sessionStep_ordinary selected]⟩
        | seek target lock => exact ⟨_, selected, rfl, by rw [sessionStep_seek selected]⟩
      · exact .inl (by rw [sessionStep_dispatch_of_ne selected])
  | reply acting round =>
      by_cases inLoop : ∃ conversation, state.threads[acting]? = some (.replying conversation)
      · obtain ⟨conversation, selected⟩ := inLoop
        refine .inr ⟨acting, conversation, round, rfl, selected, ?_⟩
        simp only [sessionStep, selected]
      · have elsewhere := not_exists.mp inLoop
        refine .inl ⟨fun thread => ?_, .inl (by rw [sessionStep_reply_of_ne elsewhere])⟩
        rw [replyPass]
        split
        next same =>
          subst same
          split
          next conversation selected => exact absurd selected (elsewhere conversation)
          next => rfl
        next => rfl

/-- A thread past its reply loop stays there, and makes no pass. -/
theorem replyPasses_closed {conversation : Conversation}
    (selected : state.threads[thread]? = some (.closed conversation))
    (steps : List SessionStep) : replyPasses sign thread state steps = [] := by
  induction steps generalizing state with
  | nil => rfl
  | cons step steps ih =>
      have idle : replyPass state thread step = none := by
        cases step with
        | accept => rfl
        | dispatch => rfl
        | reply acting round => simp [replyPass, selected]
      have inside := lt_of_selected selected
      have stays : (sessionStep sign state step).threads[thread]? =
          some (.closed conversation) := by
        rcases sessionStep_threads sign state step with
          ⟨-, same | more | ⟨acting, other, earlier, -, changed⟩⟩ |
          ⟨acting, other, round, -, earlier, changed⟩
        · rw [same, selected]
        · rw [more, List.getElem?_append_left inside, selected]
        · have apart : acting ≠ thread := by
            rintro rfl
            cases selected.symm.trans earlier
          rw [changed, List.getElem?_set_ne apart, selected]
        · have apart : acting ≠ thread := by
            rintro rfl
            cases selected.symm.trans earlier
          rw [changed, List.getElem?_set_ne apart, selected]
      rw [replyPasses, idle, ih stays]
      rfl

/-- A step adds to the reply what the socket accepts in the pass, if it is one, and the last
pass ends the loop. -/
theorem reply_sessionStep (sign : CharSign) (state : SessionState) (thread : Nat)
    (step : SessionStep) :
    (sessionStep sign state step).reply thread =
        state.reply thread ++ ((replyPass state thread step).map ReplyPass.accepted).getD [] ∧
      ∀ pass ∈ replyPass state thread step, pass.isLast = true → ∃ conversation,
        (sessionStep sign state step).threads[thread]? = some (.closed conversation) := by
  rcases sessionStep_threads sign state step with
    ⟨idle, same | more | ⟨acting, conversation, selected, fresh, changed⟩⟩ |
    ⟨acting, conversation, round, rfl, selected, changed⟩
  · refine ⟨?_, by simp [idle]⟩
    simp [SessionState.reply, same, idle]
  · refine ⟨?_, by simp [idle]⟩
    rw [idle, SessionState.reply, more, SessionState.reply]
    by_cases inside : thread < state.threads.length
    · simp [List.getElem?_append_left inside]
    · have outside := Nat.not_lt.mp inside
      rw [List.getElem?_append_right outside, List.getElem?_eq_none outside]
      cases thread - state.threads.length <;> rfl
  · refine ⟨?_, by simp [idle]⟩
    have inside := lt_of_selected selected
    rw [idle, SessionState.reply, changed]
    by_cases same : acting = thread
    · subst same
      rw [List.getElem?_set_self inside, reply_of_phase selected]
      exact fresh
    · rw [List.getElem?_set_ne same]
      simp [SessionState.reply]
  · have inside := lt_of_selected selected
    obtain ⟨sent, last⟩ := replyRound_pass state.driver state.fPos conversation round
    rw [SessionState.reply, changed]
    by_cases same : acting = thread
    · subst same
      have pass : replyPass state acting (.reply acting round) =
          some (round.pass state.driver state.fPos) := by simp [replyPass, selected]
      rw [pass, List.getElem?_set_self inside, reply_of_phase selected]
      refine ⟨sent, fun other isPass ended => ⟨conversation, ?_⟩⟩
      obtain rfl := Option.some.inj isPass
      rw [last ended]
    · rw [List.getElem?_set_ne same, replyPass, if_neg same]
      simp [SessionState.reply]

theorem reply_run (sign : CharSign) (state : SessionState) (thread : Nat)
    (steps : List SessionStep) :
    (Runs.run (sessionStep sign) state steps).reply thread =
      state.reply thread ++ replyLoop (replyPasses sign thread state steps) := by
  induction steps generalizing state with
  | nil => exact (List.append_nil _).symm
  | cons step steps ih =>
      obtain ⟨added, last⟩ := reply_sessionStep sign state thread step
      rw [Runs.run_cons, ih, added, replyPasses]
      cases isPass : replyPass state thread step with
      | none => simp
      | some pass =>
          rw [Option.toList_some, List.singleton_append, replyLoop_cons, List.append_assoc]
          cases ended : pass.isLast with
          | false => rfl
          | true =>
              obtain ⟨conversation, selected⟩ := last pass isPass ended
              rw [replyPasses_closed selected]
              rfl

end Steps

/-- What a client has been sent after a run is what the reply loop of its thread makes of its
passes, whatever the other threads do in between. -/
theorem session_reply (sign : CharSign) (steps : List SessionStep) (thread : Nat) :
    (session sign steps).reply thread =
      replyLoop (replyPasses sign thread sessionInit steps) :=
  reply_run sign sessionInit thread steps

end Aesd
