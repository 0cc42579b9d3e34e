import Aesd.Server.FileLog

/-!
# The replies of the file-backed server

A connection rewinds its descriptor after its write, so its reply starts at the beginning of the
data file, whatever was written there by then and wherever the descriptor was left before. The
position moves on by what `read` returns, so what `send` does not accept of a chunk is left out.
-/

namespace Aesd

open OpenFile

/-- What a connection sends back: the bytes of its reply loop, behind its write. -/
def fileReply (state : FileServer) (position : Nat) (packet : Option (List UInt8))
    (ends : Nat → RoundEnd) : List UInt8 :=
  let file := writeAt state.file position (packet.getD [])
  (fileReplyLoop file (file.length + 1) ends 0).2

/-- An initial part of each chunk from a position on. -/
def chunkParts (file : List UInt8) : List Nat → Nat → List UInt8
  | [], _ => []
  | count :: counts, position =>
      (readAt file position initBufSize).take count ++
        chunkParts file counts (position + initBufSize)

theorem RoundEnd.exists_accepted (sends : RoundEnd) (chunk : List UInt8) :
    ∃ count, sends.accepted chunk = chunk.take count := by
  cases sends with
  | sent => exact ⟨chunk.length, List.take_length.symm⟩
  | sentPart count => exact ⟨count, rfl⟩
  | sendFailed | readFailed => exact ⟨0, List.take_zero.symm⟩

/-- Behind the end of the file nothing is sent. -/
theorem fileReplyLoop_behind {file : List UInt8} {position : Nat} (behind : file.length ≤ position)
    (fuel : Nat) (ends : Nat → RoundEnd) : (fileReplyLoop file fuel ends position).2 = [] := by
  have empty : readAt file position initBufSize = [] :=
    (readAt_eq_nil_iff file position (by decide)).mpr behind
  cases fuel with
  | zero => rfl
  | succ fuel =>
      rw [fileReplyLoop, empty]
      split
      next => rfl
      next => rfl
      next => rfl

/-- A reply loop sends an initial part of each chunk ahead. -/
theorem fileReplyLoop_parts (file : List UInt8) (fuel : Nat) (ends : Nat → RoundEnd)
    (position : Nat) :
    ∃ counts, (fileReplyLoop file fuel ends position).2 = chunkParts file counts position := by
  induction fuel generalizing ends position with
  | zero => exact ⟨[], rfl⟩
  | succ fuel ih =>
      rw [fileReplyLoop]
      dsimp only
      split
      next => exact ⟨[], rfl⟩
      next => exact ⟨[], rfl⟩
      next =>
        split
        next => exact ⟨[], rfl⟩
        next =>
          obtain ⟨count, part⟩ := (ends 0).exists_accepted (readAt file position initBufSize)
          by_cases whole : (readAt file position initBufSize).length = initBufSize
          case pos =>
            obtain ⟨counts, later⟩ := ih (fun round => ends (round + 1)) (position + initBufSize)
            refine ⟨count :: counts, ?_⟩
            rw [whole, later, part, chunkParts]
          case neg =>
            -- a chunk that is not whole is the last one
            have last : file.length ≤ position + (readAt file position initBufSize).length := by
              rw [readAt, List.length_take, List.length_drop] at whole ⊢
              omega
            refine ⟨[count], ?_⟩
            rw [fileReplyLoop_behind last, part, chunkParts, chunkParts]

/-- If no chunk is sent in part, a reply loop sends what lies ahead, up to where it stops. -/
theorem fileReplyLoop_prefix (file : List UInt8) (fuel : Nat) {ends : Nat → RoundEnd}
    (whole : ∀ round count, ends round ≠ .sentPart count) (position : Nat) :
    (fileReplyLoop file fuel ends position).2 <+: file.drop position := by
  induction fuel generalizing ends position with
  | zero => exact List.nil_prefix
  | succ fuel ih =>
      rw [fileReplyLoop]
      dsimp only
      split
      next => exact List.nil_prefix
      next => exact List.nil_prefix
      next unread unsent =>
        have sent : ends 0 = .sent := by
          cases first : ends 0 with
          | sent => rfl
          | sentPart count => exact absurd first (whole 0 count)
          | sendFailed => exact absurd first unsent
          | readFailed => exact absurd first unread
        split
        next => exact List.nil_prefix
        next =>
          obtain ⟨rest, later⟩ := ih (fun round => whole (round + 1))
            (position + (readAt file position initBufSize).length)
          refine ⟨rest, ?_⟩
          rw [sent, RoundEnd.accepted, List.append_assoc, later, readAt_append_drop]

/-- A reply loop whose chunks are all sent whole sends all that lies ahead. -/
theorem fileReplyLoop_sent (file : List UInt8) {fuel position : Nat}
    (enough : file.length < position + fuel) (within : position ≤ file.length) :
    (fileReplyLoop file fuel (fun _ => .sent) position).2 = file.drop position := by
  induction fuel generalizing position with
  | zero => omega
  | succ fuel ih =>
      have chunk := readAt_eq_nil_iff file position (show 0 < initBufSize by decide)
      rw [@fileReplyLoop_succ file fuel (fun _ => .sent) trivial position]
      dsimp only
      split
      next empty => exact (List.drop_eq_nil_of_le (chunk.mp empty)).symm
      next nonempty =>
        have progress := List.length_pos_of_ne_nil nonempty
        have most : (readAt file position initBufSize).length ≤ file.length - position := by
          rw [readAt, List.length_take, List.length_drop]
          exact Nat.min_le_right _ _
        rw [ih (by omega) (by omega), RoundEnd.accepted, readAt_append_drop]

/-- The file behind a connection is the one its reply is read from. -/
theorem file_connection {state : LoggedServer} {position : Nat}
    (opened : state.server.fdPos = some position) (packet : Option (List UInt8))
    (ends : Nat → RoundEnd) :
    (loggedStep state (.connection packet ends)).server.file =
      writeAt state.server.file position (packet.getD []) := by
  simp only [loggedStep, fileStep, opened, threadSocketSection]

/-- Replies of the file-backed server. After any steps, timestamps and failed replies included, what
a connection sends is an initial part of each chunk of the data file as its own write leaves it: an
initial part of the file if no chunk is sent in part, and all of it if besides nothing fails. If no
step before it was disturbed, this is everything that has been written so far, its own packet
last. -/
theorem fileReplies (steps : List FileStep) (position : Nat) (packet : Option (List UInt8))
    (opened : (fileServer steps).server.fdPos = some position) :
    (∀ ends, ∃ counts, fileReply (fileServer steps).server position packet ends =
      chunkParts (fileServer (steps ++ [.connection packet ends])).server.file counts 0) ∧
    (∀ ends, (∀ round count, ends round ≠ .sentPart count) →
      fileReply (fileServer steps).server position packet ends <+:
        (fileServer (steps ++ [.connection packet ends])).server.file) ∧
    fileReply (fileServer steps).server position packet (fun _ => .sent) =
      (fileServer (steps ++ [.connection packet fun _ => .sent])).server.file ∧
    ((∀ step ∈ steps, step.Undisturbed) →
      fileReply (fileServer steps).server position packet (fun _ => .sent) =
        (fileServer steps).log ++ packet.getD []) := by
  have after : ∀ ends, (fileServer (steps ++ [.connection packet ends])).server.file =
      writeAt (fileServer steps).server.file position (packet.getD []) := by
    intro ends
    rw [fileServer, Runs.run_append]
    exact file_connection opened packet ends
  have all : fileReply (fileServer steps).server position packet (fun _ => .sent) =
      (fileServer (steps ++ [.connection packet fun _ => .sent])).server.file := by
    rw [after, fileReply, fileReplyLoop_sent _ (by omega) (Nat.zero_le _), List.drop_zero]
  refine ⟨?_, ?_, all, ?_⟩
  case refine_1 =>
    intro ends
    rw [after]
    exact fileReplyLoop_parts _ _ ends 0
  case refine_2 =>
    intro ends whole
    rw [after]
    exact fileReplyLoop_prefix _ _ whole 0
  case refine_3 =>
    intro undisturbed
    have isLog : (fileServer (steps ++ [.connection packet fun _ => .sent])).IsLog := by
      apply isLog_of_undisturbed
      intro step member
      rcases List.mem_append.mp member with earlier | last
      · exact undisturbed step earlier
      · obtain rfl := List.mem_singleton.mp last
        exact fun _ => trivial
    rw [all, isLog, fileServer, Runs.run_append]
    change _ ++ FileStep.bytes _ _ = _
    rw [FileStep.bytes, if_neg]
    · rfl
    · intro closed
      cases opened.symm.trans closed

/-- A timestamp before the first connection and one behind it, a packet whose reply fails, and
another packet. -/
theorem fileReplies_two_packets :
    let steps : List FileStep :=
      [.tick [84, newline], .accept, .tick [84, newline], .connection (some [97, newline])
        fun _ => .sendFailed]
    let packet := some [98, newline]
    (∀ ends, ∃ counts, fileReply (fileServer steps).server 4 packet ends =
      chunkParts (fileServer (steps ++ [.connection packet ends])).server.file counts 0) ∧
    (∀ ends, (∀ round count, ends round ≠ .sentPart count) →
      fileReply (fileServer steps).server 4 packet ends <+:
        (fileServer (steps ++ [.connection packet ends])).server.file) ∧
    fileReply (fileServer steps).server 4 packet (fun _ => .sent) =
      (fileServer (steps ++ [.connection packet fun _ => .sent])).server.file ∧
    ((∀ step ∈ steps, step.Undisturbed) →
      fileReply (fileServer steps).server 4 packet (fun _ => .sent) =
        (fileServer steps).log ++ packet.getD []) := by
  intro steps packet
  exact fileReplies steps 4 packet (by decide +kernel)

/-- Of a chunk that is sent in part the rest is left out, and the next chunk follows the part. -/
example :
    let packet := List.replicate initBufSize 97 ++ [newline]
    (fileReply ⟨[], 0, some 0⟩ 0 (some packet) fun round =>
      if round = 0 then .sentPart 2 else .sent) = [97, 97, newline] := by
  decide +kernel

end Aesd
