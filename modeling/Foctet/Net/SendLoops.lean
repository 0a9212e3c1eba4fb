import Foctet.Core.Codec
import Foctet.Lib.Loop
import Foctet.Lib.Outcome
import Foctet.Net.FileReceive

/-! The loops of `send` and of `send_file`, with the slices and the buffer as the code has them.
Where the messages go is a parameter: the framed writer of a stream, or a list that keeps them. -/
namespace Foctet.Net
open Foctet.Core Foctet.Lib Foctet.Mux

/-- Where messages go: a writer takes one, or fails. -/
abbrev Sink (W M : Type) := W → M → Except IoError W

/-- A writer that accepts every message, and keeps them. -/
def accepting {M : Type} : Sink (List M) M := fun sent m => .ok (sent ++ [m])

section
variable {W M : Type}

/-- One round of `QuicStream::send`, on `total_sent` and the writer. -/
def sendRound (write : Sink W (List UInt8)) (writeBufferSize : Nat) (data : List UInt8) :
    Nat × W → Round (Nat × W) (Outcome IoError Unit × W)
  | (totalSent, writer) =>
      if totalSent < data.length then
        let chunkSize := min writeBufferSize (data.length - totalSent)
        match slice data totalSent (totalSent + chunkSize) with
        | none => .done (.panic, writer)
        | some chunk =>
            match write writer chunk with
            | .ok writer => .again (totalSent + chunkSize, writer)
            | .error e => .done (.err e, writer)
      else .done (.ok (), writer)

/-- `send`, into some writer. Nothing if the fuel is not enough. -/
def QuicStream.sendTo (s : QuicStream) (write : Sink W (List UInt8)) (writer : W)
    (data : List UInt8) (fuel : Nat) : Option (Outcome IoError Unit × W) :=
  loop (sendRound write s.writeBufferSize data) fuel (0, writer)

/-- What `file.read(&mut buf)` returns: zero only for an empty buffer or at the end. -/
def readLen (bufferSize short : Nat) (left : List UInt8) : Nat :=
  min (short + 1) (min bufferSize left.length)

theorem readLen_le (bufferSize short : Nat) (left : List UInt8) :
    readLen bufferSize short left ≤ left.length := by
  unfold readLen
  omega

/-- A file on the disk. It may fail to open, and each read of it may fail or deliver less
than the buffer holds: the `k`-th at most one byte more than given. -/
structure StoredFile where
  content : List UInt8
  opening : Except IoError Unit
  reading : Nat → Except IoError Nat

/-- `file.read(&mut buf)`, the `k`-th: how much was read, the buffer, and what is left of the
file. A read into an empty buffer succeeds at once. -/
def StoredFile.read (file : StoredFile) (k : Nat) (left buf : List UInt8) :
    Except IoError (Nat × List UInt8 × List UInt8) :=
  if buf = [] then .ok (0, buf, left)
  else
    match file.reading k with
    | .error e => .error e
    | .ok short =>
        let n := readLen buf.length short left
        .ok (n, left.take n ++ buf.drop n, left.drop n)

structure FileState (W : Type) where
  reads : Nat
  left : List UInt8
  buf : List UInt8
  writer : W

/-- One round of `send_file`; `message` is what is made of a chunk. -/
def sendFileRound (write : Sink W M) (message : List UInt8 → M) (file : StoredFile)
    (s : FileState W) : Round (FileState W) (Outcome IoError Unit × W) :=
  match file.read s.reads s.left s.buf with
  | .error e => .done (.err e, s.writer)
  | .ok (n, buf, left) =>
      if n = 0 then .done (.ok (), s.writer)
      else
        match slice buf 0 n with
        | none => .done (.panic, s.writer)
        | some chunk =>
            match write s.writer (message chunk) with
            | .ok writer => .again ⟨s.reads + 1, left, buf, writer⟩
            | .error e => .done (.err e, s.writer)

/-- The loop of `send_file` with a buffer, from the start of the file. -/
def sendFileLoop (write : Sink W M) (message : List UInt8 → M) (file : StoredFile) (buf : List UInt8)
    (writer : W) (fuel : Nat) : Option (Outcome IoError Unit × W) :=
  loop (sendFileRound write message file) fuel ⟨0, file.content, buf, writer⟩

/-- `vec![0u8; size]`. Without bytes there is nothing to allocate; above `isize::MAX` it panics,
and when the allocator does not grant the block the process is aborted. -/
def newBuffer (grants : Nat → Bool) (size : Nat) : Option (List UInt8) :=
  if size = 0 then some []
  else if size ≤ isizeMax ∧ grants size then some (List.replicate size 0)
  else none

/-- The body of both `send_file`. -/
def sendStoredFile (grants : Nat → Bool) (write : Sink W M) (message : List UInt8 → M)
    (writeBufferSize : Nat) (writer : W) (file : StoredFile) (fuel : Nat) :
    Option (Outcome IoError Unit × W) :=
  match file.opening with
  | .error e => some (.err e, writer)
  | .ok () =>
      match newBuffer grants writeBufferSize with
      | none => some (.panic, writer)
      | some buf => sendFileLoop write message file buf writer fuel

def QuicStream.sendFileTo (s : QuicStream) (grants : Nat → Bool) (write : Sink W (List UInt8))
    (writer : W) (file : StoredFile) (fuel : Nat) : Option (Outcome IoError Unit × W) :=
  sendStoredFile grants write id s.writeBufferSize writer file fuel

def LogicalTcpStream.sendFileTo (s : LogicalTcpStream) (grants : Nat → Bool) (write : Sink W Frame)
    (writer : W) (file : StoredFile) (fuel : Nat) : Option (Outcome IoError Unit × W) :=
  sendStoredFile grants write (fileFrame s.streamId) s.writeBufferSize writer file fuel

end

theorem newBuffer_eq_some {grants : Nat → Bool} {size : Nat} {buf : List UInt8}
    (made : newBuffer grants size = some buf) : buf = List.replicate size 0 := by
  unfold newBuffer at made
  split at made
  · rename_i zero
    cases made
    rw [zero]
    rfl
  · split at made
    · exact (Option.some.inj made).symm
    · cases made

section send
variable {W : Type} {write : Sink W (List UInt8)} {size totalSent : Nat} {data : List UInt8}
  {writer : W}

/-- A chunk is what comes next, as much of it as fits. -/
theorem take_chunk : (data.drop totalSent).take (min size (data.length - totalSent)) =
    (data.drop totalSent).take size := by
  rw [← List.length_drop, ← List.take_eq_take_min]

theorem slice_chunk (more : totalSent < data.length) :
    slice data totalSent (totalSent + min size (data.length - totalSent)) =
      some ((data.drop totalSent).take size) := by
  rw [slice_eq (Nat.le_add_right _ _) (by omega), Nat.add_sub_cancel_left, take_chunk]

theorem sendRound_again {writer' : W} (more : totalSent < data.length)
    (taken : write writer ((data.drop totalSent).take size) = .ok writer') :
    sendRound write size data (totalSent, writer) =
      .again (totalSent + min size (data.length - totalSent), writer') := by
  simp only [sendRound, if_pos more, slice_chunk more, taken]

theorem sendRound_done (all : ¬ totalSent < data.length) :
    sendRound write size data (totalSent, writer) = .done (.ok (), writer) := if_neg all

/-- Without room in the buffer every chunk is empty, and the loop does not move. -/
theorem loop_sendRound_zero (data : List UInt8) (some_bytes : data ≠ []) (sent : List (List UInt8))
    (fuel : Nat) : loop (sendRound accepting 0 data) fuel (0, sent) = none := by
  refine loop_of_cycling (fun s => s.1 = 0) ?_ rfl fuel
  rintro ⟨totalSent, sent⟩ start
  obtain rfl : totalSent = 0 := start
  exact ⟨_, sendRound_again (List.length_pos_iff.mpr some_bytes) rfl, by simp⟩

/-- What has been sent is what is before `total_sent`, in messages that fit. -/
structure SentSoFar (size : Nat) (data : List UInt8) (s : Nat × List (List UInt8)) : Prop where
  within : s.1 ≤ data.length
  messages : ∀ m ∈ s.2, 1 ≤ m.length ∧ m.length ≤ size
  content : s.2.flatten = data.take s.1

theorem SentSoFar.step (room : 1 ≤ size) (s : Nat × List (List UInt8)) (sent : SentSoFar size data s) :
    (∃ t, sendRound accepting size data s = .again t ∧ SentSoFar size data t ∧
        data.length - t.1 < data.length - s.1) ∨
      ∃ r, sendRound accepting size data s = .done r ∧ r.1 = .ok () ∧
        (∀ m ∈ r.2, 1 ≤ m.length ∧ m.length ≤ size) ∧ r.2.flatten = data := by
  obtain ⟨totalSent, messages⟩ := s
  by_cases more : totalSent < data.length
  · refine .inl ⟨_, sendRound_again more rfl, ⟨?_, ?_, ?_⟩, ?_⟩
    · dsimp only
      omega
    · refine List.forall_mem_append.mpr ⟨sent.messages, List.forall_mem_singleton.mpr ?_⟩
      rw [List.length_take, List.length_drop]
      omega
    · have before : messages.flatten = data.take totalSent := sent.content
      rw [List.flatten_append, List.flatten_singleton, before, List.take_add, take_chunk]
    · dsimp only
      omega
  · refine .inr ⟨_, sendRound_done more, rfl, sent.messages, ?_⟩
    rw [sent.content]
    exact List.take_of_length_le (Nat.not_lt.mp more)

end send

section file
variable {M : Type} {message : List UInt8 → M} {payload : M → List UInt8} {size : Nat}
  {file : StoredFile} {sent : List M} {k : Nat} {left buf : List UInt8}

/-- What is sliced off the buffer is what was read into it. -/
theorem slice_read {n : Nat} (within : n ≤ left.length) (buf : List UInt8) :
    slice (left.take n ++ buf.drop n) 0 n = some (left.take n) := by
  have length : (left.take n).length = n := List.length_take_of_le within
  rw [slice_eq (Nat.zero_le n) (by rw [List.length_append, length]; exact Nat.le_add_right _ _),
    List.drop_zero, Nat.sub_zero]
  nth_rewrite 1 [← length]
  rw [List.take_left]

theorem sendFileRound_empty_buffer :
    sendFileRound accepting message file ⟨k, left, [], sent⟩ = .done (.ok (), sent) := rfl

theorem sendFileRound_read (message : List UInt8 → M) (left : List UInt8) (sent : List M) {short : Nat}
    (room : buf ≠ []) (reading : file.reading k = .ok short) :
    sendFileRound accepting message file ⟨k, left, buf, sent⟩ =
      let n := readLen buf.length short left
      if n = 0 then .done (.ok (), sent)
      else .again ⟨k + 1, left.drop n, left.take n ++ buf.drop n, sent ++ [message (left.take n)]⟩ := by
  simp only [sendFileRound, StoredFile.read, if_neg room, reading,
    slice_read (readLen_le buf.length short left), accepting]

/-- The three ways of a round with room in the buffer: the read fails, the file is at its end,
or a chunk is sent. -/
theorem sendFileRound_cases (message : List UInt8 → M) (file : StoredFile) (k : Nat)
    (left : List UInt8) (sent : List M) (room : buf ≠ []) :
    (∃ e, file.reading k = .error e ∧
      sendFileRound accepting message file ⟨k, left, buf, sent⟩ = .done (.err e, sent)) ∨
    (left = [] ∧ sendFileRound accepting message file ⟨k, left, buf, sent⟩ = .done (.ok (), sent)) ∨
    ∃ n, 1 ≤ n ∧ n ≤ buf.length ∧ n ≤ left.length ∧
      sendFileRound accepting message file ⟨k, left, buf, sent⟩ =
        .again ⟨k + 1, left.drop n, left.take n ++ buf.drop n, sent ++ [message (left.take n)]⟩ := by
  cases reading : file.reading k with
  | error e =>
      refine .inl ⟨e, rfl, ?_⟩
      simp only [sendFileRound, StoredFile.read, if_neg room, reading]
  | ok short =>
      have buffer := List.length_pos_iff.mpr room
      have amount : readLen buf.length short left = min (short + 1) (min buf.length left.length) := rfl
      have round := sendFileRound_read message left sent room reading
      by_cases nothing : readLen buf.length short left = 0
      · refine .inr (.inl ⟨List.length_eq_zero_iff.mp (by omega), ?_⟩)
        rw [round]
        exact if_pos nothing
      · refine .inr (.inr ⟨readLen buf.length short left, by omega, by omega, by omega, ?_⟩)
        rw [round]
        exact if_neg nothing

/-- What has been sent, and then what is left, is the file. -/
structure FileSoFar (payload : M → List UInt8) (size : Nat) (content : List UInt8)
    (s : FileState (List M)) : Prop where
  buffer : s.buf.length = size
  messages : ∀ m ∈ s.writer, 1 ≤ (payload m).length ∧ (payload m).length ≤ size
  content : (s.writer.map payload).flatten ++ s.left = content

theorem FileSoFar.step (file : StoredFile) (room : 1 ≤ size) (own : ∀ chunk, payload (message chunk) = chunk)
    {content : List UInt8} (s : FileState (List M)) (far : FileSoFar payload size content s) :
    (∃ t, sendFileRound accepting message file s = .again t ∧ FileSoFar payload size content t ∧
        t.left.length < s.left.length) ∨
      ∃ r, sendFileRound accepting message file s = .done r ∧ r.1 ≠ .panic ∧
        (∀ m ∈ r.2, 1 ≤ (payload m).length ∧ (payload m).length ≤ size) ∧
        (r.1 = .ok () → (r.2.map payload).flatten = content) ∧
        ∀ e, r.1 = .err e → ∃ k, file.reading k = .error e := by
  obtain ⟨k, left, buf, sent⟩ := s
  obtain ⟨buffer, messages, sofar⟩ := far
  dsimp only at buffer messages sofar
  have some_room : buf ≠ [] := List.length_pos_iff.mp (buffer ▸ room)
  rcases sendFileRound_cases message file k left sent some_room with ⟨e, reading, failed⟩ |
    ⟨rfl, ended⟩ | ⟨n, positive, fits, within, again⟩
  · refine .inr ⟨_, failed, by simp, messages, by simp, ?_⟩
    intro e' same
    cases same
    exact ⟨k, reading⟩
  · refine .inr ⟨_, ended, by simp, messages, fun _ => ?_, by simp⟩
    rwa [List.append_nil] at sofar
  · have chunk : (left.take n).length = n := List.length_take_of_le within
    refine .inl ⟨_, again, ⟨?_, ?_, ?_⟩, ?_⟩
    · dsimp only
      rw [List.length_append, List.length_drop, chunk]
      omega
    · refine List.forall_mem_append.mpr ⟨messages, List.forall_mem_singleton.mpr ?_⟩
      rw [own, chunk]
      omega
    · dsimp only
      rw [List.map_append, List.map_singleton, own, List.flatten_append, List.flatten_singleton,
        List.append_assoc, List.take_append_drop, sofar]
    · dsimp only
      rw [List.length_drop]
      omega

/-- With room in the buffer the loop comes to its end, in so many rounds as there are bytes and
one more, and if it succeeds it has sent the whole file. It fails only where a read fails. -/
theorem sendFileLoop_whole (file : StoredFile) (room : 1 ≤ size)
    (own : ∀ chunk, payload (message chunk) = chunk) :
    ∃ result sent, sendFileLoop accepting message file (List.replicate size 0) []
        (file.content.length + 1) = some (result, sent) ∧ result ≠ .panic ∧
      (∀ m ∈ sent, 1 ≤ (payload m).length ∧ (payload m).length ≤ size) ∧
      (result = .ok () → (sent.map payload).flatten = file.content) ∧
      ∀ e, result = .err e → ∃ k, file.reading k = .error e := by
  have start : FileSoFar payload size file.content
      ⟨0, file.content, List.replicate size 0, []⟩ :=
    ⟨List.length_replicate, List.forall_mem_nil _, rfl⟩
  obtain ⟨⟨result, sent⟩, ended, sends⟩ := loop_of_decreasing
    (FileSoFar payload size file.content) _ (fun t => t.left.length)
    (FileSoFar.step file room own) start (Nat.lt_succ_self _)
  exact ⟨result, sent, ended, sends⟩

end file

end Foctet.Net
