import Foctet.Mux.Split
import Foctet.Lib.Filling

/-! Receiving a file over a stream. Each transport has its own loop, once on the whole
stream and once on its receiving half. -/
namespace Foctet.Net
open Foctet.Core Foctet.Lib Foctet.Mux

/-- What comes after the last message of a stream. -/
inductive Ending where
  | closed
  | failed
  /-- nothing: the reader waits -/
  | pending
  deriving DecidableEq, Repr

/-- The messages a reader will find, in order. -/
structure Incoming (M : Type) where
  messages : List M
  ending : Ending
  deriving DecidableEq, Repr

inductive TransferError where
  /-- `recv_frame`: "Channel closed" -/
  | channelClosed
  /-- the framed reader of a QUIC stream yields an error -/
  | readStream
  | createFile
  | writeFile
  | flushFile
  deriving DecidableEq, Repr

/-- A call of `receive_file`: what it returns, unless it still waits, what it has
written to the file, and what it has left to be read. -/
structure Received (M : Type) where
  result : Option (Except TransferError Nat)
  file : List UInt8
  rest : Incoming M
  deriving DecidableEq, Repr

/-- `file.flush().await?; Ok(total_bytes)` -/
def flushFile (disk : Disk UInt8) (given : List (List UInt8)) (totalBytes : Nat) :
    Except TransferError Nat :=
  if disk.flushes given then .ok totalBytes else .error .flushFile

/-- The loop of `receive_file` on a logical stream, with the payloads it has given to the file.
A channel that fails has lost its senders, so it ends like one that is closed. -/
def tcpReceiveLoop (disk : Disk UInt8) (len : Nat) (ending : Ending) :
    Halves → Nat → List (List UInt8) → List Frame → Received Frame × Halves
  | reader, _, given, [] =>
      match ending with
      | .pending => (⟨none, disk.content given, ⟨[], ending⟩⟩, reader)
      | .closed | .failed => (⟨some (.error .channelClosed), disk.content given, ⟨[], ending⟩⟩, reader)
  | reader, totalBytes, given, frame :: frames =>
      let reader := reader.setStateFromFlags frame.header.flags
      let written := given ++ [frame.payload]
      if disk.takes given frame.payload then
        let totalBytes := totalBytes + frame.payload.length
        if totalBytes = len then
          (⟨some (flushFile disk written totalBytes), disk.content written, ⟨frames, ending⟩⟩, reader)
        else tcpReceiveLoop disk len ending reader totalBytes written frames
      else (⟨some (.error .writeFile), disk.content written, ⟨frames, ending⟩⟩, reader)

def tcpReceiveFile (disk : Disk UInt8) (reader : Halves) (incoming : Incoming Frame) (len : Nat) :
    Received Frame × Halves :=
  if disk.creates then tcpReceiveLoop disk len incoming.ending reader 0 [] incoming.messages
  else (⟨some (.error .createFile), [], incoming⟩, reader)

/-- The loop of `receive_file` on a QUIC stream. It also ends at an empty chunk and at
the end of the stream, whatever the total is by then. -/
def quicReceiveLoop (disk : Disk UInt8) (len : Nat) (ending : Ending) :
    Nat → List (List UInt8) → List (List UInt8) → Received (List UInt8)
  | totalBytes, given, [] =>
      match ending with
      | .pending => ⟨none, disk.content given, ⟨[], ending⟩⟩
      | .failed => ⟨some (.error .readStream), disk.content given, ⟨[], .closed⟩⟩
      | .closed => ⟨some (flushFile disk given totalBytes), disk.content given, ⟨[], ending⟩⟩
  | totalBytes, given, data :: chunks =>
      if data = [] then ⟨some (flushFile disk given totalBytes), disk.content given, ⟨chunks, ending⟩⟩
      else
        let written := given ++ [data]
        if disk.takes given data then
          let totalBytes := totalBytes + data.length
          if totalBytes = len then
            ⟨some (flushFile disk written totalBytes), disk.content written, ⟨chunks, ending⟩⟩
          else quicReceiveLoop disk len ending totalBytes written chunks
        else ⟨some (.error .writeFile), disk.content written, ⟨chunks, ending⟩⟩

def quicReceiveFile (disk : Disk UInt8) (incoming : Incoming (List UInt8)) (len : Nat) :
    Received (List UInt8) :=
  if disk.creates then quicReceiveLoop disk len incoming.ending 0 [] incoming.messages
  else ⟨some (.error .createFile), [], incoming⟩

/-- Both fields `framed_writer` and `framed_reader` are in the halves. -/
structure LogicalTcpStream where
  halves : Halves
  streamId : StreamId
  writeBufferSize : Nat
  readBufferSize : Nat
  deriving DecidableEq, Repr

structure LogicalTcpRecvStream where
  /-- the reader, with the state it shares with its writer -/
  framedReader : Halves
  streamId : StreamId
  readBufferSize : Nat
  deriving DecidableEq, Repr

/-- The framed reader and writer of a QUIC stream are what comes in and goes out. -/
structure QuicStream where
  streamId : StreamId
  writeBufferSize : Nat
  readBufferSize : Nat
  deriving DecidableEq, Repr

structure QuicRecvStream where
  streamId : StreamId
  readBufferSize : Nat
  deriving DecidableEq, Repr

def LogicalTcpStream.receiveFile (s : LogicalTcpStream) (disk : Disk UInt8) (incoming : Incoming Frame)
    (len : Nat) : Received Frame × LogicalTcpStream :=
  let received := tcpReceiveFile disk s.halves incoming len
  (received.1, { s with halves := received.2 })

def LogicalTcpRecvStream.receiveFile (s : LogicalTcpRecvStream) (disk : Disk UInt8)
    (incoming : Incoming Frame) (len : Nat) : Received Frame × LogicalTcpRecvStream :=
  let received := tcpReceiveFile disk s.framedReader incoming len
  (received.1, { s with framedReader := received.2 })

def QuicStream.receiveFile (_ : QuicStream) (disk : Disk UInt8) (incoming : Incoming (List UInt8))
    (len : Nat) : Received (List UInt8) := quicReceiveFile disk incoming len

def QuicRecvStream.receiveFile (_ : QuicRecvStream) (disk : Disk UInt8)
    (incoming : Incoming (List UInt8)) (len : Nat) : Received (List UInt8) :=
  quicReceiveFile disk incoming len

/-- Never more than the declared length is written; success means that exactly the
first bytes that were sent are in the file; and a transfer that has ended short or goes past
the length fails. -/
structure Exact {M : Type} (len : Nat) (payloads : List (List UInt8)) (ended : Prop)
    (r : Received M) : Prop where
  bounded : r.file.length ≤ len
  complete : ∀ n, r.result = some (.ok n) →
    n = len ∧ r.file.length = len ∧ r.file <+: payloads.flatten
  short : payloads.flatten.length < len → ended → ∃ e, r.result = some (.error e)
  overrun : Overruns len payloads → ∃ e, r.result = some (.error e)

section exact
variable {M : Type} {disk : Disk UInt8} {len : Nat} {payloads : List (List UInt8)} {ended : Prop}
  {r : Received M}

theorem flushFile_eq_ok {given : List (List UInt8)} {total n : Nat}
    (succeeded : flushFile disk given total = .ok n) : disk.flushes given = true ∧ n = total := by
  rw [flushFile] at succeeded
  split at succeeded
  · cases succeeded
    exact ⟨‹_›, rfl⟩
  · cases succeeded

theorem Exact.of_error {e : TransferError} (failed : r.result = some (.error e))
    (bounded : r.file.length ≤ len) : Exact len payloads ended r where
  bounded := bounded
  complete n succeeded := by
    rw [failed] at succeeded
    cases succeeded
  short _ _ := ⟨e, failed⟩
  overrun _ := ⟨e, failed⟩

/-- The file was flushed with all that was given to it, and that has the length. -/
theorem Exact.of_flushed {given : List (List UInt8)}
    (returned : r.result = some (flushFile disk given len)) (written : r.file = disk.content given)
    (flushed : disk.flushes given = true → disk.content given = given.flatten)
    (length : given.flatten.length = len) (begins : given <+: payloads)
    (within : ¬ Overruns len payloads) : Exact len payloads ended r where
  bounded := by
    rw [written, ← length]
    exact disk.content_length_le given
  complete n succeeded := by
    obtain ⟨flushes, rfl⟩ := flushFile_eq_ok (Option.some.inj (returned.symm.trans succeeded))
    rw [written, flushed flushes]
    exact ⟨rfl, length, begins.flatten⟩
  short less _ := by
    have enough := begins.flatten.length_le
    omega
  overrun past := absurd past within

/-- Nothing has gone past the length, and the call still waits. -/
theorem Exact.of_waiting (waits : r.result = none) (bounded : r.file.length ≤ len)
    (going : ¬ (payloads.flatten.length < len ∧ ended)) (within : ¬ Overruns len payloads) :
    Exact len payloads ended r where
  bounded := bounded
  complete n succeeded := by
    rw [waits] at succeeded
    cases succeeded
  short less ended := absurd ⟨less, ended⟩ going
  overrun past := absurd past within

end exact

section tcp
variable {disk : Disk UInt8} {len : Nat} {ending : Ending}

/-- How the loop ends, by how the filling of the file ended. -/
def tcpResult (disk : Disk UInt8) (ending : Ending) (f : Filled UInt8) :
    Option (Except TransferError Nat) :=
  match f.outcome with
  | .full => some (flushFile disk f.given f.given.flatten.length)
  | .broken => some (.error .writeFile)
  | .short =>
      match ending with
      | .pending => none
      | .closed | .failed => some (.error .channelClosed)

theorem tcpReceiveLoop_fill (disk : Disk UInt8) (len : Nat) (ending : Ending) (reader : Halves)
    (given : List (List UInt8)) (frames : List Frame) :
    let r := (tcpReceiveLoop disk len ending reader given.flatten.length given frames).1
    let f := fill disk len given (frames.map Frame.payload)
    r.file = disk.content f.given ∧ r.result = tcpResult disk ending f := by
  induction frames generalizing reader given with
  | nil => cases ending <;> exact ⟨rfl, rfl⟩
  | cons frame frames ih =>
      have total : given.flatten.length + frame.payload.length =
          (given ++ [frame.payload]).flatten.length := by
        rw [flatten_concat, List.length_append]
      simp only [tcpReceiveLoop, List.map_cons, fill, total]
      cases disk.takes given frame.payload with
      | false => exact ⟨rfl, rfl⟩
      | true =>
          by_cases length : (given ++ [frame.payload]).flatten.length = len
          · simp only [if_pos length, if_true]
            exact ⟨trivial, rfl⟩
          · simp only [if_neg length, if_true]
            exact ih _ _

/-- The sender has closed its end, which the other is told by a frame of no bytes, or the
channel is at its end. -/
def TcpEnded (incoming : Incoming Frame) : Prop :=
  incoming.ending ≠ .pending ∨ ∃ f ∈ incoming.messages, f.header.flags.isCloseRequest = true

/-- The frames go past the length, or the sender closes its end before they come to it and the
channel stays open. -/
def TcpAstray (len : Nat) (incoming : Incoming Frame) : Prop :=
  Overruns len (incoming.messages.map Frame.payload) ∨
    (incoming.messages.map Frame.payload).flatten.length < len ∧ TcpEnded incoming ∧
      incoming.ending = .pending

section
variable {incoming : Incoming Frame} {f : Filled UInt8} {r : Received Frame}
  (accounts : f.Accounts disk len [] (incoming.messages.map Frame.payload))
  (file : r.file = disk.content f.given) (result : r.result = tcpResult disk incoming.ending f)
include accounts file result

theorem tcpResult_exact (good : ¬ TcpAstray len incoming) :
    Exact len (incoming.messages.map Frame.payload) (TcpEnded incoming) r := by
  rw [TcpAstray, not_or] at good
  obtain ⟨within, going⟩ := good
  have bounded : r.file.length ≤ len := file ▸ accounts.content_length_le within
  unfold tcpResult at result
  cases outcome : f.outcome with
  | full =>
      have length := (accounts.full outcome).2
      rw [outcome, length] at result
      exact .of_flushed result file (accounts.flushed (by rw [outcome]; decide)) length
        accounts.initial within
  | broken =>
      rw [outcome] at result
      exact .of_error result bounded
  | short =>
      rw [outcome] at result
      cases ending : incoming.ending with
      | closed | failed =>
          rw [ending] at result
          exact .of_error result bounded
      | pending =>
          rw [ending] at result
          refine .of_waiting result bounded ?_ within
          intro short
          exact going ⟨short.1, short.2, ending⟩

theorem not_tcpAstray (works : disk.Works)
    (exact : Exact len (incoming.messages.map Frame.payload) (TcpEnded incoming) r) :
    ¬ TcpAstray len incoming := by
  have bounded := exact.bounded
  rw [file, works.content] at bounded
  rintro (past | ⟨less, ended, pending⟩)
  · exact accounts.not_overruns works bounded past
  · obtain ⟨e, failed⟩ := exact.short less ended
    unfold tcpResult at result
    cases outcome : f.outcome with
    | full => exact accounts.not_full less outcome
    | broken => exact accounts.not_broken works outcome
    | short =>
        rw [outcome, pending, failed] at result
        cases result

end

/-- Over frames that do not go astray the call is exact; over frames that do it is not, on a
disk that works. -/
theorem tcpReceiveFile_exact (reader : Halves) (incoming : Incoming Frame) :
    let r := (tcpReceiveFile disk reader incoming len).1
    let exact := Exact len (incoming.messages.map Frame.payload) (TcpEnded incoming) r
    (¬ TcpAstray len incoming → exact) ∧ (disk.Works → exact → ¬ TcpAstray len incoming) := by
  unfold tcpReceiveFile
  cases creates : disk.creates with
  | false =>
      refine ⟨fun _ => .of_error rfl (Nat.zero_le len), fun works => ?_⟩
      rw [works.creates] at creates
      cases creates
  | true =>
      obtain ⟨file, result⟩ := tcpReceiveLoop_fill disk len incoming.ending reader []
        incoming.messages
      exact ⟨tcpResult_exact (fill_accounts disk len [] _) file result,
        not_tcpAstray (fill_accounts disk len [] _) file result⟩

end tcp

section quic
variable {disk : Disk UInt8} {len : Nat} {ending : Ending} {chunks : List (List UInt8)}

/-- The chunks before an empty one. -/
def heard (chunks : List (List UInt8)) : List (List UInt8) := chunks.takeWhile (· ≠ [])

theorem heard_initial (chunks : List (List UInt8)) : heard chunks <+: chunks :=
  List.takeWhile_prefix _

theorem heard_cons {data : List UInt8} (some_bytes : data ≠ []) :
    heard (data :: chunks) = data :: heard chunks :=
  List.takeWhile_cons_of_pos (by simpa using some_bytes)

/-- An empty chunk or the end of the stream comes before the length is reached. -/
def StopsShort (len : Nat) (chunks : List (List UInt8)) (ending : Ending) : Prop :=
  (heard chunks).flatten.length < len ∧ (heard chunks ≠ chunks ∨ ending = .closed)

/-- The chunks before an empty one go past the length, or stop short of it. -/
def QuicAstray (len : Nat) (incoming : Incoming (List UInt8)) : Prop :=
  Overruns len (heard incoming.messages) ∨ StopsShort len incoming.messages incoming.ending

/-- How the loop ends, by how the filling with the chunks before an empty one ended. -/
def quicResult (disk : Disk UInt8) (ending : Ending) (chunks : List (List UInt8)) (f : Filled UInt8) :
    Option (Except TransferError Nat) :=
  match f.outcome with
  | .full => some (flushFile disk f.given f.given.flatten.length)
  | .broken => some (.error .writeFile)
  | .short =>
      if heard chunks ≠ chunks then some (flushFile disk f.given f.given.flatten.length)
      else
        match ending with
        | .pending => none
        | .failed => some (.error .readStream)
        | .closed => some (flushFile disk f.given f.given.flatten.length)

theorem quicReceiveLoop_fill (disk : Disk UInt8) (len : Nat) (ending : Ending)
    (given chunks : List (List UInt8)) :
    let r := quicReceiveLoop disk len ending given.flatten.length given chunks
    let f := fill disk len given (heard chunks)
    r.file = disk.content f.given ∧ r.result = quicResult disk ending chunks f := by
  induction chunks generalizing given with
  | nil => cases ending <;> exact ⟨rfl, rfl⟩
  | cons data chunks ih =>
      by_cases empty : data = []
      · subst empty
        exact ⟨rfl, rfl⟩
      · have stops : heard (data :: chunks) ≠ data :: chunks ↔ heard chunks ≠ chunks := by
          rw [heard_cons empty, Ne, List.cons.injEq, and_iff_right rfl]
        have same (f : Filled UInt8) :
            quicResult disk ending (data :: chunks) f = quicResult disk ending chunks f := by
          simp only [quicResult, stops]
        have total : given.flatten.length + data.length = (given ++ [data]).flatten.length := by
          rw [flatten_concat, List.length_append]
        simp only [same, quicReceiveLoop, if_neg empty, heard_cons empty, fill, total]
        cases disk.takes given data with
        | false => exact ⟨rfl, rfl⟩
        | true =>
            by_cases length : (given ++ [data]).flatten.length = len
            · simp only [if_pos length, if_true]
              exact ⟨trivial, rfl⟩
            · simp only [if_neg length, if_true]
              exact ih _

/-- Where chunks are all heard before the length is reached, the loop returns what it has if
they stop, and fails or waits otherwise. -/
theorem quicResult_short {f : Filled UInt8} (outcome : f.outcome = .short) :
    (heard chunks ≠ chunks ∨ ending = .closed) ∧
        quicResult disk ending chunks f = some (flushFile disk f.given f.given.flatten.length) ∨
      heard chunks = chunks ∧ ending = .failed ∧
        quicResult disk ending chunks f = some (.error .readStream) ∨
      heard chunks = chunks ∧ ending = .pending ∧ quicResult disk ending chunks f = none := by
  by_cases stops : heard chunks ≠ chunks
  · refine .inl ⟨.inl stops, ?_⟩
    simp only [quicResult, outcome, if_pos stops]
  · have all := not_not.mp stops
    cases ending with
    | closed => exact .inl ⟨.inr rfl, by simp only [quicResult, outcome, if_neg stops]⟩
    | failed => exact .inr (.inl ⟨all, rfl, by simp only [quicResult, outcome, if_neg stops]⟩)
    | pending => exact .inr (.inr ⟨all, rfl, by simp only [quicResult, outcome, if_neg stops]⟩)

/-- Chunks that come to the length before an empty one do not overrun it, whatever follows; and
neither does nothing overrun a length of zero. -/
theorem not_overruns_of_heard (hits : Hits len [] (heard chunks) ∨ len = 0 ∧ heard chunks = []) :
    ¬ Overruns len chunks := by
  rintro ⟨more, never⟩
  rcases hits with ⟨q, some_chunk, begins, length⟩ | ⟨rfl, silent⟩
  · exact never ⟨q, some_chunk, begins.trans (heard_initial chunks), length⟩
  · cases chunks with
    | nil => exact absurd more (Nat.lt_irrefl 0)
    | cons data chunks =>
        -- the first chunk was not heard, so it is empty, and nothing is all there is
        have first : data = [] := by
          by_contra some_bytes
          rw [heard_cons some_bytes] at silent
          cases silent
        exact never (hits_cons.mpr (.inl (by rw [first]; rfl)))

section
variable {incoming : Incoming (List UInt8)} {f : Filled UInt8} {r : Received (List UInt8)}
  (accounts : f.Accounts disk len [] (heard incoming.messages))
  (file : r.file = disk.content f.given)
  (result : r.result = quicResult disk incoming.ending incoming.messages f)
include accounts file result

theorem quicResult_exact (good : ¬ QuicAstray len incoming) :
    Exact len incoming.messages (incoming.ending ≠ .pending) r := by
  rw [QuicAstray, not_or] at good
  obtain ⟨within, going⟩ := good
  have length_le := accounts.length_le within
  have bounded : r.file.length ≤ len := file ▸ accounts.content_length_le within
  have begins : f.given <+: incoming.messages := accounts.initial.trans (heard_initial _)
  cases outcome : f.outcome with
  | full =>
      have length := (accounts.full outcome).2
      simp only [quicResult, outcome, length] at result
      exact .of_flushed result file (accounts.flushed (by rw [outcome]; decide)) length begins
        (not_overruns_of_heard (.inl (accounts.hits outcome)))
  | broken =>
      simp only [quicResult, outcome] at result
      exact .of_error result bounded
  | short =>
      have all := accounts.all outcome
      have never := (accounts.short outcome).2
      rcases quicResult_short outcome with ⟨stops, returned⟩ | ⟨-, -, failed⟩ | ⟨whole, pending, waits⟩
      · -- what was heard has the length, but the loop has not noticed, so it was nothing
        have length : f.given.flatten.length = len := by
          by_contra other
          exact going ⟨by rw [← all]; omega, stops⟩
        have silent : heard incoming.messages = [] := by
          by_contra some_chunk
          exact never ⟨_, some_chunk, List.prefix_rfl, by rw [← all]; exact length⟩
        have zero : len = 0 := by rw [← length, all, silent]; rfl
        rw [returned, length] at result
        exact .of_flushed result file (accounts.flushed (by rw [outcome]; decide)) length begins
          (not_overruns_of_heard (.inr ⟨zero, silent⟩))
      · exact .of_error (result.trans failed) bounded
      · rw [whole] at within
        refine .of_waiting (result.trans waits) bounded ?_ within
        intro short
        exact short.2 pending

theorem not_quicAstray (works : disk.Works)
    (exact : Exact len incoming.messages (incoming.ending ≠ .pending) r) :
    ¬ QuicAstray len incoming := by
  have bounded := exact.bounded
  rw [file, works.content] at bounded
  rintro (past | ⟨less, stops⟩)
  · exact accounts.not_overruns works bounded past
  · cases outcome : f.outcome with
    | full => exact accounts.not_full less outcome
    | broken => exact accounts.not_broken works outcome
    | short =>
        rcases quicResult_short outcome with ⟨-, returned⟩ | ⟨whole, failed, -⟩ | ⟨whole, pending, -⟩
        · rw [returned, flushFile, if_pos (works.flushes _)] at result
          have length := (exact.complete _ result).1
          rw [accounts.all outcome] at length
          omega
        · rw [failed] at stops
          exact stops.elim (absurd whole) (by decide)
        · rw [pending] at stops
          exact stops.elim (absurd whole) (by decide)

end

/-- Over chunks that do not go astray the call is exact; over chunks that do it is not, on a
disk that works. -/
theorem quicReceiveFile_exact (incoming : Incoming (List UInt8)) :
    let r := quicReceiveFile disk incoming len
    let exact := Exact len incoming.messages (incoming.ending ≠ .pending) r
    (¬ QuicAstray len incoming → exact) ∧ (disk.Works → exact → ¬ QuicAstray len incoming) := by
  unfold quicReceiveFile
  cases creates : disk.creates with
  | false =>
      refine ⟨fun _ => .of_error rfl (Nat.zero_le len), fun works => ?_⟩
      rw [works.creates] at creates
      cases creates
  | true =>
      obtain ⟨file, result⟩ := quicReceiveLoop_fill disk len incoming.ending [] incoming.messages
      exact ⟨quicResult_exact (fill_accounts disk len [] _) file result,
        not_quicAstray (fill_accounts disk len [] _) file result⟩

end quic

/-- When `receive_file` is exact, on both transports, for whole streams and receiving
halves. It is over every sequence of messages that does not go astray, whatever the disk does;
and on a disk that works it is over no other. -/
theorem receiveFile_exact_iff (disk : Disk UInt8) (len : Nat) :
    (∀ (s : LogicalTcpStream) (incoming : Incoming Frame),
      (¬ TcpAstray len incoming →
        Exact len (incoming.messages.map Frame.payload) (TcpEnded incoming)
          (s.receiveFile disk incoming len).1) ∧
      (disk.Works →
        Exact len (incoming.messages.map Frame.payload) (TcpEnded incoming)
          (s.receiveFile disk incoming len).1 → ¬ TcpAstray len incoming)) ∧
    (∀ (s : LogicalTcpRecvStream) (incoming : Incoming Frame),
      (¬ TcpAstray len incoming →
        Exact len (incoming.messages.map Frame.payload) (TcpEnded incoming)
          (s.receiveFile disk incoming len).1) ∧
      (disk.Works →
        Exact len (incoming.messages.map Frame.payload) (TcpEnded incoming)
          (s.receiveFile disk incoming len).1 → ¬ TcpAstray len incoming)) ∧
    (∀ (s : QuicStream) (incoming : Incoming (List UInt8)),
      (¬ QuicAstray len incoming →
        Exact len incoming.messages (incoming.ending ≠ .pending) (s.receiveFile disk incoming len)) ∧
      (disk.Works →
        Exact len incoming.messages (incoming.ending ≠ .pending) (s.receiveFile disk incoming len) →
          ¬ QuicAstray len incoming)) ∧
    (∀ (s : QuicRecvStream) (incoming : Incoming (List UInt8)),
      (¬ QuicAstray len incoming →
        Exact len incoming.messages (incoming.ending ≠ .pending) (s.receiveFile disk incoming len)) ∧
      (disk.Works →
        Exact len incoming.messages (incoming.ending ≠ .pending) (s.receiveFile disk incoming len) →
          ¬ QuicAstray len incoming)) :=
  ⟨fun s incoming => tcpReceiveFile_exact s.halves incoming,
    fun s incoming => tcpReceiveFile_exact s.framedReader incoming,
    fun _ incoming => quicReceiveFile_exact incoming,
    fun _ incoming => quicReceiveFile_exact incoming⟩

/-- Three bytes are declared and one comes. When the stream is then closed, QUIC reports success;
and the logical stream takes the close request for a frame of no bytes and waits for ever. One
byte is declared and two come: the logical stream writes both and waits for more; and so it does
where the disk has no room for them, since the error of that write would come with the next. -/
theorem receiveFile_short_succeeds :
    let quic : QuicStream := ⟨⟨1⟩, 16384, 16384⟩
    let tcp : LogicalTcpStream := ⟨LogicalStream.split ⟨⟨0⟩, ⟨1⟩, .established, 0⟩, ⟨1⟩, 16384, 16384⟩
    let closed : Incoming Frame := ⟨[bytesFrame ⟨1⟩ [7], closeRequestFrame ⟨1⟩], .pending⟩
    let past : Incoming Frame := ⟨[bytesFrame ⟨1⟩ [7, 8]], .pending⟩
    (quic.receiveFile .working ⟨[[7]], .closed⟩ 3 = ⟨some (.ok 1), [7], ⟨[], .closed⟩⟩ ∧
      ¬ Exact 3 [[7]] True (quic.receiveFile .working ⟨[[7]], .closed⟩ 3)) ∧
    ((tcp.receiveFile .working closed 3).1 = ⟨none, [7], ⟨[], .pending⟩⟩ ∧ TcpEnded closed ∧
      ¬ Exact 3 [[7], []] True (tcp.receiveFile .working closed 3).1) ∧
    ((tcp.receiveFile .working past 1).1 = ⟨none, [7, 8], ⟨[], .pending⟩⟩ ∧
      ¬ Exact 1 [[7, 8]] False (tcp.receiveFile .working past 1).1) ∧
    ((tcp.receiveFile (.room 0) past 1).1 = ⟨none, [], ⟨[], .pending⟩⟩ ∧
      ¬ Exact 1 [[7, 8]] False (tcp.receiveFile (.room 0) past 1).1) := by
  intro quic tcp closed past
  have overruns : Overruns 1 [([7, 8] : List UInt8)] := by
    refine ⟨by decide, fun hits => ?_⟩
    rcases hits_cons.mp hits with wrong | wrong
    · cases wrong
    · exact not_hits_nil _ _ wrong
  refine ⟨⟨rfl, ?_⟩, ⟨rfl, ?_, ?_⟩, ⟨rfl, ?_⟩, rfl, ?_⟩
  · intro exact
    have wrong : 1 = 3 := (exact.complete 1 rfl).1
    cases wrong
  · exact .inr ⟨closeRequestFrame ⟨1⟩, by simp [closed], rfl⟩
  · intro exact
    obtain ⟨e, failed⟩ := exact.short (by decide) trivial
    cases failed
  · intro exact
    have wrong : 2 ≤ 1 := exact.bounded
    omega
  · intro exact
    obtain ⟨e, failed⟩ := exact.overrun overruns
    cases failed

end Foctet.Net
