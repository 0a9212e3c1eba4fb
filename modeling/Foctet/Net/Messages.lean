import Foctet.Core.CodecStream
import Foctet.Lib.LengthDelimited
import Foctet.Net.SendLoops

/-! Messages over the two kinds of streams. A logical stream makes one frame of each
message; a QUIC stream cuts it to the size of its write buffer and gives each piece to its
codec. -/
namespace Foctet.Net
open Foctet.Core Foctet.Lib Foctet.Mux

/-- The limit of `LengthDelimitedCodec::new()`. -/
def maxFrameLength : Nat := 8 * 1024 * 1024

/-- `LengthDelimitedCodec::new()`. The results are about any codec that is lossless up to its
limit, of which this is one. -/
def lengthDelimitedCodec : MessageCodec LengthDelimited.State :=
  LengthDelimited.codec maxFrameLength (by decide)

/-- What a call of `send` returns, unless it never does, and the bytes written by then. -/
abbrev Sending := Option (Outcome IoError Unit × List UInt8)

variable {σ : Type} (F : MessageCodec σ)

/-- The framed writer of a QUIC stream. -/
def delimited : Sink (List UInt8) (List UInt8) := fun wire message =>
  match F.encode message wire with
  | some wire => .ok wire
  | none => .error ⟨"frame size too big"⟩

/-- A round for each byte and one more is enough for all that ever returns: with a write buffer
of no bytes empty messages are sent for ever. -/
def QuicStream.send (s : QuicStream) (data wire : List UInt8) : Sending :=
  s.sendTo (delimited F) wire data (data.length + 1)

/-- `send_bytes`, and the session's framed writer behind it. -/
def LogicalTcpStream.send (s : LogicalTcpStream) (data wire : List UInt8) : Sending :=
  let sent := encode (bytesFrame s.halves.writer.streamId data) wire
  some (.ofExcept sent.1, sent.2)

/-- `recv_bytes` on a frame that the session has routed to the stream. -/
def LogicalTcpStream.receive (s : LogicalTcpStream) (frame : Frame) : List UInt8 × LogicalTcpStream :=
  (frame.payload, { s with halves := s.halves.setStateFromFlags frame.header.flags })

inductive Stream where
  | Quic (stream : QuicStream)
  | Tcp (stream : LogicalTcpStream)

namespace Stream

def send (s : Stream) (data wire : List UInt8) : Sending :=
  match s with
  | .Quic stream => stream.send F data wire
  | .Tcp stream => stream.send data wire

/-- One message after another, as long as no call fails. -/
def sendAll (s : Stream) : List (List UInt8) → List UInt8 → Sending
  | [], wire => some (.ok (), wire)
  | data :: messages, wire =>
      match s.send F data wire with
      | some (.ok (), wire) => sendAll s messages wire
      | stopped => stopped

end Stream

def LogicalTcpStream.receiveAll (s : LogicalTcpStream) : List Frame → List (List UInt8)
  | [] => []
  | frame :: frames => (s.receive frame).1 :: receiveAll (s.receive frame).2 frames

/-- What the calls of `receive` return while there is something to return, for bytes that
arrive in some chunks: a message, or the error of the framed reader. A session routes to a
stream the frames that carry its ID. -/
def Stream.receiveAll (s : Stream) (chunks : List (List UInt8)) : List (Option (List UInt8)) :=
  match s with
  | .Quic _ => (F.feed F.start [] chunks).items
  | .Tcp stream =>
      let frames := (feed .new [] chunks).frames
      (stream.receiveAll (frames.filter (·.header.streamId = stream.halves.reader.streamId))).map some

/-- A message cut into pieces of some size, the last one shorter. -/
def pieces (size : Nat) (data : List UInt8) : List (List UInt8) :=
  if data = [] ∨ size = 0 then []
  else data.take size :: pieces size (data.drop size)
  termination_by data.length
  decreasing_by
    rename_i more
    rw [not_or] at more
    have some_bytes := List.length_pos_iff.mpr more.1
    rw [List.length_drop]
    omega

section pieces
variable {size : Nat} {data : List UInt8}

theorem pieces_nil : pieces size [] = [] := by
  rw [pieces, if_pos (.inl rfl)]

theorem pieces_step (some_bytes : data ≠ []) (room : 1 ≤ size) :
    pieces size data = data.take size :: pieces size (data.drop size) := by
  rw [pieces, if_neg]
  rintro (none_left | no_room)
  · exact some_bytes none_left
  · omega

theorem mem_pieces {piece : List UInt8} (member : piece ∈ pieces size data) :
    1 ≤ piece.length ∧ piece.length ≤ size ∧ piece.length ≤ data.length := by
  fun_induction pieces size data with
  | case1 data nothing => cases member
  | case2 data more ih =>
      rw [not_or] at more
      have some_bytes := List.length_pos_iff.mpr more.1
      rcases List.mem_cons.mp member with rfl | later
      · rw [List.length_take]
        omega
      · have := ih later
        rw [List.length_drop] at this
        omega

theorem pieces_whole (some_bytes : 1 ≤ data.length) (fits : data.length ≤ size) :
    pieces size data = [data] := by
  rw [pieces_step (List.length_pos_iff.mp some_bytes) (Nat.le_trans some_bytes fits),
    List.take_of_length_le fits, List.drop_of_length_le fits, pieces_nil]

/-- Cutting some messages leaves them as they are exactly if each is one piece. -/
theorem flatMap_pieces_iff {messages : List (List UInt8)} :
    messages.flatMap (pieces size) = messages ↔
      ∀ m ∈ messages, 1 ≤ m.length ∧ m.length ≤ size := by
  constructor
  · intro same m member
    rw [← same] at member
    obtain ⟨n, -, cut⟩ := List.mem_flatMap.mp member
    have bounds := mem_pieces cut
    exact ⟨bounds.1, bounds.2.1⟩
  · intro whole
    induction messages with
    | nil => rfl
    | cons m messages ih =>
        rw [List.forall_mem_cons] at whole
        rw [List.flatMap_cons, pieces_whole whole.1.1 whole.1.2, ih whole.2, List.singleton_append]

end pieces

section quic
variable {F}

theorem delimited_fits {message : List UInt8} (fits : message.length ≤ F.limit) (wire : List UInt8) :
    delimited F wire message = .ok (wire ++ F.bytes message) := by
  rw [delimited, (F.accepts message wire fits).1]

theorem drop_chunk {size totalSent : Nat} {data : List UInt8} :
    data.drop (totalSent + min size (data.length - totalSent)) = (data.drop totalSent).drop size := by
  rw [← List.drop_drop, ← List.length_drop]
  rcases Nat.le_total size (data.drop totalSent).length with enough | last
  · rw [Nat.min_eq_left enough]
  · rw [Nat.min_eq_right last, List.drop_length, List.drop_of_length_le last]

/-- What is on the wire, and then the pieces of what is left. -/
def outlook (F : MessageCodec σ) (size : Nat) (data : List UInt8) (s : Nat × List UInt8) : List UInt8 :=
  s.2 ++ (pieces size (data.drop s.1)).flatMap F.bytes

/-- A round does not change it, and at the end it is on the wire. -/
theorem sendRound_outlook {size : Nat} (room : 1 ≤ size) {data : List UInt8}
    (fits : data.length ≤ F.limit) (s : Nat × List UInt8) :
    (∃ t, sendRound (delimited F) size data s = .again t ∧
        outlook F size data t = outlook F size data s ∧ data.length - t.1 < data.length - s.1) ∨
      sendRound (delimited F) size data s = .done (.ok (), outlook F size data s) := by
  obtain ⟨totalSent, wire⟩ := s
  by_cases more : totalSent < data.length
  · have left : data.drop totalSent ≠ [] := by
      rw [Ne, List.drop_eq_nil_iff]
      omega
    have short : ((data.drop totalSent).take size).length ≤ F.limit := by
      rw [List.length_take, List.length_drop]
      omega
    refine .inl ⟨_, sendRound_again more (delimited_fits short wire), ?_, by dsimp only; omega⟩
    simp only [outlook, drop_chunk, pieces_step left room, List.flatMap_cons, List.append_assoc]
  · right
    rw [sendRound_done more, outlook, List.drop_of_length_le (Nat.not_lt.mp more), pieces_nil,
      List.flatMap_nil, List.append_nil]

theorem QuicStream.send_eq {quic : QuicStream} (room : 1 ≤ quic.writeBufferSize) {data : List UInt8}
    (fits : data.length ≤ F.limit) (wire : List UInt8) :
    quic.send F data wire =
      some (.ok (), wire ++ (pieces quic.writeBufferSize data).flatMap F.bytes) := by
  obtain ⟨r, ended, same⟩ := loop_of_decreasing
    (fun s => outlook F quic.writeBufferSize data s = outlook F quic.writeBufferSize data (0, wire))
    (fun r => r = (.ok (), outlook F quic.writeBufferSize data (0, wire))) (fun s => data.length - s.1)
    (fun s kept => (sendRound_outlook room fits s).imp
      (fun again => again.imp fun t goes_on => ⟨goes_on.1, goes_on.2.1.trans kept, goes_on.2.2⟩)
      (fun done => ⟨_, done, by rw [kept]⟩))
    (s := (0, wire)) rfl (Nat.lt_succ_self _)
  exact ended.trans (congrArg some same)

theorem Stream.sendAll_quic {quic : QuicStream} (room : 1 ≤ quic.writeBufferSize)
    {messages : List (List UInt8)} (fit : ∀ m ∈ messages, m.length ≤ F.limit) (wire : List UInt8) :
    (Stream.Quic quic).sendAll F messages wire =
      some (.ok (), wire ++
        (messages.flatMap (pieces quic.writeBufferSize)).flatMap F.bytes) := by
  induction messages generalizing wire with
  | nil => simp only [sendAll, List.flatMap_nil, List.append_nil]
  | cons m messages ih =>
      rw [List.forall_mem_cons] at fit
      simp only [sendAll, send, QuicStream.send_eq room fit.1, ih fit.2, List.flatMap_cons,
        List.flatMap_append, List.append_assoc]

theorem Stream.receiveAll_quic (quic : QuicStream) {chunks parts : List (List UInt8)}
    (fit : ∀ m ∈ parts, m.length ≤ F.limit) (cut : chunks.flatten = parts.flatMap F.bytes) :
    (Stream.Quic quic).receiveAll F chunks = parts.map some := by
  have accepted : ∀ m ∈ parts, F.fits m := fun m member => (F.accepts m [] (fit m member)).2
  exact (F.feed_all accepted cut).trans (List.map_congr_left fun m _ => F.reads m)

end quic

theorem Stream.sendAll_tcp (tcp : LogicalTcpStream) (messages : List (List UInt8))
    (wire : List UInt8) :
    (Stream.Tcp tcp).sendAll F messages wire =
      some (.ok (), encodeAll (messages.map (bytesFrame tcp.halves.writer.streamId)) wire) := by
  induction messages generalizing wire with
  | nil => rfl
  | cons m messages ih =>
      rw [sendAll]
      exact ih _

theorem LogicalTcpStream.receiveAll_eq (s : LogicalTcpStream) (frames : List Frame) :
    s.receiveAll frames = frames.map Frame.payload := by
  induction frames generalizing s with
  | nil => rfl
  | cons frame frames ih =>
      rw [receiveAll, ih]
      rfl

theorem Stream.receiveAll_tcp {tcp : LogicalTcpStream} {id : StreamId}
    (own : tcp.halves.reader.streamId = id) {messages chunks : List (List UInt8)}
    (fit : ∀ m ∈ messages, m.length ≤ F.limit)
    (cut : chunks.flatten = encodeAll (messages.map (bytesFrame id)) []) :
    (Stream.Tcp tcp).receiveAll F chunks = messages.map some := by
  have short : ∀ f ∈ messages.map (bytesFrame id), f.payload.length < 2 ^ 32 := by
    intro f member
    obtain ⟨m, of_message, rfl⟩ := List.mem_map.mp member
    exact Nat.lt_of_le_of_lt (fit m of_message) F.word
  have frames : (feed .new [] chunks).frames = (messages.map (bytesFrame id)).map Frame.wire := by
    have start : frameTransducer.settle .readingHeader [] = ⟨[], .readingHeader, []⟩ :=
      frameFraming.settle_start
    rw [feed_new, cut, encodeAll_eq, List.nil_append, ← List.append_nil (List.flatMap _ _),
      settle_encodings short, start]
    exact List.append_nil _
  have routed : ∀ f ∈ (messages.map (bytesFrame id)).map Frame.wire,
      decide (f.header.streamId = tcp.halves.reader.streamId) = true := by
    intro f member
    obtain ⟨g, of_frame, rfl⟩ := List.mem_map.mp member
    obtain ⟨m, -, rfl⟩ := List.mem_map.mp of_frame
    rw [own]
    exact decide_eq_true rfl
  rw [receiveAll, frames, List.filter_eq_self.mpr routed, LogicalTcpStream.receiveAll_eq,
    List.map_map, List.map_map, List.map_map]
  rfl

/-- The two kinds of streams carry the same messages exactly if none of them is empty and
none is longer than the write buffer of the QUIC stream. A logical stream carries all. -/
theorem streams_carry_iff (quic quicPeer : QuicStream) (tcp tcpPeer : LogicalTcpStream)
    (room : 1 ≤ quic.writeBufferSize)
    (paired : tcpPeer.halves.reader.streamId = tcp.halves.writer.streamId)
    (messages : List (List UInt8)) (fit : ∀ m ∈ messages, m.length ≤ F.limit) :
    ∃ quicWire tcpWire,
      (Stream.Quic quic).sendAll F messages [] = some (.ok (), quicWire) ∧
      (Stream.Tcp tcp).sendAll F messages [] = some (.ok (), tcpWire) ∧
      ∀ quicChunks tcpChunks, quicChunks.flatten = quicWire → tcpChunks.flatten = tcpWire →
        (Stream.Tcp tcpPeer).receiveAll F tcpChunks = messages.map some ∧
        ((Stream.Quic quicPeer).receiveAll F quicChunks = (Stream.Tcp tcpPeer).receiveAll F tcpChunks ↔
          ∀ m ∈ messages, 1 ≤ m.length ∧ m.length ≤ quic.writeBufferSize) := by
  refine ⟨_, _, Stream.sendAll_quic room fit [], Stream.sendAll_tcp F tcp messages [], ?_⟩
  intro quicChunks tcpChunks quicCut tcpCut
  have carried := Stream.receiveAll_tcp F paired fit tcpCut
  have parts : ∀ p ∈ messages.flatMap (pieces quic.writeBufferSize), p.length ≤ F.limit := by
    intro p member
    obtain ⟨m, of_message, cut⟩ := List.mem_flatMap.mp member
    exact Nat.le_trans (mem_pieces cut).2.2 (fit m of_message)
  refine ⟨carried, ?_⟩
  rw [Stream.receiveAll_quic quicPeer parts quicCut, carried, ← flatMap_pieces_iff]
  exact (List.map_injective_iff.mpr fun _ _ => Option.some.inj).eq_iff

namespace Sample

/-- A stream of each kind, with buffers of two bytes. -/
def twoByteTcp : LogicalTcpStream :=
  ⟨LogicalStream.split ⟨⟨0⟩, ⟨1⟩, .established, 0⟩, ⟨1⟩, 2, 2⟩

def twoByteQuic : QuicStream := ⟨⟨1⟩, 2, 2⟩

end Sample

theorem streams_carry_iff_two_messages :
    ∃ quicWire tcpWire,
      (Stream.Quic Sample.twoByteQuic).sendAll lengthDelimitedCodec [[1, 2], [3]] [] =
        some (.ok (), quicWire) ∧
      (Stream.Tcp Sample.twoByteTcp).sendAll lengthDelimitedCodec [[1, 2], [3]] [] =
        some (.ok (), tcpWire) ∧
      (Stream.Quic Sample.twoByteQuic).receiveAll lengthDelimitedCodec [quicWire] =
        (Stream.Tcp Sample.twoByteTcp).receiveAll lengthDelimitedCodec [tcpWire] := by
  obtain ⟨quicWire, tcpWire, quicSent, tcpSent, carried⟩ := streams_carry_iff lengthDelimitedCodec
    Sample.twoByteQuic Sample.twoByteQuic Sample.twoByteTcp Sample.twoByteTcp (by decide) rfl
    [[1, 2], [3]] (by decide)
  refine ⟨quicWire, tcpWire, quicSent, tcpSent, ?_⟩
  exact (carried [quicWire] [tcpWire] (List.append_nil _) (List.append_nil _)).2.mpr (by decide)

/-- Three bytes through a write buffer of two arrive as two messages, and an empty message
does not arrive at all. -/
theorem quic_cuts_messages :
    (Stream.Quic Sample.twoByteQuic).sendAll lengthDelimitedCodec [[1, 2, 3], []] [] =
        some (.ok (), [0, 0, 0, 2, 1, 2, 0, 0, 0, 1, 3]) ∧
      (Stream.Quic Sample.twoByteQuic).receiveAll lengthDelimitedCodec
          [[0, 0, 0, 2, 1, 2, 0, 0, 0, 1, 3]] =
        [some [1, 2], some [3]] ∧
      ∃ tcpWire, (Stream.Tcp Sample.twoByteTcp).sendAll lengthDelimitedCodec [[1, 2, 3], []] [] =
          some (.ok (), tcpWire) ∧
        (Stream.Tcp Sample.twoByteTcp).receiveAll lengthDelimitedCodec [tcpWire] =
          [some [1, 2, 3], some []] := by
  have fit : ∀ m ∈ [[1, 2, 3], ([] : List UInt8)], m.length ≤ maxFrameLength := by decide
  have parts : ∀ m ∈ [[1, 2], ([3] : List UInt8)], m.length ≤ maxFrameLength := by decide
  refine ⟨rfl, ?_, _, Stream.sendAll_tcp _ Sample.twoByteTcp _ [], ?_⟩
  · exact Stream.receiveAll_quic (F := lengthDelimitedCodec) Sample.twoByteQuic parts rfl
  · exact Stream.receiveAll_tcp lengthDelimitedCodec rfl fit (List.append_nil _)

end Foctet.Net
