import Foctet.Core.Frame
import Foctet.Lib.Transducer

/-! The frame codec. `decode` and `encode` follow the two trait implementations;
the decoder is then an instance of a buffered transducer whose moves are the
passes through its loop. -/
namespace Foctet.Core
open Foctet.Lib

structure IoError where
  message : String
  deriving DecidableEq, Repr

inductive DecodeState where
  | readingHeader
  | readingPayload (header : FrameHeader) (remaining : Nat)
  deriving DecidableEq, Repr

structure FrameCodec where
  state : DecodeState
  deriving DecidableEq, Repr

def FrameCodec.new : FrameCodec := ⟨.readingHeader⟩

/-- The header as the fourteen bytes split off the buffer are read. -/
def readHeader (headerBytes : List UInt8) : FrameHeader :=
  let (streamId, headerBytes) := getU32 headerBytes
  let (operationId, headerBytes) := getU32 headerBytes
  let (flags, headerBytes) := getU8 headerBytes
  let (frameType, headerBytes) := getU8 headerBytes
  let (payloadLen, _) := getU32 headerBytes
  { streamId := ⟨streamId⟩
    operationId := ⟨operationId⟩
    flags := .fromBitsTruncate flags
    frameType := .fromU8 frameType
    payloadLen }

/-- The `ReadingPayload` arm, which always returns. -/
def decodePayload (header : FrameHeader) (remaining : Nat) (src : List UInt8) :
    Except IoError (Option Frame) × FrameCodec × List UInt8 :=
  if src.length < remaining then
    (.ok none, ⟨.readingPayload header remaining⟩, src)
  else
    (.ok (some ⟨header, src.take remaining⟩), ⟨.readingHeader⟩, src.drop remaining)

/-- One call. The `ReadingHeader` arm either returns or sets the state and goes
round the loop once more, so the loop is written out as the second arm. -/
def FrameCodec.decode (codec : FrameCodec) (src : List UInt8) :
    Except IoError (Option Frame) × FrameCodec × List UInt8 :=
  match codec.state with
  | .readingHeader =>
      if src.length < frameHeaderLen then (.ok none, codec, src)
      else
        let header := readHeader (src.take frameHeaderLen)
        decodePayload header header.payloadLen.toNat (src.drop frameHeaderLen)
  | .readingPayload header remaining => decodePayload header remaining src

/-- Appends one frame to the destination. The length field is the payload's length
cut to 32 bits, whatever the header says. -/
def encode (frame : Frame) (dst : List UInt8) : Except IoError Unit × List UInt8 :=
  (.ok (), dst ++ (putU32 frame.header.streamId.id ++ putU32 frame.header.operationId.id ++
    [frame.header.flags.bits] ++ [frame.header.frameType.toU8] ++
    putU32 (.ofNat frame.payload.length) ++ frame.payload))

/-- The bytes one frame occupies on the wire. -/
def Frame.encoded (f : Frame) : List UInt8 := (encode f []).2

theorem encode_eq (f : Frame) (dst : List UInt8) : encode f dst = (.ok (), dst ++ f.encoded) := rfl

theorem Frame.encoded_length (f : Frame) : f.encoded.length = frameHeaderLen + f.payload.length := by
  simp only [Frame.encoded, encode, List.nil_append, List.length_append, putU32_length,
    List.length_cons, List.length_nil, frameHeaderLen]

/-- The first fourteen bytes of an encoding are the header the decoder will read. -/
theorem encoded_header (f : Frame) (rest : List UInt8) :
    readHeader ((f.encoded ++ rest).take frameHeaderLen) = f.wire.header ∧
      (f.encoded ++ rest).drop frameHeaderLen = f.payload ++ rest := by
  let head := putU32 f.header.streamId.id ++ (putU32 f.header.operationId.id ++
    (f.header.flags.bits :: f.header.frameType.toU8 :: putU32 (.ofNat f.payload.length)))
  have split : f.encoded ++ rest = head ++ (f.payload ++ rest) := by
    simp only [head, Frame.encoded, encode, List.nil_append, List.append_assoc, List.cons_append]
  have len : head.length = frameHeaderLen := rfl
  rw [split, ← len, List.take_left, List.drop_left]
  have last := getU32_putU32 (.ofNat f.payload.length) []
  rw [List.append_nil] at last
  simp only [head, readHeader, getU32_putU32, getU8_cons, last, Frame.wire, and_self]

/-- The passes through the decoding loop as blocks: a header, then the payload it
announces. Only the second pass emits. -/
def frameReader : BlockReader DecodeState UInt8 Frame where
  need
    | .readingHeader => frameHeaderLen
    | .readingPayload _ remaining => remaining
  read
    | .readingHeader, block =>
        (none, .readingPayload (readHeader block) (readHeader block).payloadLen.toNat)
    | .readingPayload header _, block => (some ⟨header, block⟩, .readingHeader)
  weight
    | .readingHeader => 0
    | .readingPayload _ _ => 1
  lighter := by
    intro s block
    cases s with
    | readingHeader => simp only [frameHeaderLen]; omega
    | readingPayload header remaining => simp only; omega

def frameTransducer : Transducer DecodeState UInt8 Frame := frameReader.toTransducer

theorem move_short {s : DecodeState} {src : List UInt8} (short : src.length < frameReader.need s) :
    frameTransducer.move s src = none := frameReader.moves_short short

theorem move_header {src : List UInt8} (enough : frameHeaderLen ≤ src.length) :
    frameTransducer.move .readingHeader src =
      some (none, .readingPayload (readHeader (src.take frameHeaderLen))
        (readHeader (src.take frameHeaderLen)).payloadLen.toNat, src.drop frameHeaderLen) :=
  frameReader.moves_block (s := .readingHeader) enough

theorem move_payload {header : FrameHeader} {remaining : Nat} {src : List UInt8}
    (enough : remaining ≤ src.length) :
    frameTransducer.move (.readingPayload header remaining) src =
      some (some ⟨header, src.take remaining⟩, .readingHeader, src.drop remaining) :=
  frameReader.moves_block (s := .readingPayload header remaining) enough

theorem decodePayload_eq_poll (header : FrameHeader) (remaining : Nat) (src : List UInt8) :
    decodePayload header remaining src =
      (.ok (frameTransducer.poll (.readingPayload header remaining) src).1,
        ⟨(frameTransducer.poll (.readingPayload header remaining) src).2.1⟩,
        (frameTransducer.poll (.readingPayload header remaining) src).2.2) := by
  unfold decodePayload
  split
  · rename_i short
    rw [frameTransducer.poll_blocked (move_short short)]
  · rename_i enough
    rw [frameTransducer.poll_emit (move_payload (Nat.not_lt.mp enough))]

/-- A call of `decode` is one poll of the transducer, and never an error. -/
theorem decode_eq_poll (codec : FrameCodec) (src : List UInt8) :
    codec.decode src = (.ok (frameTransducer.poll codec.state src).1,
      ⟨(frameTransducer.poll codec.state src).2.1⟩, (frameTransducer.poll codec.state src).2.2) := by
  obtain ⟨state⟩ := codec
  cases state with
  | readingPayload header remaining => exact decodePayload_eq_poll header remaining src
  | readingHeader =>
      simp only [FrameCodec.decode]
      split
      · rename_i short
        rw [frameTransducer.poll_blocked (move_short short)]
      · rename_i enough
        rw [frameTransducer.poll_silent (move_header (Nat.not_lt.mp enough))]
        exact decodePayload_eq_poll _ _ _

/-- What a loop over `decode` has collected. -/
structure Drained where
  frames : List Frame
  result : Except IoError Unit
  codec : FrameCodec
  rest : List UInt8

theorem decode_lower {codec codec' : FrameCodec} {src src' : List UInt8} {frame : Frame}
    (called : codec.decode src = (.ok (some frame), codec', src')) :
    frameTransducer.rank codec'.state src' < frameTransducer.rank codec.state src := by
  rw [decode_eq_poll] at called
  simp only [Prod.mk.injEq, Except.ok.injEq] at called
  obtain ⟨emitted, rfl, rfl⟩ := called
  exact frameTransducer.poll_lower emitted

/-- Calls `decode` until it returns no frame. -/
def drain (codec : FrameCodec) (src : List UInt8) : Drained :=
  match _called : codec.decode src with
  | (.ok (some frame), codec', src') =>
      let later := drain codec' src'
      { later with frames := frame :: later.frames }
  | (.ok none, codec', src') => ⟨[], .ok (), codec', src'⟩
  | (.error e, codec', src') => ⟨[], .error e, codec', src'⟩
  termination_by frameTransducer.rank codec.state src
  decreasing_by exact decode_lower ‹_›

/-- The read side of a framed transport: each chunk is appended to the buffer and
the buffer is drained before the next one. -/
def feed (codec : FrameCodec) (buffer : List UInt8) : List (List UInt8) → Drained
  | [] => ⟨[], .ok (), codec, buffer⟩
  | chunk :: chunks =>
      let now := drain codec (buffer ++ chunk)
      match now.result with
      | .error _ => now
      | .ok () =>
          let later := feed now.codec now.rest chunks
          { later with frames := now.frames ++ later.frames }

/-- Draining is settling the transducer; no call fails. -/
theorem drain_eq_settle (codec : FrameCodec) (src : List UInt8) :
    drain codec src = ⟨(frameTransducer.settle codec.state src).items, .ok (),
      ⟨(frameTransducer.settle codec.state src).state⟩,
      (frameTransducer.settle codec.state src).rest⟩ := by
  fun_induction drain codec src with
  | case1 codec src frame codec' src' called later ih =>
      rw [decode_eq_poll] at called
      simp only [Prod.mk.injEq, Except.ok.injEq] at called
      obtain ⟨emitted, rfl, rfl⟩ := called
      rw [frameTransducer.settle_poll codec.state src, emitted]
      simp only [later, ih, Option.toList_some, List.singleton_append]
  | case2 codec src codec' src' called =>
      rw [decode_eq_poll] at called
      simp only [Prod.mk.injEq, Except.ok.injEq] at called
      obtain ⟨none_emitted, rfl, rfl⟩ := called
      rw [frameTransducer.settle_poll_none none_emitted]
  | case3 codec src e codec' src' called =>
      rw [decode_eq_poll] at called
      simp only [Prod.mk.injEq, reduceCtorEq, false_and] at called

/-- Feeding chunks is feeding the transducer. -/
theorem feed_eq (codec : FrameCodec) (buffer : List UInt8) (chunks : List (List UInt8)) :
    feed codec buffer chunks = ⟨(frameTransducer.feed codec.state buffer chunks).items, .ok (),
      ⟨(frameTransducer.feed codec.state buffer chunks).state⟩,
      (frameTransducer.feed codec.state buffer chunks).rest⟩ := by
  induction chunks generalizing codec buffer with
  | nil => rfl
  | cons chunk chunks ih => simp only [feed, drain_eq_settle, ih, Transducer.feed]

end Foctet.Core
