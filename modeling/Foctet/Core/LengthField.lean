import Foctet.Core.CodecInverse

/-! The length field of a frame has 32 bits. Both encoders cut the payload's length to
them, and of the two decoders only the codec believes the field. -/
namespace Foctet.Core
open Foctet.Lib

namespace Frame

/-- `Frame::to_bytes`, which writes out the same fields as the codec. -/
def toBytes (f : Frame) : Except String (List UInt8) :=
  .ok (putU32 f.header.streamId.id ++ putU32 f.header.operationId.id ++ [f.header.flags.bits] ++
    [f.header.frameType.toU8] ++ putU32 (.ofNat f.payload.length) ++ f.payload)

/-- `Frame::from_bytes`: whatever follows the header is the payload. -/
def fromBytes (bytes : List UInt8) : Except String Frame :=
  if bytes.length < frameHeaderLen then .error "Not enough bytes to read frame header"
  else
    let (streamId, bytes) := getU32 bytes
    let (operationId, bytes) := getU32 bytes
    let (flags, bytes) := getU8 bytes
    let (frameType, bytes) := getU8 bytes
    let (payloadLen, bytes) := getU32 bytes
    .ok ⟨⟨⟨streamId⟩, ⟨operationId⟩, .fromBitsTruncate flags, .fromU8 frameType, payloadLen⟩, bytes⟩

theorem toBytes_eq (f : Frame) : f.toBytes = .ok f.encoded := by
  simp only [toBytes, encoded, encode, List.nil_append]

theorem fromBytes_encoded (h : FrameHeader) (rest : List UInt8) :
    fromBytes (h.encoded ++ rest) = .ok ⟨readHeader h.encoded, rest⟩ := by
  have enough : ¬ (h.encoded ++ rest).length < frameHeaderLen := by
    rw [List.length_append, h.encoded_length]
    omega
  have last := getU32_putU32 h.payloadLen []
  rw [List.append_nil] at last
  rw [fromBytes, if_neg enough]
  simp only [readHeader, FrameHeader.encoded, List.append_assoc, List.cons_append, List.nil_append,
    getU32_putU32, getU8_cons, last]

/-- `from_bytes` reads the header as the codec does and takes all the rest. -/
theorem fromBytes_eq {bytes : List UInt8} (header : frameHeaderLen ≤ bytes.length) :
    fromBytes bytes =
      .ok ⟨readHeader (bytes.take frameHeaderLen), bytes.drop frameHeaderLen⟩ := by
  obtain ⟨h, block, -⟩ := exists_header (List.length_take_of_le header)
  have read := fromBytes_encoded h (bytes.drop frameHeaderLen)
  rwa [block, List.take_append_drop] at read

end Frame

/-- A fresh decoder returns a frame that uses up the buffer only if the announced length
is that of the rest. -/
theorem decode_new_empties_iff {bytes : List UInt8} (header : frameHeaderLen ≤ bytes.length)
    (f : Frame) :
    (∃ codec, FrameCodec.new.decode bytes = (.ok (some f), codec, [])) ↔
      bytes.length = frameHeaderLen + announced bytes ∧
        f = ⟨readHeader (bytes.take frameHeaderLen), bytes.drop frameHeaderLen⟩ := by
  have size := List.length_drop (i := frameHeaderLen) (l := bytes)
  simp only [FrameCodec.decode, FrameCodec.new, if_neg (Nat.not_lt.mpr header), decodePayload]
  rw [← announced]
  split
  case isTrue short =>
      refine iff_of_false ?_ (fun right => ?_)
      · rintro ⟨codec, returned⟩
        cases returned
      · omega
  case isFalse enough =>
      constructor
      · rintro ⟨codec, returned⟩
        simp only [Prod.mk.injEq, Except.ok.injEq, Option.some.injEq, List.drop_eq_nil_iff] at returned
        obtain ⟨rfl, -, all⟩ := returned
        refine ⟨by omega, ?_⟩
        rw [List.take_of_length_le all]
      · rintro ⟨right, rfl⟩
        have all : (bytes.drop frameHeaderLen).length ≤ announced bytes := by omega
        rw [List.take_of_length_le all, List.drop_of_length_le all]
        exact ⟨_, rfl⟩

/-- The two decoders accept the same frames from a byte string exactly if it is too short
for a header or its header announces as many bytes as follow it; and on these strings
alone the length field of what `from_bytes` accepts is right. -/
theorem decoders_agree_iff (bytes : List UInt8) :
    ((∀ f, Frame.fromBytes bytes = .ok f ↔
        ∃ codec, FrameCodec.new.decode bytes = (.ok (some f), codec, [])) ↔
      bytes.length < frameHeaderLen ∨ bytes.length = frameHeaderLen + announced bytes) ∧
    ((∀ f, Frame.fromBytes bytes = .ok f → f.header.payloadLen.toNat = f.payload.length) ↔
      bytes.length < frameHeaderLen ∨ bytes.length = frameHeaderLen + announced bytes) := by
  by_cases short : bytes.length < frameHeaderLen
  · have refused : ∀ f, Frame.fromBytes bytes ≠ .ok f := by
      intro f accepted
      rw [Frame.fromBytes, if_pos short] at accepted
      cases accepted
    refine ⟨iff_of_true ?_ (.inl short), iff_of_true ?_ (.inl short)⟩
    · intro f
      refine iff_of_false (refused f) ?_
      rintro ⟨codec, returned⟩
      simp only [FrameCodec.decode, FrameCodec.new, if_pos short] at returned
      cases returned
    · intro f accepted
      exact absurd accepted (refused f)
  · have header := Nat.not_lt.mp short
    simp only [short, false_or, decode_new_empties_iff header, Frame.fromBytes_eq header,
      Except.ok.injEq]
    constructor
    · constructor
      · intro same
        exact ((same _).mp rfl).1
      · intro right f
        rw [and_iff_right right]
        exact eq_comm
    · have size := List.length_drop (i := frameHeaderLen) (l := bytes)
      constructor
      · intro right
        have field : announced bytes = (bytes.drop frameHeaderLen).length := right _ rfl
        omega
      · rintro right f rfl
        change announced bytes = (bytes.drop frameHeaderLen).length
        omega

namespace Sample

/-- The header of a data frame of stream 9 that announces two bytes. -/
def headerOfTwo : List UInt8 := [0, 0, 0, 9, 0, 0, 0, 0, 0, 1, 0, 0, 0, 2]

/-- A frame with one byte more than the length field can say. -/
def huge : Frame := ⟨⟨⟨1⟩, ⟨0⟩, .EMPTY, .data, 0⟩, List.replicate (2 ^ 32) 0⟩

end Sample

/-- One byte behind a header that announces two, and three bytes: `from_bytes` takes what is
there, the codec waits or leaves a byte. -/
theorem decoders_differ :
    Frame.fromBytes (Sample.headerOfTwo ++ [7]) = .ok ⟨⟨⟨9⟩, ⟨0⟩, .EMPTY, .data, 2⟩, [7]⟩ ∧
    (FrameCodec.new.decode (Sample.headerOfTwo ++ [7])).1 = .ok none ∧
    Frame.fromBytes (Sample.headerOfTwo ++ [7, 8, 9]) =
      .ok ⟨⟨⟨9⟩, ⟨0⟩, .EMPTY, .data, 2⟩, [7, 8, 9]⟩ ∧
    FrameCodec.new.decode (Sample.headerOfTwo ++ [7, 8, 9]) =
      (.ok (some ⟨⟨⟨9⟩, ⟨0⟩, .EMPTY, .data, 2⟩, [7, 8]⟩), .new, [9]) := by
  decide

/-- Whatever the length of a payload, the decoder takes it for its rest modulo `2 ^ 32`,
and goes on behind that with a header. -/
theorem settle_encoded_cut (f : Frame) (rest : List UInt8) :
    let taken := f.payload.length % 2 ^ 32
    frameTransducer.settle .readingHeader (f.encoded ++ rest) =
      let later := frameTransducer.settle .readingHeader (f.payload.drop taken ++ rest)
      ⟨{ f.wire with payload := f.payload.take taken } :: later.items, later.state, later.rest⟩ := by
  intro taken
  have within : taken ≤ f.payload.length := Nat.mod_le _ _
  obtain ⟨header, payload⟩ := encoded_header f rest
  have announces : announced (f.encoded ++ rest) = taken := by
    rw [announced, header]
    exact UInt32.toNat_ofNat'
  have whole : frameHeaderLen + announced (f.encoded ++ rest) ≤ (f.encoded ++ rest).length := by
    rw [announces, List.length_append, f.encoded_length]
    omega
  rw [settle_frame whole, announces, ← List.drop_drop, payload, header,
    List.take_append_of_le_length within, List.drop_append_of_le_length within]

/-- What the encoder appends is read back by a fresh decoder, in whatever pieces it
arrives, exactly if all the payloads are shorter than `2 ^ 32` bytes. It never fails. -/
theorem encode_in_step_iff (f : Frame) (further : List Frame) (dst : List UInt8) :
    ((∃ e, encode f dst = (.error e, dst)) ∨
      ∃ bytes, encode f dst = (.ok (), dst ++ bytes) ∧
        ∀ chunks, chunks.flatten = encodeAll further bytes →
          (feed .new [] chunks).frames = (f :: further).map Frame.wire) ↔
      ∀ g ∈ f :: further, g.payload.length < 2 ^ 32 := by
  constructor
  · rintro (⟨e, failed⟩ | ⟨bytes, appended, recovered⟩) g member
    · cases failed
    · have frames := recovered [encodeAll further bytes] (List.append_nil _)
      rw [feed_new] at frames
      -- a decoder never returns a frame whose length field is wrong
      have right := (settle_inverse [encodeAll further bytes].flatten).1
      dsimp only at frames right
      rw [frames] at right
      have own := right g.wire (List.mem_map_of_mem member)
      change (UInt32.ofNat g.payload.length).toNat = g.payload.length at own
      rw [UInt32.toNat_ofNat'] at own
      exact own ▸ Nat.mod_lt _ (by decide)
  · intro short
    refine .inr ⟨f.encoded, rfl, ?_⟩
    intro chunks cut
    rw [encodeAll_eq, ← List.flatMap_cons, ← List.append_nil (List.flatMap _ _)] at cut
    rw [feed_new, cut, settle_encodings short]
    simp only [settle_short (by decide : ([] : List UInt8).length < frameHeaderLen), List.append_nil]

/-- A payload of `2 ^ 32` bytes is announced as one of none: the decoder returns an empty
frame and takes the payload itself for headers. -/
theorem encode_loses_step :
    (encode Sample.huge []).1 = .ok () ∧
    ((feed .new [] [(encode Sample.huge []).2]).frames.map Frame.payload).head? = some [] ∧
    Sample.huge.payload ≠ [] := by
  have length : Sample.huge.payload.length = 2 ^ 32 := List.length_replicate
  have size : Sample.huge.payload.length % 2 ^ 32 = 0 := by
    rw [length, Nat.mod_self]
  refine ⟨rfl, ?_, ?_⟩
  · have cut := settle_encoded_cut Sample.huge []
    rw [List.append_nil, size] at cut
    have written : (encode Sample.huge []).2 = Sample.huge.encoded := rfl
    rw [written, feed_new, List.flatten_singleton, cut]
    rfl
  · intro empty
    rw [empty] at length
    cases length

end Foctet.Core
