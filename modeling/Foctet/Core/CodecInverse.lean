import Foctet.Core.CodecStream

/-! What the decoder has read, written back. Every byte of the input is in one of
the frames or in the undecoded rest, at the place where it was; only the undefined
bit of the flags is lost. -/
namespace Foctet.Core
open Foctet.Lib

/-- The fourteen bytes of a header. -/
def FrameHeader.encoded (h : FrameHeader) : List UInt8 :=
  putU32 h.streamId.id ++ putU32 h.operationId.id ++ [h.flags.bits] ++ [h.frameType.toU8] ++
    putU32 h.payloadLen

theorem FrameHeader.encoded_length (h : FrameHeader) : h.encoded.length = frameHeaderLen := rfl

/-- A frame whose length field is right is written as its header and its payload. -/
theorem Frame.encoded_eq {f : Frame} (right : f.header.payloadLen.toNat = f.payload.length) :
    f.encoded = f.header.encoded ++ f.payload := by
  have field : UInt32.ofNat f.payload.length = f.header.payloadLen := by
    rw [← right, UInt32.ofNat_toNat]
  simp only [Frame.encoded, encode, List.nil_append, FrameHeader.encoded, field]

/-- The place of the flags within a header. -/
def flagsPlace : Nat := 8

/-- Bit 7 of the bytes at some places is cleared. -/
def clearAt (places : List Nat) (bytes : List UInt8) : List UInt8 :=
  bytes.mapIdx fun i b => if i ∈ places then b &&& FrameFlags.all else b

@[simp] theorem clearAt_nil (bytes : List UInt8) : clearAt [] bytes = bytes := by
  apply List.ext_getElem <;> simp [clearAt]

theorem clearAt_append {a : List UInt8} {here : List Nat} (inside : ∀ i ∈ here, i < a.length)
    (later : List Nat) (b : List UInt8) :
    clearAt (here ++ later.map (· + a.length)) (a ++ b) = clearAt here a ++ clearAt later b := by
  unfold clearAt
  rw [List.mapIdx_append]
  congr 1
  · apply List.ext_getElem (by simp)
    intro i hi _
    have below : i < a.length := by simpa using hi
    have not_later : i ∉ later.map (· + a.length) := by
      simp only [List.mem_map, not_exists, not_and]
      omega
    simp only [List.getElem_mapIdx, List.mem_append, not_later, or_false]
  · apply List.ext_getElem (by simp)
    intro i _ _
    have not_here : i + a.length ∉ here := fun member => by
      have := inside _ member
      omega
    simp [not_here]

/-- Bytes with no place among them are copied. -/
theorem clearAt_skip (a : List UInt8) (later : List Nat) (b : List UInt8) :
    clearAt (later.map (· + a.length)) (a ++ b) = a ++ clearAt later b := by
  have here : ∀ i ∈ ([] : List Nat), i < a.length := nofun
  have copied := clearAt_append here later b
  rwa [List.nil_append, clearAt_nil] at copied

/-- Fourteen bytes are the bytes of a header, which the decoder reads but for the
undefined flag bit. -/
theorem exists_header {block : List UInt8} (whole : block.length = frameHeaderLen) :
    ∃ h : FrameHeader, h.encoded = block ∧
      readHeader block = { h with flags := .fromBitsTruncate h.flags.bits } := by
  unfold frameHeaderLen at whole
  have more : 4 ≤ block.length := by omega
  obtain ⟨streamId, rest, rfl⟩ := exists_putU32 more
  rw [List.length_append, putU32_length] at whole
  have more : 4 ≤ rest.length := by omega
  obtain ⟨operationId, rest, rfl⟩ := exists_putU32 more
  rw [List.length_append, putU32_length] at whole
  match rest, whole with
  | flags :: code :: rest, whole =>
      rw [List.length_cons, List.length_cons] at whole
      have more : 4 ≤ rest.length := by omega
      obtain ⟨payloadLen, rest, rfl⟩ := exists_putU32 more
      rw [List.length_append, putU32_length] at whole
      obtain rfl : rest = [] := List.eq_nil_of_length_eq_zero (by omega)
      refine ⟨⟨⟨streamId⟩, ⟨operationId⟩, ⟨flags⟩, .fromU8 code, payloadLen⟩, ?_, ?_⟩
      · simp only [FrameHeader.encoded, FrameType.toU8_fromU8, List.append_assoc,
          List.cons_append, List.nil_append, List.append_nil]
      · simp only [readHeader, getU32_putU32, getU8_cons]

theorem clearAt_head (b : UInt8) (rest : List UInt8) :
    clearAt [0] (b :: rest) = (b &&& FrameFlags.all) :: rest := by
  have inside : ∀ i ∈ [0], i < [b].length := by simp
  have own := clearAt_append inside [] rest
  rwa [List.map_nil, List.append_nil, clearAt_nil, List.singleton_append] at own

/-- Clearing the bit in the flags is clearing it in the byte they are written as. -/
theorem FrameHeader.encoded_truncate (h : FrameHeader) :
    { h with flags := .fromBitsTruncate h.flags.bits }.encoded = clearAt [flagsPlace] h.encoded := by
  have skip := clearAt_skip (putU32 h.streamId.id ++ putU32 h.operationId.id) [0]
    (h.flags.bits :: h.frameType.toU8 :: putU32 h.payloadLen)
  rw [clearAt_head] at skip
  have place : [0].map (· + (putU32 h.streamId.id ++ putU32 h.operationId.id).length) =
      [flagsPlace] := rfl
  rw [place] at skip
  simp only [encoded, List.append_assoc, List.cons_append, List.nil_append] at skip ⊢
  exact skip.symm

theorem readHeader_encoded {block : List UInt8} (whole : block.length = frameHeaderLen) :
    (readHeader block).encoded = clearAt [flagsPlace] block := by
  obtain ⟨h, rfl, read⟩ := exists_header whole
  rw [read, h.encoded_truncate]

/-- The payload length that the first header of a stream announces. -/
def announced (bytes : List UInt8) : Nat :=
  (readHeader (bytes.take frameHeaderLen)).payloadLen.toNat

/-- A stream ends before a header is whole, before its payload is whole, or goes on
behind its first frame. -/
theorem stream_induction {motive : List UInt8 → Prop}
    (short : ∀ bytes, bytes.length < frameHeaderLen → motive bytes)
    (cut : ∀ bytes, frameHeaderLen ≤ bytes.length →
      bytes.length < frameHeaderLen + announced bytes → motive bytes)
    (frame : ∀ bytes, frameHeaderLen + announced bytes ≤ bytes.length →
      motive (bytes.drop (frameHeaderLen + announced bytes)) → motive bytes)
    (bytes : List UInt8) : motive bytes := by
  induction size : bytes.length using Nat.strongRecOn generalizing bytes with
  | _ n ih =>
      by_cases header : bytes.length < frameHeaderLen
      · exact short bytes header
      · by_cases payload : bytes.length < frameHeaderLen + announced bytes
        · exact cut bytes (Nat.not_lt.mp header) payload
        · apply frame bytes (Nat.not_lt.mp payload)
          apply ih _ _ _ rfl
          simp only [List.length_drop, frameHeaderLen] at header ⊢
          omega

section settled
variable {bytes : List UInt8}

theorem settle_short (header : bytes.length < frameHeaderLen) :
    frameTransducer.settle .readingHeader bytes = ⟨[], .readingHeader, bytes⟩ :=
  frameTransducer.settle_blocked (move_short header)

theorem settle_header (header : frameHeaderLen ≤ bytes.length)
    (payload : bytes.length < frameHeaderLen + announced bytes) :
    frameTransducer.settle .readingHeader bytes =
      ⟨[], .readingPayload (readHeader (bytes.take frameHeaderLen)) (announced bytes),
        bytes.drop frameHeaderLen⟩ := by
  have blocked : (bytes.drop frameHeaderLen).length <
      frameReader.need (.readingPayload (readHeader (bytes.take frameHeaderLen)) (announced bytes)) := by
    rw [List.length_drop]
    simp only [frameReader]
    omega
  rw [frameTransducer.settle_move (move_header header)]
  unfold announced at blocked
  rw [frameTransducer.settle_blocked (move_short blocked)]
  rfl

theorem settle_frame (whole : frameHeaderLen + announced bytes ≤ bytes.length) :
    frameTransducer.settle .readingHeader bytes =
      let later := frameTransducer.settle .readingHeader
        (bytes.drop (frameHeaderLen + announced bytes))
      ⟨⟨readHeader (bytes.take frameHeaderLen),
        (bytes.drop frameHeaderLen).take (announced bytes)⟩ :: later.items, later.state, later.rest⟩ := by
  have header : frameHeaderLen ≤ bytes.length := by omega
  have payload : announced bytes ≤ (bytes.drop frameHeaderLen).length := by
    rw [List.length_drop]
    omega
  rw [frameTransducer.settle_move (move_header header)]
  unfold announced at payload
  rw [frameTransducer.settle_move (move_payload payload), List.drop_drop]
  rfl

end settled

/-- Where the flags of the decoded headers stand in the input: those of the frames,
then those of the header that waits for its payload. -/
def flagsPlaces : List Frame → DecodeState → List Nat
  | [], .readingHeader => []
  | [], .readingPayload _ _ => [flagsPlace]
  | f :: frames, state =>
      flagsPlace :: (flagsPlaces frames state).map (· + (frameHeaderLen + f.payload.length))

/-- What has not become a frame: a header that waits for its payload, then the buffer. -/
def undecoded (codec : FrameCodec) (rest : List UInt8) : List UInt8 :=
  match codec.state with
  | .readingHeader => rest
  | .readingPayload header _ => header.encoded ++ rest

/-- A header at the front, with its flags cleared, and whatever follows it. -/
theorem clearAt_header {bytes : List UInt8} (header : frameHeaderLen ≤ bytes.length) (n : Nat)
    (later : List Nat) :
    clearAt (flagsPlace :: later.map (· + (frameHeaderLen + n))) bytes =
      (readHeader (bytes.take frameHeaderLen)).encoded ++
        clearAt (later.map (· + n)) (bytes.drop frameHeaderLen) := by
  have block : (bytes.take frameHeaderLen).length = frameHeaderLen := List.length_take_of_le header
  have places : flagsPlace :: later.map (· + (frameHeaderLen + n)) =
      [flagsPlace] ++ (later.map (· + n)).map (· + (bytes.take frameHeaderLen).length) := by
    rw [block, List.map_map, List.singleton_append]
    congr 1
    apply List.map_congr_left
    intro i _
    simp only [Function.comp_apply]
    omega
  have inside : ∀ i ∈ [flagsPlace], i < (bytes.take frameHeaderLen).length := by
    rw [block]
    decide
  rw [readHeader_encoded block, ← clearAt_append inside, ← places, List.take_append_drop]

theorem settle_inverse (bytes : List UInt8) :
    let d := frameTransducer.settle .readingHeader bytes
    (∀ f ∈ d.items, f.header.payloadLen.toNat = f.payload.length) ∧
      d.items.flatMap Frame.encoded ++ undecoded ⟨d.state⟩ d.rest =
        clearAt (flagsPlaces d.items d.state) bytes := by
  induction bytes using stream_induction with
  | short bytes header =>
      rw [settle_short header]
      exact ⟨nofun, (clearAt_nil bytes).symm⟩
  | cut bytes header payload =>
      rw [settle_header header payload]
      refine ⟨nofun, ?_⟩
      have cleared := clearAt_header header 0 []
      simp only [List.map_nil, clearAt_nil] at cleared
      exact cleared.symm
  | frame bytes whole ih =>
      obtain ⟨right, inverse⟩ := ih
      rw [settle_frame whole]
      have header : frameHeaderLen ≤ bytes.length := by omega
      have size : announced bytes = ((bytes.drop frameHeaderLen).take (announced bytes)).length := by
        rw [List.length_take_of_le]
        rw [List.length_drop]
        omega
      refine ⟨List.forall_mem_cons.mpr ⟨size, right⟩, ?_⟩
      have front : Frame.encoded ⟨readHeader (bytes.take frameHeaderLen),
          (bytes.drop frameHeaderLen).take (announced bytes)⟩ = _ := Frame.encoded_eq size
      -- the payload is copied, and the rest of the stream is the induction hypothesis
      have payload := clearAt_skip ((bytes.drop frameHeaderLen).take (announced bytes))
        (flagsPlaces (frameTransducer.settle .readingHeader
            (bytes.drop (frameHeaderLen + announced bytes))).items
          (frameTransducer.settle .readingHeader
            (bytes.drop (frameHeaderLen + announced bytes))).state)
        (bytes.drop (frameHeaderLen + announced bytes))
      rw [← inverse, ← size, ← List.drop_drop, List.take_append_drop, List.drop_drop] at payload
      rw [List.flatMap_cons, front, flagsPlaces, ← size, clearAt_header header, payload]
      simp only [List.append_assoc]

/-- Writing the decoded frames back, and the undecoded rest behind them, gives the
input with bit 7 of each decoded flags byte cleared, and nothing else changed. -/
theorem encodeAll_feed (chunks : List (List UInt8)) :
    (∀ f ∈ (feed .new [] chunks).frames, f.header.payloadLen.toNat = f.payload.length) ∧
      encodeAll (feed .new [] chunks).frames [] ++
          undecoded (feed .new [] chunks).codec (feed .new [] chunks).rest =
        clearAt (flagsPlaces (feed .new [] chunks).frames (feed .new [] chunks).codec.state)
          chunks.flatten := by
  rw [feed_new]
  simp only [encodeAll_eq, List.nil_append]
  exact settle_inverse chunks.flatten

end Foctet.Core
