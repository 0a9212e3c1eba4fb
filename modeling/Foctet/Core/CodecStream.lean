import Foctet.Core.Codec
import Foctet.Lib.Framing

/-! Whole streams through the codec: what comes out of the decoder when the
concatenated encodings arrive in pieces. -/
namespace Foctet.Core
open Foctet.Lib

theorem wire_remaining {f : Frame} (h : f.payload.length < 2 ^ 32) :
    f.wire.header.payloadLen.toNat = f.payload.length := by
  simp only [Frame.wire, UInt32.toNat_ofNat', Nat.mod_eq_of_lt h]

/-- Two moves read exactly one encoding off the front of the buffer. -/
theorem settle_encoded {f : Frame} (h : f.payload.length < 2 ^ 32) (rest : List UInt8) :
    frameTransducer.settle .readingHeader (f.encoded ++ rest) =
      ⟨f.wire :: (frameTransducer.settle .readingHeader rest).items,
        (frameTransducer.settle .readingHeader rest).state,
        (frameTransducer.settle .readingHeader rest).rest⟩ := by
  obtain ⟨hheader, hpayload⟩ := encoded_header f rest
  have enough : frameHeaderLen ≤ (f.encoded ++ rest).length := by
    rw [List.length_append, f.encoded_length]; omega
  have hm := move_header enough
  rw [hheader, hpayload, wire_remaining h] at hm
  have within : f.payload.length ≤ (f.payload ++ rest).length := by
    rw [List.length_append]; omega
  have hm' : frameTransducer.move (.readingPayload f.wire.header f.payload.length)
      (f.payload ++ rest) = _ := move_payload within
  rw [List.take_left, List.drop_left] at hm'
  rw [frameTransducer.settle_move hm, frameTransducer.settle_move hm']
  rfl

/-- The codec as a framing: a frame is read as it is on the wire, with its length field set. -/
def frameFraming : Framing DecodeState UInt8 Frame Frame where
  toTransducer := frameTransducer
  start := .readingHeader
  fits f := f.payload.length < 2 ^ 32
  bytes := Frame.encoded
  read := Frame.wire
  blocked := move_short (by decide)
  whole _ rest fits := settle_encoded fits rest

theorem settle_encodings {frames : List Frame} (h : ∀ f ∈ frames, f.payload.length < 2 ^ 32)
    (rest : List UInt8) :
    frameTransducer.settle .readingHeader (frames.flatMap Frame.encoded ++ rest) =
      ⟨frames.map Frame.wire ++ (frameTransducer.settle .readingHeader rest).items,
        (frameTransducer.settle .readingHeader rest).state,
        (frameTransducer.settle .readingHeader rest).rest⟩ :=
  frameFraming.settle_all h rest

/-- A strict prefix of an encoding is not enough for any frame. -/
theorem settle_cut {f : Frame} (h : f.payload.length < 2 ^ 32) {tail : List UInt8}
    (begins : tail <+: f.encoded) (strict : tail ≠ f.encoded) :
    (frameTransducer.settle .readingHeader tail).items = [] := by
  obtain ⟨more, hmore⟩ := begins
  have hlen : tail.length < frameHeaderLen + f.payload.length := by
    have total := congrArg List.length hmore
    rw [List.length_append, f.encoded_length] at total
    have : more ≠ [] := by
      rintro rfl
      exact strict (by simpa using hmore)
    have := List.length_pos_iff.mpr this
    omega
  by_cases short : tail.length < frameHeaderLen
  · rw [frameTransducer.settle_blocked (move_short short)]
  · have enough := Nat.not_lt.mp short
    obtain ⟨hheader, -⟩ := encoded_header f []
    have hm := move_header enough
    rw [List.append_nil, ← hmore, List.take_append_of_le_length enough] at hheader
    rw [hheader, wire_remaining h] at hm
    have blocked : (tail.drop frameHeaderLen).length <
        frameReader.need (.readingPayload f.wire.header f.payload.length) := by
      rw [List.length_drop]
      simp only [frameReader]
      omega
    rw [frameTransducer.settle_move hm, frameTransducer.settle_blocked (move_short blocked)]
    rfl

/-- Encoding frames one after another into one buffer. -/
def encodeAll (frames : List Frame) (dst : List UInt8) : List UInt8 :=
  frames.foldl (fun dst f => (encode f dst).2) dst

theorem encodeAll_eq (frames : List Frame) (dst : List UInt8) :
    encodeAll frames dst = dst ++ frames.flatMap Frame.encoded := by
  induction frames generalizing dst with
  | nil => simp only [encodeAll, List.foldl_nil, List.flatMap_nil, List.append_nil]
  | cons f frames ih =>
      have step : encodeAll (f :: frames) dst = encodeAll frames (dst ++ f.encoded) := rfl
      rw [step, ih, List.flatMap_cons, List.append_assoc]

/-- Feeding a fresh codec is settling the whole input. -/
theorem feed_new (chunks : List (List UInt8)) :
    feed .new [] chunks = ⟨(frameTransducer.settle .readingHeader chunks.flatten).items, .ok (),
      ⟨(frameTransducer.settle .readingHeader chunks.flatten).state⟩,
      (frameTransducer.settle .readingHeader chunks.flatten).rest⟩ := by
  have blocked : frameTransducer.move .readingHeader [] = none := frameFraming.blocked
  rw [feed_eq]
  simp only [FrameCodec.new, frameTransducer.feed_eq_settle blocked, List.nil_append]

/-- However the encodings of some frames and the beginning of one more are cut
into chunks, the decoder gives back exactly these frames, in order, and no error. -/
theorem feed_encodeAll (frames : List Frame) (further : Frame) (tail : List UInt8)
    (chunks : List (List UInt8)) (short : ∀ f ∈ frames, f.payload.length < 2 ^ 32)
    (further_short : further.payload.length < 2 ^ 32) (begins : tail <+: further.encoded)
    (strict : tail ≠ further.encoded) (cut : chunks.flatten = encodeAll frames [] ++ tail) :
    (feed .new [] chunks).frames = frames.map Frame.wire ∧
      (feed .new [] chunks).result = .ok () := by
  rw [feed_new, cut, encodeAll_eq, List.nil_append, settle_encodings short]
  refine ⟨?_, rfl⟩
  simp only [settle_cut further_short begins strict, List.append_nil]

/-- Two frames and five bytes of a third, cut inside the first header and inside
the second payload. The first frame carries an undefined flag bit and a reserved
code that has a name. -/
theorem feed_encodeAll_two_frames :
    let first : Frame := ⟨⟨⟨7⟩, ⟨0⟩, ⟨0x88⟩, .reserved 4, 9⟩, []⟩
    let second : Frame := ⟨⟨⟨1⟩, ⟨2⟩, .EMPTY, .data, 0⟩, [10, 20, 30]⟩
    let bytes := encodeAll [first, second] [] ++ second.encoded.take 5
    (feed .new [] [bytes.take 9, (bytes.drop 9).take 21, bytes.drop 30]).frames =
      [⟨⟨⟨7⟩, ⟨0⟩, .FIN, .fileData, 0⟩, []⟩, ⟨⟨⟨1⟩, ⟨2⟩, .EMPTY, .data, 3⟩, [10, 20, 30]⟩] := by
  intro first second bytes
  exact (feed_encodeAll [first, second] second (second.encoded.take 5)
    [bytes.take 9, (bytes.drop 9).take 21, bytes.drop 30] (by decide) (by decide)
    ⟨_, List.take_append_drop 5 _⟩ (by decide) (by decide)).1.trans (by decide)

/-- A drained decoder waits for at least one byte: an empty payload is never left
to be read. -/
theorem feed_codec_waits (chunks : List (List UInt8)) (header : FrameHeader) :
    (feed .new [] chunks).codec.state ≠ .readingPayload header 0 := by
  intro empty
  have blocked := frameTransducer.move_settle .readingHeader chunks.flatten
  rw [feed_new] at empty
  dsimp only at empty
  rw [empty, move_payload (Nat.zero_le _)] at blocked
  cases blocked

/-- A call that returns a frame has taken its header or its payload off the buffer. -/
theorem decode_consumes {codec codec' : FrameCodec} {src src' : List UInt8} {frame : Frame}
    (waits : ∀ header, codec.state ≠ .readingPayload header 0)
    (called : codec.decode src = (.ok (some frame), codec', src')) :
    codec'.state = .readingHeader ∧ src'.length < src.length := by
  have payload {header : FrameHeader} {remaining : Nat} {buffer : List UInt8}
      (returned : decodePayload header remaining buffer = (.ok (some frame), codec', src')) :
      codec'.state = .readingHeader ∧ src' = buffer.drop remaining ∧
        remaining ≤ buffer.length := by
    unfold decodePayload at returned
    split at returned
    · cases returned
    · rename_i enough
      cases returned
      exact ⟨rfl, rfl, Nat.not_lt.mp enough⟩
  obtain ⟨state⟩ := codec
  cases state with
  | readingHeader =>
      simp only [FrameCodec.decode] at called
      split at called
      · cases called
      · rename_i enough
        obtain ⟨fresh, rfl, -⟩ := payload called
        refine ⟨fresh, ?_⟩
        simp only [frameHeaderLen] at enough
        simp only [List.length_drop, frameHeaderLen]
        omega
  | readingPayload header remaining =>
      obtain ⟨fresh, rfl, within⟩ := payload called
      refine ⟨fresh, ?_⟩
      have some_bytes : remaining ≠ 0 := fun none_left => waits header (by rw [none_left])
      rw [List.length_drop]
      omega

/-- The loop over `decode`, given up when no call has returned `None` within so many. -/
def drainWithin : Nat → FrameCodec → List UInt8 → Option Drained
  | 0, _, _ => none
  | calls + 1, codec, src =>
      match codec.decode src with
      | (.ok (some frame), codec', src') =>
          (drainWithin calls codec' src').map fun later =>
            { later with frames := frame :: later.frames }
      | (.ok none, codec', src') => some ⟨[], .ok (), codec', src'⟩
      | (.error e, codec', src') => some ⟨[], .error e, codec', src'⟩

/-- One call more than there are bytes is enough. -/
theorem drainWithin_length (codec : FrameCodec) (src : List UInt8)
    (waits : ∀ header, codec.state ≠ .readingPayload header 0) {calls : Nat}
    (enough : src.length < calls) : drainWithin calls codec src = some (drain codec src) := by
  fun_induction drain codec src generalizing calls with
  | case1 codec src frame codec' src' called later ih =>
      obtain ⟨fresh, shorter⟩ := decode_consumes waits called
      obtain ⟨calls, rfl⟩ := Nat.exists_eq_add_one_of_ne_zero (Nat.ne_zero_of_lt enough)
      rw [drainWithin, called]
      simp only [ih (by simp [fresh]) (by omega : src'.length < calls), Option.map_some, later]
  | case2 codec src codec' src' called =>
      obtain ⟨calls, rfl⟩ := Nat.exists_eq_add_one_of_ne_zero (Nat.ne_zero_of_lt enough)
      rw [drainWithin, called]
  | case3 codec src e codec' src' called =>
      obtain ⟨calls, rfl⟩ := Nat.exists_eq_add_one_of_ne_zero (Nat.ne_zero_of_lt enough)
      rw [drainWithin, called]

/-- Where the input is cut makes no difference to the frames, the decoder and the
buffer left behind; and from whatever state feeding leaves behind, each call that
returns a frame consumes input, so draining any buffer comes to an end. -/
theorem feed_chunking (chunks chunks' : List (List UInt8))
    (same : chunks.flatten = chunks'.flatten) :
    feed .new [] chunks = feed .new [] chunks' ∧
    (∀ header, (feed .new [] chunks).codec.state ≠ .readingPayload header 0) ∧
    (∀ src frame codec src', (feed .new [] chunks).codec.decode src = (.ok (some frame), codec, src') →
      src'.length < src.length) ∧
    (∀ src, drainWithin (src.length + 1) (feed .new [] chunks).codec src =
      some (drain (feed .new [] chunks).codec src)) := by
  have waits := feed_codec_waits chunks
  refine ⟨?_, waits, ?_, ?_⟩
  · rw [feed_new, feed_new, same]
  · intro src frame codec src' called
    exact (decode_consumes waits called).2
  · intro src
    exact drainWithin_length _ src waits (Nat.lt_succ_self _)

/-- Fifteen bytes cut after the first and after the fourteenth; the header announces
two bytes, of which one is there. -/
theorem feed_chunking_cut_header :
    let bytes : List UInt8 := [0, 0, 0, 9, 0, 0, 0, 0, 0, 1, 0, 0, 0, 2, 77]
    feed .new [] [bytes.take 1, bytes.drop 1] = feed .new [] [bytes.take 14, bytes.drop 14] := by
  intro bytes
  exact (feed_chunking [bytes.take 1, bytes.drop 1] [bytes.take 14, bytes.drop 14] (by decide)).1

end Foctet.Core
