import Foctet.Core.CodecInverse

/-! The end of a framed transport. The reader calls `decode_eof`, which knows a cut
frame only by bytes left in the buffer; a header without its payload is no longer
there. -/
namespace Foctet.Core
open Foctet.Lib

/-- `Decoder::decode_eof` as the trait provides it; the codec does not override it. -/
def FrameCodec.decodeEof (codec : FrameCodec) (src : List UInt8) :
    Except IoError (Option Frame) × FrameCodec × List UInt8 :=
  match codec.decode src with
  | (.ok none, codec', src') =>
      if src' = [] then (.ok none, codec', src')
      else (.error ⟨"bytes remaining on stream"⟩, codec', src')
  | called => called

theorem decodeEof_some {codec codec' : FrameCodec} {src src' : List UInt8} {frame : Frame}
    (called : codec.decodeEof src = (.ok (some frame), codec', src')) :
    codec.decode src = (.ok (some frame), codec', src') := by
  unfold FrameCodec.decodeEof at called
  split at called
  · split at called <;> cases called
  · exact called

/-- Calls `decode_eof` until it returns no frame: `Ok(None)` is the clean end of the
stream, and an error its last item. -/
def finish (codec : FrameCodec) (src : List UInt8) : Drained :=
  match _called : codec.decodeEof src with
  | (.ok (some frame), codec', src') =>
      let later := finish codec' src'
      { later with frames := frame :: later.frames }
  | (.ok none, codec', src') => ⟨[], .ok (), codec', src'⟩
  | (.error e, codec', src') => ⟨[], .error e, codec', src'⟩
  termination_by frameTransducer.rank codec.state src
  decreasing_by exact decode_lower (decodeEof_some ‹_›)

/-- `FramedRead` over a transport that delivers some chunks and is then closed. -/
def readToEnd (chunks : List (List UInt8)) : Drained :=
  let fed := feed .new [] chunks
  match fed.result with
  | .error _ => fed
  | .ok () =>
      let last := finish fed.codec fed.rest
      { last with frames := fed.frames ++ last.frames }

/-- Nothing comes out of a drained decoder any more, so the buffer decides. -/
theorem finish_blocked {codec : FrameCodec} {src : List UInt8}
    (blocked : frameTransducer.move codec.state src = none) :
    (finish codec src).result =
      if src = [] then .ok () else .error ⟨"bytes remaining on stream"⟩ := by
  have called : codec.decode src = (.ok none, codec, src) := by
    rw [decode_eq_poll, frameTransducer.poll_blocked blocked]
  rw [finish]
  split
  case h_1 frame codec' src' returned =>
      rw [decodeEof_some returned] at called
      cases called
  case h_2 codec' src' returned =>
      simp only [FrameCodec.decodeEof, called] at returned
      split at returned
      · rename_i empty
        exact (if_pos empty).symm
      · cases returned
  case h_3 e codec' src' returned =>
      simp only [FrameCodec.decodeEof, called] at returned
      split at returned
      · cases returned
      · rename_i more
        cases returned
        exact (if_neg more).symm

theorem readToEnd_result (chunks : List (List UInt8)) :
    (readToEnd chunks).result =
      if (frameTransducer.settle .readingHeader chunks.flatten).rest = [] then .ok ()
      else .error ⟨"bytes remaining on stream"⟩ := by
  rw [readToEnd, feed_new]
  exact finish_blocked (frameTransducer.move_settle .readingHeader chunks.flatten)

/-- The encodings of frames whose payloads the length field can hold. -/
def WholeFrames (bytes : List UInt8) : Prop :=
  ∃ frames : List Frame, (∀ f ∈ frames, f.payload.length < 2 ^ 32) ∧ bytes = encodeAll frames []

/-- Whole frames, then the header of one more frame and nothing of its payload,
which is not empty. -/
def EndsAtHeader (bytes : List UInt8) : Prop :=
  ∃ (frames : List Frame) (further : Frame), (∀ f ∈ frames, f.payload.length < 2 ^ 32) ∧
    further.payload.length < 2 ^ 32 ∧ further.payload ≠ [] ∧
    bytes = encodeAll frames [] ++ further.encoded.take frameHeaderLen

/-- The first frame of a stream as it was written, with its flags whole. -/
theorem exists_frame {bytes : List UInt8} (whole : frameHeaderLen + announced bytes ≤ bytes.length) :
    ∃ f : Frame, f.payload.length < 2 ^ 32 ∧
      f.encoded ++ bytes.drop (frameHeaderLen + announced bytes) = bytes := by
  have block : (bytes.take frameHeaderLen).length = frameHeaderLen :=
    List.length_take_of_le (by omega)
  obtain ⟨h, written, read⟩ := exists_header block
  have field : h.payloadLen.toNat = announced bytes := by
    rw [announced, read]
  have size : ((bytes.drop frameHeaderLen).take (announced bytes)).length = announced bytes := by
    apply List.length_take_of_le
    rw [List.length_drop]
    omega
  refine ⟨⟨h, (bytes.drop frameHeaderLen).take (announced bytes)⟩, ?_, ?_⟩
  · rw [size, ← field]
    exact h.payloadLen.toNat_lt
  · rw [Frame.encoded_eq (field.trans size.symm), written, List.append_assoc, ← List.drop_drop,
      List.take_append_drop, List.take_append_drop]

/-- Every stream is whole frames and a tail in which no frame is whole. -/
theorem exists_frames (bytes : List UInt8) :
    ∃ (frames : List Frame) (tail : List UInt8), (∀ f ∈ frames, f.payload.length < 2 ^ 32) ∧
      bytes = encodeAll frames [] ++ tail ∧
      (tail.length < frameHeaderLen ∨
        frameHeaderLen ≤ tail.length ∧ tail.length < frameHeaderLen + announced tail) := by
  induction bytes using stream_induction with
  | short bytes header => exact ⟨[], bytes, nofun, rfl, .inl header⟩
  | cut bytes header payload => exact ⟨[], bytes, nofun, rfl, .inr ⟨header, payload⟩⟩
  | frame bytes whole ih =>
      obtain ⟨frames, tail, short, split, unfinished⟩ := ih
      obtain ⟨f, fits, front⟩ := exists_frame whole
      refine ⟨f :: frames, tail, List.forall_mem_cons.mpr ⟨fits, short⟩, ?_, unfinished⟩
      rw [encodeAll_eq, List.nil_append] at split ⊢
      rw [List.flatMap_cons, List.append_assoc, ← split, front]

section tail
variable {bytes : List UInt8}

/-- What settling leaves behind is decided by the tail. -/
theorem settle_tail {frames : List Frame} {tail : List UInt8}
    (short : ∀ f ∈ frames, f.payload.length < 2 ^ 32)
    (split : bytes = encodeAll frames [] ++ tail) :
    (frameTransducer.settle .readingHeader bytes).state =
        (frameTransducer.settle .readingHeader tail).state ∧
      (frameTransducer.settle .readingHeader bytes).rest =
        (frameTransducer.settle .readingHeader tail).rest := by
  rw [split, encodeAll_eq, List.nil_append, settle_encodings short]
  exact ⟨rfl, rfl⟩

theorem settle_wholeFrames (whole : WholeFrames bytes) :
    (frameTransducer.settle .readingHeader bytes).state = .readingHeader ∧
      (frameTransducer.settle .readingHeader bytes).rest = [] := by
  obtain ⟨frames, short, split⟩ := whole
  rw [← List.append_nil (encodeAll frames [])] at split
  have blocked : frameTransducer.settle .readingHeader [] = _ :=
    frameTransducer.settle_blocked (move_short (by decide))
  obtain ⟨state, rest⟩ := settle_tail short split
  rw [state, rest, blocked]
  exact ⟨rfl, rfl⟩

theorem settle_endsAtHeader (ends : EndsAtHeader bytes) :
    (frameTransducer.settle .readingHeader bytes).state ≠ .readingHeader ∧
      (frameTransducer.settle .readingHeader bytes).rest = [] := by
  obtain ⟨frames, further, short, fits, payload, split⟩ := ends
  have size : (further.encoded.take frameHeaderLen).length = frameHeaderLen := by
    apply List.length_take_of_le
    rw [further.encoded_length]
    omega
  have field : announced (further.encoded.take frameHeaderLen) = further.payload.length := by
    have header := (encoded_header further []).1
    rw [List.append_nil] at header
    rw [announced, List.take_take, Nat.min_self, header, wire_remaining fits]
  have some_payload := List.length_pos_iff.mpr payload
  have waits : frameTransducer.settle .readingHeader (further.encoded.take frameHeaderLen) = _ :=
    settle_header (by omega) (by omega)
  obtain ⟨state, rest⟩ := settle_tail short split
  rw [state, rest, waits]
  exact ⟨nofun, List.drop_eq_nil_of_le (Nat.le_of_eq size)⟩

/-- An empty buffer at the end has no other reason. -/
theorem whole_or_endsAtHeader (empty : (frameTransducer.settle .readingHeader bytes).rest = []) :
    WholeFrames bytes ∨ EndsAtHeader bytes := by
  obtain ⟨frames, tail, short, split, header | ⟨header, payload⟩⟩ := exists_frames bytes
  · rw [(settle_tail short split).2, settle_short header] at empty
    rw [show tail = [] from empty, List.append_nil] at split
    exact .inl ⟨frames, short, split⟩
  · rw [(settle_tail short split).2, settle_header header payload] at empty
    have block : tail.length = frameHeaderLen :=
      Nat.le_antisymm (List.drop_eq_nil_iff.mp empty) header
    -- any payload of the announced length goes with the header that is there
    obtain ⟨h, written, read⟩ := exists_header block
    have field : h.payloadLen.toNat = announced tail := by
      rw [announced, List.take_of_length_le (Nat.le_of_eq block), read]
    have size : (List.replicate (announced tail) (0 : UInt8)).length = announced tail :=
      List.length_replicate
    refine .inr ⟨frames, ⟨h, List.replicate (announced tail) 0⟩, short, ?_, ?_, ?_⟩
    · rw [size, ← field]
      exact h.payloadLen.toNat_lt
    · apply List.length_pos_iff.mp
      rw [size]
      omega
    · rw [Frame.encoded_eq (field.trans size.symm), ← h.encoded_length, List.take_left, written]
      exact split

end tail

theorem readToEnd_clean_iff (chunks : List (List UInt8)) :
    (readToEnd chunks).result = .ok () ↔
      WholeFrames chunks.flatten ∨ EndsAtHeader chunks.flatten := by
  rw [readToEnd_result]
  constructor
  · intro clean
    apply whole_or_endsAtHeader
    by_contra more
    rw [if_neg more] at clean
    cases clean
  · rintro (whole | ends)
    · exact if_pos (settle_wholeFrames whole).2
    · exact if_pos (settle_endsAtHeader ends).2

/-- A clean end is reported for the whole streams alone, and an error for every
stream cut inside a frame, unless the cut is right behind the header of a frame
that has a payload: there the end is reported as clean. -/
theorem truncation_detected_iff (chunks : List (List UInt8)) :
    (((readToEnd chunks).result = .ok () ↔ WholeFrames chunks.flatten) ∧
      ∀ (frames : List Frame) (further : Frame) (tail : List UInt8),
        (∀ f ∈ frames, f.payload.length < 2 ^ 32) → further.payload.length < 2 ^ 32 →
        tail ≠ [] → tail <+: further.encoded → tail ≠ further.encoded →
        chunks.flatten = encodeAll frames [] ++ tail →
        ∃ e, (readToEnd chunks).result = .error e) ↔
    ¬ EndsAtHeader chunks.flatten := by
  constructor
  · rintro ⟨clean_iff, -⟩ ends
    have whole := clean_iff.mp ((readToEnd_clean_iff chunks).mpr (.inr ends))
    exact (settle_endsAtHeader ends).1 (settle_wholeFrames whole).1
  · intro elsewhere
    have clean_iff : (readToEnd chunks).result = .ok () ↔ WholeFrames chunks.flatten := by
      rw [readToEnd_clean_iff]
      exact or_iff_left elsewhere
    refine ⟨clean_iff, ?_⟩
    intro frames further tail short fits some_bytes begins strict split
    cases ended : (readToEnd chunks).result with
    | error e => exact ⟨e, rfl⟩
    | ok =>
        -- whole frames leave nothing behind, and the tail is no frame: it would be empty
        have left := settle_wholeFrames (clean_iff.mp ended)
        have same := settle_tail short split
        rw [same.1, same.2] at left
        have inverse := (settle_inverse tail).2
        rw [settle_cut fits begins strict, left.1, left.2] at inverse
        exact absurd (inverse.trans (clearAt_nil tail)).symm some_bytes

/-- The header of a frame with one byte of payload, cut behind its fourteen bytes,
ends cleanly. -/
theorem header_alone_ends_cleanly :
    let further : Frame := ⟨⟨⟨1⟩, ⟨0⟩, .EMPTY, .data, 1⟩, [77]⟩
    let tail := further.encoded.take 14
    tail ≠ [] ∧ tail <+: further.encoded ∧ tail ≠ further.encoded ∧
      (readToEnd [tail]).result = .ok () ∧ ¬ WholeFrames tail := by
  intro further tail
  have ends : EndsAtHeader tail := ⟨[], further, nofun, by decide, by decide, rfl⟩
  refine ⟨by decide, List.take_prefix 14 _, by decide, ?_, ?_⟩
  · apply (readToEnd_clean_iff [tail]).mpr
    rw [List.flatten_singleton]
    exact .inr ends
  · intro whole
    exact (settle_endsAtHeader ends).1 (settle_wholeFrames whole).1

end Foctet.Core
