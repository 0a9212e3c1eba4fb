import Foctet.Core.LengthField

/-! Frames as the builder makes them, written out and read back. The builder leaves the
length field at zero, and both encoders write the length of the payload in its place. -/
namespace Foctet.Core

/-- A call of one of the builder's methods. -/
inductive FrameBuilder.Call where
  | withFin (fin : Bool)
  | withStreamId (streamId : StreamId)
  | withOperationId (operationId : OperationId)
  | withFlags (flags : FrameFlags)
  | withFrameType (frameType : FrameType)
  | asRequest
  | asResponse
  | asFragmented
  | withPayload (payload : List UInt8)
  deriving DecidableEq, Repr

/-- No bit is set that no constant defines. -/
def FrameFlags.Defined (f : FrameFlags) : Prop := f.bits &&& all = f.bits

instance (f : FrameFlags) : Decidable f.Defined :=
  inferInstanceAs (Decidable (f.bits &&& FrameFlags.all = f.bits))

namespace FrameFlags
variable {f g : FrameFlags}

theorem Defined.setFlag (defined : f.Defined) (flag : g.Defined) : (f.setFlag g).Defined := by
  have distributes : (f.bits ||| g.bits) &&& all = (f.bits &&& all) ||| (g.bits &&& all) := by
    apply UInt8.toNat_inj.mp
    simp only [UInt8.toNat_and, UInt8.toNat_or, Nat.and_or_distrib_right]
  exact distributes.trans (congrArg₂ (· ||| ·) defined flag)

theorem Defined.unsetFlag (defined : f.Defined) : (f.unsetFlag g).Defined := by
  change f.bits &&& ~~~ g.bits &&& all = f.bits &&& ~~~ g.bits
  rw [UInt8.and_assoc, UInt8.and_comm (~~~ g.bits), ← UInt8.and_assoc, defined]

theorem Defined.fromBitsTruncate (defined : f.Defined) : FrameFlags.fromBitsTruncate f.bits = f :=
  congrArg FrameFlags.mk defined

end FrameFlags

/-- `Reserved` is not used for the code of another type. -/
def FrameType.Defined (t : FrameType) : Prop := ∀ code, t = .reserved code → 5 < code

theorem FrameType.Defined.fromU8_toU8 {t : FrameType} (defined : t.Defined) :
    FrameType.fromU8 t.toU8 = t := by
  cases t with
  | reserved code =>
      have own : 5 < code.toNat := UInt8.lt_iff_toNat_lt.mp (defined code rfl)
      have other (n : UInt8) (small : n.toNat ≤ 5) : code ≠ n := by
        rintro rfl
        omega
      simp only [toU8, fromU8, other 0 (by decide), other 1 (by decide), other 2 (by decide),
        other 3 (by decide), other 4 (by decide), other 5 (by decide), if_false]
  | _ => rfl

namespace FrameBuilder

def apply (b : FrameBuilder) : Call → FrameBuilder
  | .withFin fin => b.withFin fin
  | .withStreamId streamId => b.withStreamId streamId
  | .withOperationId operationId => b.withOperationId operationId
  | .withFlags flags => b.withFlags flags
  | .withFrameType frameType => b.withFrameType frameType
  | .asRequest => b.asRequest
  | .asResponse => b.asResponse
  | .asFragmented => b.asFragmented
  | .withPayload payload => b.withPayload payload

/-- `Frame::builder()`, some calls, and `build()`. -/
def built (calls : List Call) : Frame := (calls.foldl apply Frame.builder).build

/-- The call uses defined flags and types only. -/
def Call.Defined : Call → Prop
  | .withFlags flags => flags.Defined
  | .withFrameType frameType => frameType.Defined
  | _ => True

def Call.payload? : Call → Option (List UInt8)
  | .withPayload payload => some payload
  | _ => none

/-- The payload of the last call that sets one. -/
def lastPayload (calls : List Call) : List UInt8 := (calls.filterMap Call.payload?).getLast?.getD []

/-- What the calls keep. -/
structure Kept (b : FrameBuilder) : Prop where
  flags : b.header.flags.Defined
  frameType : b.header.frameType.Defined
  payloadLen : b.header.payloadLen = 0

theorem Kept.new : Kept Frame.builder := by
  refine ⟨by decide, ?_, rfl⟩
  intro code reserved
  cases reserved

theorem Kept.apply {b : FrameBuilder} (kept : Kept b) {call : Call} (defined : call.Defined) :
    Kept (b.apply call) := by
  cases call with
  | withFin fin =>
      refine ⟨?_, kept.frameType, kept.payloadLen⟩
      cases fin with
      | true => exact kept.flags.setFlag (by decide)
      | false => exact kept.flags.unsetFlag
  | withStreamId | withOperationId | withPayload => exact ⟨kept.flags, kept.frameType, kept.payloadLen⟩
  | withFlags flags => exact ⟨defined, kept.frameType, kept.payloadLen⟩
  | withFrameType frameType => exact ⟨kept.flags, defined, kept.payloadLen⟩
  | asRequest | asResponse | asFragmented =>
      exact ⟨kept.flags.setFlag (by decide), kept.frameType, kept.payloadLen⟩

theorem Kept.foldl {b : FrameBuilder} (kept : Kept b) {calls : List Call}
    (defined : ∀ call ∈ calls, call.Defined) : Kept (calls.foldl FrameBuilder.apply b) := by
  induction calls generalizing b with
  | nil => exact kept
  | cons call calls ih =>
      rw [List.forall_mem_cons] at defined
      exact ih (kept.apply defined.1) defined.2

theorem foldl_payload (b : FrameBuilder) (calls : List Call) :
    (calls.foldl apply b).payload = (calls.filterMap Call.payload?).getLast?.getD b.payload := by
  induction calls generalizing b with
  | nil => rfl
  | cons call calls ih =>
      rw [List.foldl_cons, ih]
      cases call with
      | withPayload payload =>
          have set : (Call.withPayload payload).payload? = some payload := rfl
          rw [List.filterMap_cons_some set, List.getLast?_cons, Option.getD_some]
          rfl
      | _ => rfl

end FrameBuilder

section wire
variable {f : Frame}

theorem Frame.fromBytes_toBytes (f : Frame) : f.toBytes.bind Frame.fromBytes = .ok f.wire := by
  obtain ⟨header, payload⟩ := encoded_header f []
  rw [List.append_nil] at header payload
  have enough : frameHeaderLen ≤ f.encoded.length := by
    rw [f.encoded_length]
    exact Nat.le_add_right _ _
  rw [Frame.toBytes_eq]
  change Frame.fromBytes f.encoded = _
  rw [Frame.fromBytes_eq enough, header, payload, List.append_nil]
  rfl

/-- A fresh decoder takes an encoded frame off the bytes, and leaves what follows it. -/
theorem decode_encoded (short : f.payload.length < 2 ^ 32) (rest : List UInt8) :
    FrameCodec.new.decode (f.encoded ++ rest) = (.ok (some f.wire), .new, rest) := by
  obtain ⟨header, payload⟩ := encoded_header f rest
  have whole : ¬ (f.encoded ++ rest).length < frameHeaderLen := by
    rw [List.length_append, f.encoded_length]
    omega
  have enough : ¬ (f.payload ++ rest).length < f.payload.length := by
    rw [List.length_append]
    omega
  simp only [FrameCodec.decode, FrameCodec.new, if_neg whole, header, payload, decodePayload,
    wire_remaining short, if_neg enough, List.take_left, List.drop_left]
  rfl

/-- A frame with a zero in its length field is as the encoder would seal it only if its
payload is empty. -/
theorem Frame.sealed_eq_iff (zero : f.header.payloadLen = 0) (short : f.payload.length < 2 ^ 32) :
    f.sealed = f ↔ f.payload = [] := by
  constructor
  · intro same
    have field : UInt32.ofNat f.payload.length = f.header.payloadLen :=
      congrArg (fun g : Frame => g.header.payloadLen) same
    have length := congrArg UInt32.toNat field
    rw [zero, UInt32.toNat_ofNat', Nat.mod_eq_of_lt short] at length
    exact List.length_eq_zero_iff.mp length
  · intro empty
    obtain ⟨⟨streamId, operationId, flags, frameType, payloadLen⟩, payload⟩ := f
    obtain rfl : payload = [] := empty
    obtain rfl : payloadLen = 0 := zero
    rfl

end wire

/-- A frame that the builder has made comes back with the length of its payload in the
length field, and nothing else changed. So it comes back unchanged exactly if no payload
was set, or an empty one last. -/
theorem built_frames_survive_iff (calls : List FrameBuilder.Call)
    (defined : ∀ call ∈ calls, call.Defined)
    (short : (FrameBuilder.built calls).payload.length < 2 ^ 32) :
    (FrameBuilder.built calls).toBytes.bind Frame.fromBytes = .ok (FrameBuilder.built calls).sealed ∧
    ((FrameBuilder.built calls).toBytes.bind Frame.fromBytes = .ok (FrameBuilder.built calls) ↔
      FrameBuilder.lastPayload calls = []) ∧
    ∀ rest,
      (FrameCodec.new.decode ((encode (FrameBuilder.built calls) []).2 ++ rest) =
          (.ok (some (FrameBuilder.built calls)), .new, rest) ↔
        FrameBuilder.lastPayload calls = []) := by
  have kept : FrameBuilder.Kept (calls.foldl FrameBuilder.apply Frame.builder) :=
    FrameBuilder.Kept.new.foldl defined
  have payload : (FrameBuilder.built calls).payload = FrameBuilder.lastPayload calls :=
    FrameBuilder.foldl_payload Frame.builder calls
  have read : (FrameBuilder.built calls).wire = (FrameBuilder.built calls).sealed :=
    Frame.wire_eq_sealed kept.flags.fromBitsTruncate kept.frameType.fromU8_toU8
  have unchanged : (FrameBuilder.built calls).sealed = FrameBuilder.built calls ↔
      FrameBuilder.lastPayload calls = [] := by
    rw [← payload]
    exact Frame.sealed_eq_iff kept.payloadLen short
  rw [← unchanged, Frame.fromBytes_toBytes, read]
  refine ⟨rfl, ⟨Except.ok.inj, congrArg Except.ok⟩, ?_⟩
  intro rest
  rw [encode_eq, List.nil_append, decode_encoded short, read]
  simp only [Prod.mk.injEq, Except.ok.injEq, Option.some.injEq, and_true]

namespace Sample
open FrameBuilder

/-- A request without a payload. -/
def requestCalls : List Call := [.withStreamId ⟨7⟩, .withFlags .OPEN, .asRequest, .withFin false]

/-- The calls of the crate's own test, with its payload `test-data`. -/
def testCalls : List Call :=
  [.withStreamId ⟨123⟩, .withOperationId ⟨456⟩, .withFlags .FIN, .withFrameType .data,
    .withPayload [116, 101, 115, 116, 45, 100, 97, 116, 97]]

end Sample

theorem built_frames_survive_iff_request :
    (FrameBuilder.built Sample.requestCalls).toBytes.bind Frame.fromBytes =
      .ok (FrameBuilder.built Sample.requestCalls) := by
  have defined : ∀ call ∈ Sample.requestCalls, call.Defined := by
    have flags : FrameFlags.OPEN.Defined := by decide
    simp only [Sample.requestCalls, List.forall_mem_cons]
    exact ⟨trivial, flags, trivial, trivial, List.forall_mem_nil _⟩
  exact (built_frames_survive_iff Sample.requestCalls defined (by decide)).2.1.mpr rfl

/-- The frame of the test is built with a zero in its length field and read back with a nine. -/
theorem built_frame_changes :
    (FrameBuilder.built Sample.testCalls).header.payloadLen = 0 ∧
    (FrameBuilder.built Sample.testCalls).toBytes.bind Frame.fromBytes =
      .ok (FrameBuilder.built Sample.testCalls).sealed ∧
    FrameCodec.new.decode (encode (FrameBuilder.built Sample.testCalls) []).2 =
      (.ok (some (FrameBuilder.built Sample.testCalls).sealed), .new, []) ∧
    (FrameBuilder.built Sample.testCalls).sealed.header.payloadLen = 9 ∧
    (FrameBuilder.built Sample.testCalls).sealed ≠ FrameBuilder.built Sample.testCalls := by
  decide

end Foctet.Core
