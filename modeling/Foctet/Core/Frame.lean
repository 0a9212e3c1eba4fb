import Foctet.Core.Stream
import Foctet.Lib.BigEndian

/-! Frames as the crate defines them: flags over one byte, the frame types with
their codes, headers, and the builder. -/
namespace Foctet.Core

/-- Fixed size of the frame header in bytes. -/
def frameHeaderLen : Nat := 14

/-- A `bitflags` value. Seven bits are defined, but a value may carry the eighth. -/
structure FrameFlags where
  bits : UInt8
  deriving DecidableEq, Repr

namespace FrameFlags

def EMPTY : FrameFlags := ⟨0b00000000⟩
def REQUEST : FrameFlags := ⟨0b00000001⟩
def RESPONSE : FrameFlags := ⟨0b00000010⟩
def FRAGMENTED : FrameFlags := ⟨0b00000100⟩
def FIN : FrameFlags := ⟨0b00001000⟩
def OPEN : FrameFlags := ⟨0b00010000⟩
def RESET : FrameFlags := ⟨0b00100000⟩
def CLOSE : FrameFlags := ⟨0b01000000⟩

/-- Every bit that some constant defines. -/
def all : UInt8 := 0b01111111

def fromBitsTruncate (bits : UInt8) : FrameFlags := ⟨bits &&& all⟩

def contains (f g : FrameFlags) : Bool := f.bits &&& g.bits == g.bits

def union (f g : FrameFlags) : FrameFlags := ⟨f.bits ||| g.bits⟩

def setFlag (f g : FrameFlags) : FrameFlags := f.union g

def unsetFlag (f g : FrameFlags) : FrameFlags := ⟨f.bits &&& ~~~ g.bits⟩

def new : FrameFlags := fromBitsTruncate EMPTY.bits

def openRequest : FrameFlags := (new.setFlag REQUEST).setFlag OPEN
def openResponse : FrameFlags := (new.setFlag RESPONSE).setFlag OPEN
def openReset : FrameFlags := ((new.setFlag RESPONSE).setFlag OPEN).setFlag RESET
def closeRequest : FrameFlags := (new.setFlag REQUEST).setFlag CLOSE

def isOpen (f : FrameFlags) : Bool := f.contains OPEN

def isOpenRequest (f : FrameFlags) : Bool := f == REQUEST.union OPEN
def isOpenResponse (f : FrameFlags) : Bool := f == RESPONSE.union OPEN
def isOpenReset (f : FrameFlags) : Bool := f == (RESPONSE.union OPEN).union RESET
def isCloseRequest (f : FrameFlags) : Bool := f == REQUEST.union CLOSE
def isCloseResponse (f : FrameFlags) : Bool := f == RESPONSE.union CLOSE

/-- The three handshake patterns carry the OPEN bit, so flags without it are none of them. -/
theorem not_handshake_of_not_open {f : FrameFlags} (h : f.isOpen = false) :
    f.isOpenRequest = false ∧ f.isOpenResponse = false ∧ f.isOpenReset = false := by
  refine ⟨?_, ?_, ?_⟩ <;>
  · rw [Bool.eq_false_iff]
    intro hs
    have he := eq_of_beq hs
    subst he
    exact absurd h (by decide)

/-- The handshake tests compare all the flags, so at most one of them succeeds. -/
theorem openRequest_only {f : FrameFlags} (request : f.isOpenRequest = true) :
    f.isOpenResponse = false ∧ f.isOpenReset = false := by
  rw [eq_of_beq request]
  decide

theorem openResponse_only {f : FrameFlags} (response : f.isOpenResponse = true) :
    f.isOpenRequest = false ∧ f.isOpenReset = false := by
  rw [eq_of_beq response]
  decide

theorem openReset_only {f : FrameFlags} (reset : f.isOpenReset = true) :
    f.isOpenRequest = false ∧ f.isOpenResponse = false := by
  rw [eq_of_beq reset]
  decide

/-- Dropping the undefined bit keeps the OPEN bit as it is. -/
theorem isOpen_fromBitsTruncate (f : FrameFlags) : (fromBitsTruncate f.bits).isOpen = f.isOpen := by
  have mask : all &&& OPEN.bits = OPEN.bits := by decide
  simp only [isOpen, contains, fromBitsTruncate, UInt8.and_assoc, mask]

end FrameFlags

inductive FrameType where
  | control
  | data
  | «meta»
  | fileMeta
  | fileData
  | contentRequest
  | reserved (code : UInt8)
  deriving DecidableEq, Repr

/-- `impl From<u8> for FrameType`. -/
def FrameType.fromU8 (value : UInt8) : FrameType :=
  if value = 0 then .control
  else if value = 1 then .data
  else if value = 2 then .«meta»
  else if value = 3 then .fileMeta
  else if value = 4 then .fileData
  else if value = 5 then .contentRequest
  else .reserved value

/-- `impl From<FrameType> for u8`. -/
def FrameType.toU8 : FrameType → UInt8
  | .control => 0
  | .data => 1
  | .«meta» => 2
  | .fileMeta => 3
  | .fileData => 4
  | .contentRequest => 5
  | .reserved other => other

/-- Every code is written back as it was read. -/
@[simp] theorem FrameType.toU8_fromU8 (value : UInt8) : (FrameType.fromU8 value).toU8 = value := by
  unfold fromU8
  repeat' split
  all_goals simp_all only [toU8]

structure FrameHeader where
  streamId : StreamId
  operationId : OperationId
  flags : FrameFlags
  frameType : FrameType
  payloadLen : UInt32
  deriving DecidableEq, Repr

def FrameHeader.empty : FrameHeader := ⟨⟨0⟩, ⟨0⟩, .EMPTY, .data, 0⟩

structure Frame where
  header : FrameHeader
  payload : List UInt8
  deriving DecidableEq, Repr

/-- The builder collects a header and a payload; its methods never touch `payload_len`. -/
structure FrameBuilder where
  header : FrameHeader
  payload : List UInt8
  deriving DecidableEq, Repr

namespace FrameBuilder

def new : FrameBuilder := ⟨.empty, []⟩

def withFin (b : FrameBuilder) (fin : Bool) : FrameBuilder :=
  { b with header := { b.header with
      flags := if fin then b.header.flags.setFlag .FIN else b.header.flags.unsetFlag .FIN } }

def withStreamId (b : FrameBuilder) (streamId : StreamId) : FrameBuilder :=
  { b with header := { b.header with streamId } }

def withOperationId (b : FrameBuilder) (operationId : OperationId) : FrameBuilder :=
  { b with header := { b.header with operationId } }

def withFlags (b : FrameBuilder) (flags : FrameFlags) : FrameBuilder :=
  { b with header := { b.header with flags } }

def withFrameType (b : FrameBuilder) (frameType : FrameType) : FrameBuilder :=
  { b with header := { b.header with frameType } }

def asRequest (b : FrameBuilder) : FrameBuilder :=
  { b with header := { b.header with flags := b.header.flags.setFlag .REQUEST } }

def asResponse (b : FrameBuilder) : FrameBuilder :=
  { b with header := { b.header with flags := b.header.flags.setFlag .RESPONSE } }

def asFragmented (b : FrameBuilder) : FrameBuilder :=
  { b with header := { b.header with flags := b.header.flags.setFlag .FRAGMENTED } }

def withPayload (b : FrameBuilder) (payload : List UInt8) : FrameBuilder := { b with payload }

def build (b : FrameBuilder) : Frame := ⟨b.header, b.payload⟩

end FrameBuilder

def Frame.builder : FrameBuilder := .new

/-- What a decoder makes of a frame that was encoded: the length it carries is
the payload's, the undefined flag bit is gone, and a reserved code below six is
read as the type that owns it. -/
def Frame.wire (f : Frame) : Frame :=
  { f with header := { f.header with
      flags := .fromBitsTruncate f.header.flags.bits
      frameType := .fromU8 f.header.frameType.toU8
      payloadLen := .ofNat f.payload.length } }

/-- A frame with the length field the encoder writes; nothing else differs. -/
def Frame.sealed (f : Frame) : Frame :=
  { f with header := { f.header with payloadLen := .ofNat f.payload.length } }

theorem Frame.wire_eq_sealed {f : Frame}
    (flags : .fromBitsTruncate f.header.flags.bits = f.header.flags)
    (kind : .fromU8 f.header.frameType.toU8 = f.header.frameType) : f.wire = f.sealed := by
  simp only [wire, sealed, flags, kind]

@[simp] theorem Frame.wire_streamId (f : Frame) : f.wire.header.streamId = f.header.streamId := rfl
@[simp] theorem Frame.wire_flags (f : Frame) :
    f.wire.header.flags = .fromBitsTruncate f.header.flags.bits := rfl

end Foctet.Core
