import Foctet.Core.CodecStream

/-! One direction of a transport, from the framed writer of one session to the
framed reader of the other. A link is judged by the frames in flight on it; the
queue of frames and the pipe of bytes in front of a decoder are both links. -/
namespace Foctet.Mux
open Foctet.Core Foctet.Lib

structure Link (L : Type) where
  empty : L
  /-- `framed_writer.send` -/
  write : L → Frame → L
  /-- the transport hands some of what it holds to the reader -/
  deliver : L → Nat → L
  /-- `framed_reader.next` on what has been handed over -/
  next : L → Option Frame × L
  inFlight : L → List Frame

/-- Nothing is lost, duplicated, reordered or made up, for frames that fit. -/
structure Link.Fifo {L : Type} (K : Link L) (fits : Frame → Prop) (sound : L → Prop) : Prop where
  empty : sound K.empty ∧ K.inFlight K.empty = []
  write : ∀ l f, sound l → fits f →
    sound (K.write l f) ∧ K.inFlight (K.write l f) = K.inFlight l ++ [f.wire]
  deliver : ∀ l n, sound l → sound (K.deliver l n) ∧ K.inFlight (K.deliver l n) = K.inFlight l
  next : ∀ l, sound l →
    sound (K.next l).2 ∧ K.inFlight l = (K.next l).1.toList ++ K.inFlight (K.next l).2

def frameLink : Link (List Frame) where
  empty := []
  write q f := q ++ [f.wire]
  deliver q _ := q
  next
    | [] => (none, [])
    | f :: q => (some f, q)
  inFlight q := q

theorem frameLink_fifo : frameLink.Fifo (fun _ => True) (fun _ => True) where
  empty := ⟨trivial, rfl⟩
  write _ _ _ _ := ⟨trivial, rfl⟩
  deliver _ _ _ := ⟨trivial, rfl⟩
  next q _ := by
    cases q with
    | nil => exact ⟨trivial, rfl⟩
    | cons f q => exact ⟨trivial, rfl⟩

/-- Bytes written and not yet handed over, then the reader's buffer and decoder. -/
structure BytePipe where
  pipe : List UInt8
  codec : FrameCodec
  buffer : List UInt8
  deriving DecidableEq, Repr

namespace BytePipe

def line (l : BytePipe) : ByteLine DecodeState UInt8 := ⟨l.pipe, l.codec.state, l.buffer⟩

/-- What the reader will make of all the bytes under way. -/
def settled (l : BytePipe) : Emitted DecodeState UInt8 Frame := frameFraming.settled l.line

/-- The bytes under way are whole frames from where the decoder stands. -/
def Aligned (l : BytePipe) : Prop := frameFraming.Aligned l.line

end BytePipe

def byteLink : Link BytePipe where
  empty := ⟨[], .new, []⟩
  write l f := { l with pipe := (encode f l.pipe).2 }
  deliver l n := { l with buffer := l.buffer ++ l.pipe.take n, pipe := l.pipe.drop n }
  next l :=
    match l.codec.decode l.buffer with
    | (.ok frame, codec, buffer) => (frame, { l with codec, buffer })
    | (.error _, codec, buffer) => (none, { l with codec, buffer })
  inFlight l := (drain l.codec (l.buffer ++ l.pipe)).frames

theorem byteLink_inFlight (l : BytePipe) : byteLink.inFlight l = l.settled.items := by
  simp only [byteLink, drain_eq_settle]
  rfl

theorem line_write (l : BytePipe) (f : Frame) :
    (byteLink.write l f).line = frameFraming.write l.line f := by
  simp only [BytePipe.line, byteLink, encode_eq]
  rfl

theorem line_next (l : BytePipe) : byteLink.next l =
    ((frameFraming.next l.line).1, ⟨(frameFraming.next l.line).2.pipe, ⟨(frameFraming.next l.line).2.state⟩,
      (frameFraming.next l.line).2.buffer⟩) := by
  simp only [byteLink, decode_eq_poll]
  rfl

theorem settled_deliver (l : BytePipe) (n : Nat) : (byteLink.deliver l n).settled = l.settled :=
  Framing.settled_hand (F := frameFraming) (l := l.line) n

theorem settled_next (l : BytePipe) :
    l.settled = ⟨(byteLink.next l).1.toList ++ (byteLink.next l).2.settled.items,
      (byteLink.next l).2.settled.state, (byteLink.next l).2.settled.rest⟩ := by
  rw [line_next]
  exact Framing.settled_next (F := frameFraming) (l := l.line)

theorem byteLink_fifo : byteLink.Fifo (fun f => f.payload.length < 2 ^ 32) BytePipe.Aligned where
  empty := by
    have start : byteLink.empty.settled = ⟨[], .readingHeader, []⟩ := frameFraming.settle_start
    rw [byteLink_inFlight, start]
    exact ⟨⟨congrArg Emitted.state start, congrArg Emitted.rest start⟩, rfl⟩
  write l f aligned fits := by
    have whole := Framing.settled_write aligned fits
    rw [byteLink_inFlight, byteLink_inFlight, BytePipe.Aligned, BytePipe.settled, Framing.Aligned,
      line_write, whole]
    exact ⟨⟨rfl, rfl⟩, rfl⟩
  deliver l n aligned := by
    have same := settled_deliver l n
    rw [byteLink_inFlight, byteLink_inFlight, same]
    exact ⟨⟨(congrArg Emitted.state same).trans aligned.1, (congrArg Emitted.rest same).trans aligned.2⟩, rfl⟩
  next l aligned := by
    have before := settled_next l
    have state := (congrArg Emitted.state before).symm.trans aligned.1
    have rest := (congrArg Emitted.rest before).symm.trans aligned.2
    rw [byteLink_inFlight, byteLink_inFlight, before]
    exact ⟨⟨state, rest⟩, rfl⟩

end Foctet.Mux
