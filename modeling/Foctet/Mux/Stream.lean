import Foctet.Core.Frame

/-! Logical streams: their life cycle, the frames they build, and the events they
send to the session. -/
namespace Foctet.Mux
open Foctet.Core

inductive StreamState where
  | init
  | openSent
  | openReceived
  | established
  | localClosing
  | remoteClosing
  | closed
  | reset
  deriving DecidableEq, Repr

inductive StreamEvent where
  | frame (frame : Frame)
  | closed (streamId : StreamId)
  | error
  deriving DecidableEq, Repr

/-- The identity of one `mpsc` channel. Its sender sits in the session's map, its
receiver in the logical stream. -/
abbrev ChannelId := Nat

structure LogicalStream where
  sessionId : SessionId
  streamId : StreamId
  state : StreamState
  frameReceiver : ChannelId
  deriving DecidableEq, Repr

/-- The frame of `send_close_request`. -/
def closeRequestFrame (streamId : StreamId) : Frame :=
  ((Frame.builder.withStreamId streamId).withFlags .closeRequest).build

/-- The frame of `send_bytes`. -/
def bytesFrame (streamId : StreamId) (bytes : List UInt8) : Frame :=
  (((FrameBuilder.new.withStreamId streamId).withFrameType .data).withPayload bytes).build

/-- The frame `send_file` builds for one chunk. -/
def fileFrame (streamId : StreamId) (chunk : List UInt8) : Frame :=
  ((((Frame.builder.withStreamId streamId).withFin false).withFrameType .data).withPayload
    chunk).build

/-- The match on the state in `close`: the next state, and the events sent in order. -/
def closeFrom (streamId : StreamId) : StreamState → StreamState × List StreamEvent
  | .openSent | .openReceived | .established | .init =>
      (.localClosing, [.frame (closeRequestFrame streamId)])
  | .remoteClosing => (.closed, [.frame (closeRequestFrame streamId), .closed streamId])
  | .reset | .closed => (.closed, [.closed streamId])
  | .localClosing => (.closed, [.closed streamId])

/-- `LogicalStreamReader::set_state_from_flags`, on the state shared with the writer. -/
def readerStateFromFlags (state : StreamState) (flags : FrameFlags) : StreamState :=
  if flags.isOpenRequest then .openReceived
  else if flags.isOpenResponse then .established
  else if flags.isOpenReset then .reset
  else state

namespace LogicalStream

def close (s : LogicalStream) : LogicalStream × List StreamEvent :=
  ({ s with state := (closeFrom s.streamId s.state).1 }, (closeFrom s.streamId s.state).2)

/-- `LogicalStream::set_state_from_flags`; only the unsplit stream reads close flags. -/
def setStateFromFlags (s : LogicalStream) (flags : FrameFlags) : LogicalStream :=
  if flags.isOpenRequest then { s with state := .openReceived }
  else if flags.isOpenResponse then { s with state := .established }
  else if flags.isOpenReset then { s with state := .reset }
  else if flags.isCloseRequest then { s with state := .remoteClosing }
  else if flags.isCloseResponse then { s with state := .closed }
  else s

@[simp] theorem setStateFromFlags_streamId (s : LogicalStream) (flags : FrameFlags) :
    (s.setStateFromFlags flags).streamId = s.streamId := by
  unfold setStateFromFlags
  repeat' split
  all_goals rfl

@[simp] theorem setStateFromFlags_frameReceiver (s : LogicalStream) (flags : FrameFlags) :
    (s.setStateFromFlags flags).frameReceiver = s.frameReceiver := by
  unfold setStateFromFlags
  repeat' split
  all_goals rfl

end LogicalStream

/-- Everything `close` sends concerns its own stream and opens nothing. -/
theorem mem_closeFrom {streamId : StreamId} {state : StreamState} {e : StreamEvent}
    (h : e ∈ (closeFrom streamId state).2) :
    e = .frame (closeRequestFrame streamId) ∨ e = .closed streamId := by
  cases state <;> simp only [closeFrom, List.mem_cons, List.not_mem_nil, or_false] at h <;> tauto

theorem bytesFrame_plain (streamId : StreamId) (bytes : List UInt8) :
    (bytesFrame streamId bytes).header.flags.isOpen = false := by
  change FrameFlags.EMPTY.isOpen = false
  decide

/-- `with_fin(false)` on fresh flags changes nothing, so both ways of sending data
build the same frame. -/
theorem fileFrame_eq (streamId : StreamId) (chunk : List UInt8) :
    fileFrame streamId chunk = bytesFrame streamId chunk := by
  have unset : FrameFlags.EMPTY.unsetFlag .FIN = .EMPTY := by decide
  simp only [fileFrame, bytesFrame, Frame.builder, FrameBuilder.new, FrameBuilder.withStreamId,
    FrameBuilder.withFin, FrameBuilder.withFrameType, FrameBuilder.withPayload, FrameHeader.empty,
    unset, Bool.false_eq_true, if_false]

end Foctet.Mux
