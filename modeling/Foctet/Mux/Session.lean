import Foctet.Mux.Stream
import Foctet.Lib.Table
import Foctet.Lib.Machine

/-! The session actor. A handler runs from one `await` to the next without
interruption; between two awaits other tasks may run. `handleIncomingFrame`,
`handleControlCommand` and `handleStreamEvent` go up to the first await, and
`resume` continues after it, so a run of the actor is a sequence of inputs. -/
namespace Foctet.Mux
open Foctet.Core Foctet.Lib

inductive SessionSide where
  | client
  | server
  deriving DecidableEq, Repr

/-- The identity of the `oneshot` a command is answered on. -/
abbrev ReplyId := Nat

inductive Command where
  | openStream (reply : ReplyId)
  | shutdown (reply : ReplyId)
  deriving DecidableEq, Repr

/-- What the actor is suspended on inside a handler. -/
inductive Await where
  /-- `sender.send(frame)` on the channel of a registered stream -/
  | forward (streamId : StreamId) (sender : ChannelId) (frame : Frame)
  /-- `stream_sender.send(logical_stream)` -/
  | announce (stream : LogicalStream)
  /-- `framed_writer.send(open_response_frame)` -/
  | respond (frame : Frame)
  /-- `framed_writer.send(open_frame)` -/
  | request (frame : Frame)
  /-- `framed_writer.send(frame)` for a stream event -/
  | write (frame : Frame)
  deriving DecidableEq, Repr

/-- Where the task of `run` is: at the top of the loop, inside a handler, or past the loop. -/
inductive Phase where
  | select
  | awaiting (w : Await)
  | left
  deriving DecidableEq, Repr

structure SessionActor where
  sessionId : SessionId
  nextStreamId : StreamId
  remoteClosed : Bool
  localClosed : Bool
  pendingStreams : Table StreamId ReplyId
  streams : Table StreamId ChannelId
  /-- the next channel the allocator of `mpsc::channel` gives out -/
  nextChannel : ChannelId
  phase : Phase

/-- What a step of the actor does to the world outside it. -/
inductive Effect where
  /-- a frame is put on a stream's channel -/
  | put (channel : ChannelId) (frame : Frame)
  /-- a new stream is put on the accept channel -/
  | accept (stream : LogicalStream)
  /-- a frame is handed to the framed writer -/
  | write (frame : Frame)
  /-- the caller of `open_stream` is answered -/
  | resolve (reply : ReplyId) (result : Except String LogicalStream)
  /-- the caller of `shutdown` is answered -/
  | acknowledge (reply : ReplyId)
  /-- the framed writer is closed -/
  | closeWriter

def openResponseFrame (streamId : StreamId) : Frame :=
  ((Frame.builder.withStreamId streamId).withFlags .openResponse).build

def openRequestFrame (streamId : StreamId) : Frame :=
  ((Frame.builder.withStreamId streamId).withFlags .openRequest).build

def firstStreamId : SessionSide → StreamId
  | .client => ⟨1⟩
  | .server => ⟨2⟩

namespace SessionActor

/-- The actor that `Session::spawn` starts. -/
def spawn (side : SessionSide) (sessionId : SessionId) : SessionActor :=
  { sessionId
    nextStreamId := firstStreamId side
    remoteClosed := false
    localClosed := false
    pendingStreams := .empty
    streams := .empty
    nextChannel := 0
    phase := .select }

/-- Past the loop: every stream's sender is dropped and the writer is closed. -/
def shutdown (a : SessionActor) : SessionActor × List Effect :=
  ({ a with streams := .empty, phase := .left }, [.closeWriter])

def handleIncomingFrame (a : SessionActor) (frame : Frame) : SessionActor × List Effect :=
  let streamId := frame.header.streamId
  match a.streams.get streamId with
  | some sender => ({ a with phase := .awaiting (.forward streamId sender frame) }, [])
  | none =>
      if frame.header.flags.isOpenRequest then
        let channel := a.nextChannel
        let logicalStream : LogicalStream := ⟨a.sessionId, streamId, .established, channel⟩
        ({ a with
            nextChannel := channel + 1
            streams := a.streams.insert streamId channel
            phase := .awaiting (.announce logicalStream) }, [])
      else if frame.header.flags.isOpenResponse then
        match a.pendingStreams.get streamId with
        | some sender =>
            let channel := a.nextChannel
            let logicalStream : LogicalStream := ⟨a.sessionId, streamId, .established, channel⟩
            ({ a with
                nextChannel := channel + 1
                pendingStreams := a.pendingStreams.remove streamId
                streams := a.streams.insert streamId channel },
              [.resolve sender (.ok logicalStream)])
        | none => (a, [])
      else if frame.header.flags.isOpenReset then
        match a.pendingStreams.get streamId with
        | some sender =>
            ({ a with pendingStreams := a.pendingStreams.remove streamId },
              [.resolve sender (.error ("Stream " ++ toString streamId.id ++ " rejected by remote"))])
        | none => (a, [])
      else (a, [])

def handleControlCommand (a : SessionActor) : Command → SessionActor × List Effect
  | .openStream reply =>
      let (streamId, nextStreamId) := a.nextStreamId.fetchAdd 1
      ({ a with
          nextStreamId
          pendingStreams := a.pendingStreams.insert streamId reply
          phase := .awaiting (.request (openRequestFrame streamId)) }, [])
  | .shutdown reply => ({ a with localClosed := true }, [.acknowledge reply])

def handleStreamEvent (a : SessionActor) : StreamEvent → SessionActor × List Effect
  | .frame frame => ({ a with phase := .awaiting (.write frame) }, [])
  | .closed streamId => ({ a with streams := a.streams.remove streamId }, [])
  | .error => (a, [])

/-- The handler goes on when what it awaited has succeeded or failed. A failed
write ends the loop, except for an open response, where it is only logged. -/
def resume (a : SessionActor) : Await → Bool → SessionActor × List Effect
  | .forward _ sender frame, true => ({ a with phase := .select }, [.put sender frame])
  | .forward streamId _ _, false =>
      ({ a with streams := a.streams.remove streamId, phase := .select }, [])
  | .announce stream, true =>
      ({ a with phase := .awaiting (.respond (openResponseFrame stream.streamId)) },
        [.accept stream])
  | .announce stream, false =>
      ({ a with
          streams := a.streams.remove stream.streamId
          phase := .awaiting (.respond (openResponseFrame stream.streamId)) }, [])
  | .respond frame, true => ({ a with phase := .select }, [.write frame])
  | .respond _, false => ({ a with phase := .select }, [])
  | .request frame, true => ({ a with phase := .select }, [.write frame])
  | .request _, false => a.shutdown
  | .write frame, true => ({ a with phase := .select }, [.write frame])
  | .write _, false => a.shutdown

/-- What the select loop or a suspended handler can be woken by. -/
inductive Input where
  | cancelled
  /-- `framed_reader.next()` is `Some(Ok(frame))` -/
  | frame (frame : Frame)
  /-- `framed_reader.next()` is `Some(Err(_))` -/
  | readError
  /-- `framed_reader.next()` is `None` -/
  | eof
  | command (command : Command)
  | event (event : StreamEvent)
  /-- the awaited operation ends, well or badly -/
  | resume (ok : Bool)
  deriving DecidableEq, Repr

/-- One iteration of the loop up to its first await. `None` from the reader does
not match `Some(frame_result)`: the branch is disabled and the loop goes on. -/
def select (a : SessionActor) : Input → Option (SessionActor × List Effect)
  | .cancelled => some a.shutdown
  | .frame frame => some (a.handleIncomingFrame frame)
  | .readError => some { a with remoteClosed := true }.shutdown
  | .eof => some (a, [])
  | .command command => some (a.handleControlCommand command)
  | .event event => some (a.handleStreamEvent event)
  | .resume _ => none

/-- One step of the task. -/
def step (a : SessionActor) (i : Input) : Option (SessionActor × List Effect) :=
  match a.phase, i with
  | .select, i => a.select i
  | .awaiting w, .resume ok => some (a.resume w ok)
  | _, _ => none

end SessionActor
end Foctet.Mux
