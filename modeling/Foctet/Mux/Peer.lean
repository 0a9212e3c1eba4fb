import Foctet.Mux.SessionSteps

/-! One party: a session actor with the channels around it and the application
that holds its streams. The last fields are history: they are written and never
read by a step. -/
namespace Foctet.Mux
open Foctet.Core Foctet.Lib

/-- The capacities given to `mpsc::channel`. -/
def eventCapacity : Nat := 32
def controlCapacity : Nat := 8
def acceptCapacity : Nat := 32
def streamCapacity : Nat := 32

/-- A logical stream in the hands of the application, whole or split, with the
events that a call of `close`, or a send that waits for room, has still to send. -/
structure Handle where
  stream : LogicalStream
  split : Bool
  todo : List StreamEvent
  deriving DecidableEq, Repr

/-- What set the state of one end, in order: a call of `close`, a received close request, or a
received frame with another flag that `set_state_from_flags` reads. -/
inductive CloseMark where
  | called
  | requested
  | foreign (state : StreamState)
  deriving DecidableEq, Repr

/-- The state of a stream after `recv_frame`; the reader half knows no close flags. -/
def Handle.afterRecv (h : Handle) (flags : FrameFlags) : Handle :=
  if h.split then
    { h with stream := { h.stream with state := readerStateFromFlags h.stream.state flags } }
  else { h with stream := h.stream.setStateFromFlags flags }

/-- The mark a received frame leaves. -/
def markRecv (flags : FrameFlags) : List CloseMark :=
  if flags.isOpenRequest then [.foreign .openReceived]
  else if flags.isOpenResponse then [.foreign .established]
  else if flags.isOpenReset then [.foreign .reset]
  else if flags.isCloseRequest then [.requested]
  else if flags.isCloseResponse then [.foreign .closed]
  else []

/-- An event frame taken up by the actor: the stream whose handle sent it, and its
place among all frames the actor writes. -/
structure Sent where
  stream : StreamId
  place : Nat
  frame : Frame
  deriving DecidableEq, Repr

structure Peer where
  actor : SessionActor
  commands : List Command
  /-- the event channel; each event with the stream whose handle sent it -/
  events : List (StreamId × StreamEvent)
  accepts : List LogicalStream
  queue : ChannelId → List Frame
  /-- whether a channel's receiver has not been dropped -/
  alive : ChannelId → Bool
  replies : Table ReplyId (Except String LogicalStream)
  nextReply : ReplyId
  handles : Table ChannelId Handle
  inputs : List SessionActor.Input
  effects : List Effect
  /-- what `fetch_add` returned for each `OpenStream` command handled -/
  allocated : List StreamId
  submitted : List (StreamId × StreamEvent)
  sent : List Sent
  received : ChannelId → List Frame
  /-- what `open_stream` and `accept_stream` have returned -/
  returned : List LogicalStream
  taken : List LogicalStream
  marks : ChannelId → List CloseMark

/-- What the application may hand to a stream besides closing it. -/
inductive Submission where
  | frame (frame : Frame)
  | bytes (bytes : List UInt8)
  | file (chunk : List UInt8)
  | event (event : StreamEvent)
  deriving DecidableEq, Repr

def Submission.toEvent (streamId : StreamId) : Submission → StreamEvent
  | .frame f => .frame f
  | .bytes payload => .frame (bytesFrame streamId payload)
  | .file chunk => .frame (fileFrame streamId chunk)
  | .event e => e

/-- The frames handed to the framed writer, in order. -/
def writes (effects : List Effect) : List Frame :=
  effects.filterMap fun
    | .write f => some f
    | _ => none

theorem writes_append (es fs : List Effect) : writes (es ++ fs) = writes es ++ writes fs :=
  List.filterMap_append

namespace Peer

def spawn (side : SessionSide) (sessionId : SessionId) : Peer where
  actor := .spawn side sessionId
  commands := []
  events := []
  accepts := []
  queue _ := []
  alive _ := true
  replies := .empty
  nextReply := 0
  handles := .empty
  inputs := []
  effects := []
  allocated := []
  submitted := []
  sent := []
  received _ := []
  returned := []
  taken := []
  marks _ := []

/-- What an effect of the actor does to the channels around it. -/
def apply (p : Peer) : Effect → Peer
  | .put c f => { p with queue := fun d => if d = c then p.queue d ++ [f] else p.queue d }
  | .accept s => { p with accepts := p.accepts ++ [s] }
  | .resolve reply result => { p with replies := p.replies.insert reply result }
  | .write _ | .acknowledge _ | .closeWriter => p

/-- One step of the actor's task inside its party. -/
def take (p : Peer) (x : SessionActor.Input) : Option Peer :=
  (p.actor.step x).map fun r =>
    { r.2.foldl apply p with
      actor := r.1
      inputs := p.inputs ++ [x]
      effects := p.effects ++ r.2 }

/-- How what the actor awaits ends, if it can end now. Sending to a full channel
waits; sending to a channel whose receiver is gone fails. Writing does not fail. -/
def outcome (p : Peer) : Option Bool :=
  match p.actor.phase with
  | .awaiting (.forward _ c _) =>
      if p.alive c then if (p.queue c).length < streamCapacity then some true else none
      else some false
  | .awaiting (.announce _) => if p.accepts.length < acceptCapacity then some true else none
  | .awaiting (.respond _) | .awaiting (.request _) | .awaiting (.write _) => some true
  | .select | .left => none

inductive Act where
  /-- the actor takes the next command, the next event, ends an await, or is cancelled -/
  | command
  | event
  | resume
  | cancel
  /-- the application calls on its session -/
  | openStream
  | shutdown
  | openReturns (reply : ReplyId)
  | acceptStream
  /-- the application uses a stream -/
  | split (c : ChannelId)
  | submit (c : ChannelId) (what : Submission)
  | offer (c : ChannelId) (what : Submission)
  | close (c : ChannelId)
  | push (c : ChannelId)
  | recv (c : ChannelId)
  | drop (c : ChannelId)
  | dropReader (c : ChannelId)
  deriving DecidableEq, Repr

/-- The event enters the event channel, if there is room and someone to receive it. -/
def enqueue (p : Peer) (streamId : StreamId) (event : StreamEvent) : Option Peer :=
  if p.actor.phase ≠ .left ∧ p.events.length < eventCapacity then
    some { p with
      events := p.events ++ [(streamId, event)]
      submitted := p.submitted ++ [(streamId, event)] }
  else none

/-- An event frame is written next, behind the frames written so far. -/
def noteSent (p : Peer) (streamId : StreamId) : StreamEvent → List Sent
  | .frame f => p.sent ++ [⟨streamId, (writes p.effects).length, f⟩]
  | .closed _ | .error => p.sent

def noteAllocated (p : Peer) : Command → List StreamId
  | .openStream _ => p.allocated ++ [(p.actor.nextStreamId.fetchAdd 1).1]
  | .shutdown _ => p.allocated

def takeCommand (p : Peer) : Option Peer :=
  match p.commands with
  | [] => none
  | command :: rest =>
      { p with commands := rest, allocated := p.noteAllocated command }.take (.command command)

def takeEvent (p : Peer) : Option Peer :=
  match p.events with
  | [] => none
  | (streamId, event) :: rest =>
      { p with events := rest, sent := p.noteSent streamId event }.take (.event event)

/-- `open_stream` up to its wait for the reply, and `shutdown` up to the same point. -/
def callControl (p : Peer) (command : ReplyId → Command) : Option Peer :=
  if p.actor.phase ≠ .left ∧ p.commands.length < controlCapacity then
    some { p with commands := p.commands ++ [command p.nextReply], nextReply := p.nextReply + 1 }
  else none

/-- `open_stream` past its wait. -/
def openReturns (p : Peer) (reply : ReplyId) : Option Peer :=
  match p.replies.get reply with
  | none => none
  | some (.error _) => some { p with replies := p.replies.remove reply }
  | some (.ok s) =>
      some { p with
        replies := p.replies.remove reply
        handles := p.handles.insert s.frameReceiver ⟨s, false, []⟩
        returned := p.returned ++ [s] }

def acceptStream (p : Peer) : Option Peer :=
  match p.accepts with
  | [] => none
  | s :: rest =>
      some { p with
        accepts := rest
        handles := p.handles.insert s.frameReceiver ⟨s, false, []⟩
        taken := p.taken ++ [s] }

def split (p : Peer) (c : ChannelId) (h : Handle) : Option Peer :=
  if h.todo = [] then some { p with handles := p.handles.insert c { h with split := true } } else none

def submit (p : Peer) (h : Handle) (what : Submission) : Option Peer :=
  if h.todo = [] then p.enqueue h.stream.streamId (what.toEvent h.stream.streamId) else none

/-- A send that finds the event channel full waits there with its event. -/
def offer (p : Peer) (c : ChannelId) (h : Handle) (what : Submission) : Option Peer :=
  if h.todo = [] ∧ p.actor.phase ≠ .left ∧ ¬ p.events.length < eventCapacity then
    some { p with
      handles := p.handles.insert c { h with todo := [what.toEvent h.stream.streamId] } }
  else none

/-- `close` sets the state at once; its events follow as the channel has room. -/
def close (p : Peer) (c : ChannelId) (h : Handle) : Option Peer :=
  if h.todo = [] then
    some { p with
      handles := p.handles.insert c { h with stream := h.stream.close.1, todo := h.stream.close.2 }
      marks := fun d => if d = c then p.marks d ++ [.called] else p.marks d }
  else none

/-- The next event of a call that waits. Once the actor is gone the send fails and
the call ends there. -/
def push (p : Peer) (c : ChannelId) (h : Handle) : Option Peer :=
  match h.todo with
  | [] => none
  | event :: todo =>
      if p.actor.phase = .left then
        some { p with handles := p.handles.insert c { h with todo := [] } }
      else
        (p.enqueue h.stream.streamId event).map fun p' =>
          { p' with handles := p'.handles.insert c { h with todo } }

/-- `recv_frame`. A whole stream is borrowed by a call that has not ended. -/
def recv (p : Peer) (c : ChannelId) (h : Handle) : Option Peer :=
  match p.queue c with
  | [] => none
  | f :: rest =>
      if p.alive c = true ∧ (h.split = true ∨ h.todo = []) then
        some { p with
          queue := fun d => if d = c then rest else p.queue d
          handles := p.handles.insert c (h.afterRecv f.header.flags)
          received := fun d => if d = c then p.received d ++ [f] else p.received d
          marks := fun d => if d = c then p.marks d ++ markRecv f.header.flags else p.marks d }
      else none

/-- The receiver of a channel goes away. -/
def disconnect (p : Peer) (c : ChannelId) : Peer :=
  { p with alive := fun d => if d = c then false else p.alive d }

def drop (p : Peer) (c : ChannelId) : Peer :=
  { p.disconnect c with handles := p.handles.remove c }

/-- Only a split stream can lose its reader and keep its writer. -/
def dropReader (p : Peer) (c : ChannelId) (h : Handle) : Option Peer :=
  if h.split = true then some (p.disconnect c) else none

def step (p : Peer) : Act → Option Peer
  | .command => p.takeCommand
  | .event => p.takeEvent
  | .resume => p.outcome.bind fun ok => p.take (.resume ok)
  | .cancel => p.take .cancelled
  | .openStream => p.callControl .openStream
  | .shutdown => p.callControl .shutdown
  | .openReturns reply => p.openReturns reply
  | .acceptStream => p.acceptStream
  | .split c => (p.handles.get c).bind fun h => p.split c h
  | .submit c what => (p.handles.get c).bind fun h => p.submit h what
  | .offer c what => (p.handles.get c).bind fun h => p.offer c h what
  | .close c => (p.handles.get c).bind fun h => p.close c h
  | .push c => (p.handles.get c).bind fun h => p.push c h
  | .recv c => (p.handles.get c).bind fun h => p.recv c h
  | .drop c => (p.handles.get c).map fun _ => p.drop c
  | .dropReader c => (p.handles.get c).bind fun h => p.dropReader c h

end Peer
end Foctet.Mux
