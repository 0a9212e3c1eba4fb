import Foctet.Core.Codec
import Foctet.Lib.Channel
import Foctet.Mux.Peer
import Foctet.Mux.Split

/-! The halves of a stream as a byte reader and a byte writer: `AsyncRead` takes one frame
per poll off the stream's channel, `AsyncWrite` puts one frame per poll on the session's
event channel. Neither waits, and neither keeps anything between two polls. -/
namespace Foctet.Mux
open Foctet.Core Foctet.Lib

inductive ReadOutcome where
  | ready (bytes : List UInt8)
  | pending
  | panicked
  deriving DecidableEq, Repr

/-- `ReadBuf::put_slice` with so much room remaining: it asserts that the slice fits. -/
def putSlice (remaining : Nat) (bytes : List UInt8) : ReadOutcome :=
  if bytes.length ≤ remaining then .ready bytes else .panicked

/-- `LogicalStreamReader::poll_read` -/
def Halves.pollRead (h : Halves) (channel : Channel Frame) (remaining : Nat) :
    (Halves × Channel Frame) × ReadOutcome :=
  match channel.tryRecv with
  | .ok (frame, channel) =>
      ((h.setStateFromFlags frame.header.flags, channel), putSlice remaining frame.payload)
  | .error .empty => ((h, channel), .pending)
  | .error .disconnected => ((h.setState .closed, channel), .ready [])

/-- A reader with its channel, and what has been queued and read so far. -/
structure Reading where
  halves : Halves
  channel : Channel Frame
  queued : List Frame
  yielded : List UInt8
  deriving DecidableEq, Repr

inductive ReadStep where
  /-- the session sends the reader a frame, if there is room for it -/
  | queue (frame : Frame)
  /-- the session drops its sender -/
  | disconnect
  | poll (remaining : Nat)
  deriving DecidableEq, Repr

namespace Reading

def start (halves : Halves) (channel : Channel Frame) : Reading := ⟨halves, channel, channel.queue, []⟩

def poll (r : Reading) (remaining : Nat) : ReadOutcome := (r.halves.pollRead r.channel remaining).2

def step (r : Reading) : ReadStep → Reading
  | .queue frame =>
      match r.channel.senders, r.channel.trySend frame with
      | true, .ok channel => { r with channel, queued := r.queued ++ [frame] }
      | _, _ => r
  | .disconnect => { r with channel := { r.channel with senders := false } }
  | .poll remaining =>
      let polled := r.halves.pollRead r.channel remaining
      { r with
        halves := polled.1.1
        channel := polled.1.2
        yielded := r.yielded ++ match polled.2 with
          | .ready bytes => bytes
          | _ => [] }

def after (r : Reading) (steps : List ReadStep) : Reading := steps.foldl step r

/-- What a byte stream promises: no poll panics; what was read, followed by what is still
queued, is what was queued; and a poll is ready with no bytes only when the channel has
lost its senders and is drained. -/
structure Faithful (r : Reading) (steps : List ReadStep) : Prop where
  never_panics : ∀ pre remaining post, steps = pre ++ ReadStep.poll remaining :: post →
    (r.after pre).poll remaining ≠ .panicked
  bytes : (r.after steps).yielded ++ (r.after steps).channel.queue.flatMap Frame.payload =
    (r.after steps).queued.flatMap Frame.payload
  end_of_file : ∀ pre remaining post, steps = pre ++ ReadStep.poll remaining :: post →
    (r.after pre).poll remaining = .ready [] →
      (r.after pre).channel.senders = false ∧ (r.after pre).channel.queue = []

/-- The frame that a poll will take, if there is one, has some bytes and fits. -/
def Fits (r : Reading) (remaining : Nat) : Prop :=
  ∀ frame, r.channel.queue.head? = some frame →
    1 ≤ frame.payload.length ∧ frame.payload.length ≤ remaining

variable {r : Reading}

theorem pollRead_cons {h : Halves} {channel : Channel Frame} {frame : Frame} {queue : List Frame}
    (next : channel.queue = frame :: queue) (remaining : Nat) :
    h.pollRead channel remaining =
      ((h.setStateFromFlags frame.header.flags, { channel with queue }),
        putSlice remaining frame.payload) := by
  simp only [Halves.pollRead, Channel.tryRecv, next]

theorem pollRead_nil {h : Halves} {channel : Channel Frame} (next : channel.queue = [])
    (remaining : Nat) :
    h.pollRead channel remaining =
      if channel.senders then ((h, channel), .pending) else ((h.setState .closed, channel), .ready []) := by
  simp only [Halves.pollRead, Channel.tryRecv, next]
  cases channel.senders <;> rfl

/-- A poll that goes well is one whose frame fits. -/
theorem fits_iff (r : Reading) (remaining : Nat) :
    r.Fits remaining ↔ r.poll remaining ≠ .panicked ∧
      (r.poll remaining = .ready [] → r.channel.senders = false ∧ r.channel.queue = []) := by
  cases next : r.channel.queue with
  | nil =>
      refine iff_of_true ?_ ?_
      · intro frame there
        rw [next] at there
        cases there
      · rw [poll, pollRead_nil next]
        cases r.channel.senders <;> simp
  | cons frame queue =>
      simp only [Fits, poll, pollRead_cons next, next, List.head?_cons, Option.some.injEq, putSlice]
      split
      case isTrue fits =>
          simp [fits, Nat.one_le_iff_ne_zero]
      case isFalse long =>
          simp [long]

/-- Nothing is lost by a step, as long as a polled frame fits. -/
theorem step_bytes {s : ReadStep} (fits : ∀ remaining, s = .poll remaining → r.Fits remaining)
    (bytes : r.yielded ++ r.channel.queue.flatMap Frame.payload = r.queued.flatMap Frame.payload) :
    (r.step s).yielded ++ (r.step s).channel.queue.flatMap Frame.payload =
      (r.step s).queued.flatMap Frame.payload := by
  cases s with
  | queue frame =>
      rw [step]
      split
      case h_1 channel _ sent =>
          obtain ⟨-, -, rfl⟩ := Channel.trySend_eq_ok.mp sent
          simp only [Channel.push, List.flatMap_append, ← bytes, List.append_assoc]
      case h_2 => exact bytes
  | disconnect => exact bytes
  | poll remaining =>
      cases next : r.channel.queue with
      | nil =>
          rw [next] at bytes
          simp only [step, pollRead_nil next]
          cases r.channel.senders <;> simpa [next] using bytes
      | cons frame queue =>
          have fit := fits remaining rfl frame (by rw [next]; rfl)
          rw [next, List.flatMap_cons, ← List.append_assoc] at bytes
          simp only [step, pollRead_cons next, putSlice, if_pos fit.2]
          exact bytes

theorem after_bytes {steps : List ReadStep}
    (fits : ∀ pre remaining post, steps = pre ++ ReadStep.poll remaining :: post →
      (r.after pre).Fits remaining)
    (bytes : r.yielded ++ r.channel.queue.flatMap Frame.payload = r.queued.flatMap Frame.payload) :
    (r.after steps).yielded ++ (r.after steps).channel.queue.flatMap Frame.payload =
      (r.after steps).queued.flatMap Frame.payload := by
  induction steps generalizing r with
  | nil => exact bytes
  | cons s steps ih =>
      apply ih (r := r.step s)
      · intro pre remaining post split
        exact fits (s :: pre) remaining post (congrArg (s :: ·) split)
      · apply step_bytes _ bytes
        rintro remaining rfl
        exact fits [] remaining steps rfl

/-- Reading is faithful exactly if every frame that is polled has some bytes and fits the
buffer it is polled with. A longer payload panics, an empty one looks like the end. -/
theorem poll_read_faithful_iff (halves : Halves) (channel : Channel Frame) (steps : List ReadStep) :
    (start halves channel).Faithful steps ↔
      ∀ pre remaining post, steps = pre ++ ReadStep.poll remaining :: post →
        ((start halves channel).after pre).Fits remaining := by
  constructor
  · intro faithful pre remaining post split
    rw [fits_iff]
    exact ⟨faithful.never_panics pre remaining post split,
      faithful.end_of_file pre remaining post split⟩
  · intro fits
    constructor
    · intro pre remaining post split
      exact ((fits_iff _ _).mp (fits pre remaining post split)).1
    · exact after_bytes fits rfl
    · intro pre remaining post split
      exact ((fits_iff _ _).mp (fits pre remaining post split)).2

namespace Sample

def waiting (frames : List Frame) : Reading :=
  start (LogicalStream.split ⟨⟨0⟩, ⟨1⟩, .established, 0⟩) ⟨streamCapacity, frames, 0, true, true⟩

end Sample

/-- Two bytes for a buffer of one, and a frame without payload in front of another one. -/
theorem poll_read_panics_and_ends_early :
    (Sample.waiting [bytesFrame ⟨1⟩ [7, 8]]).poll 1 = .panicked ∧
    ¬ (Sample.waiting [bytesFrame ⟨1⟩ [7, 8]]).Faithful [.poll 1] ∧
    (Sample.waiting [closeRequestFrame ⟨1⟩, bytesFrame ⟨1⟩ [7]]).poll 1 = .ready [] ∧
    ((Sample.waiting [closeRequestFrame ⟨1⟩, bytesFrame ⟨1⟩ [7]]).after [.poll 1]).poll 1 = .ready [7] ∧
    ¬ (Sample.waiting [closeRequestFrame ⟨1⟩, bytesFrame ⟨1⟩ [7]]).Faithful [.poll 1] := by
  refine ⟨by decide, ?_, by decide, by decide, ?_⟩
  · intro faithful
    exact faithful.never_panics [] 1 [] rfl (by decide)
  · intro faithful
    exact absurd (faithful.end_of_file [] 1 [] rfl) (by decide)

end Reading

/-- `LogicalStreamWriter::poll_write`. Why `try_send` failed is not asked. -/
def LogicalStreamWriter.pollWrite (w : LogicalStreamWriter) (events : Channel StreamEvent)
    (buf : List UInt8) : Poll (Except IoError (Nat × Channel StreamEvent)) :=
  match events.trySend (.frame (bytesFrame w.streamId buf)) with
  | .ok events => .ready (.ok (buf.length, events))
  | .error _ => .ready (.error ⟨"Failed to send frame"⟩)

/-- One poll of the future that `send_bytes` returns, with a length added to the result so that
it has the type of `poll_write`. -/
def LogicalStreamWriter.pollSendBytes (w : LogicalStreamWriter) (events : Channel StreamEvent)
    (bytes : List UInt8) : Poll (Except IoError (Nat × Channel StreamEvent)) :=
  match events.pollSend (.frame (bytesFrame w.streamId bytes)) with
  | .ready (.ok events) => .ready (.ok (bytes.length, events))
  | .ready (.error ()) => .ready (.error ⟨"Failed to send frame"⟩)
  | .pending => .pending

/-- A program that writes some payloads one after another: the event channel, the payloads
left, the frames handed to the session, and whether a write has failed. -/
structure Writing where
  events : Channel StreamEvent
  todo : List (List UInt8)
  handed : List Frame
  failed : Bool
  deriving DecidableEq, Repr

/-- Who runs next: the program, or somebody else at the event channel. -/
inductive Turn where
  | write
  | elsewhere (e : Elsewhere StreamEvent)
  deriving DecidableEq, Repr

namespace Writing

section
variable (w : LogicalStreamWriter)
  (attempt : Channel StreamEvent → List UInt8 → Poll (Except IoError (Nat × Channel StreamEvent)))

def start (events : Channel StreamEvent) (payloads : List (List UInt8)) : Writing :=
  ⟨events, payloads, [], false⟩

/-- The payload that is written next; after a failure none is. -/
def next (s : Writing) : Option (List UInt8) := if s.failed then none else s.todo.head?

/-- A write that is pending is tried again at the next turn. -/
def turn (s : Writing) : Turn → Writing
  | .write =>
      match s.next with
      | none => s
      | some buf =>
          match attempt s.events buf with
          | .ready (.ok (_, events)) =>
              { s with events, todo := s.todo.tail, handed := s.handed ++ [bytesFrame w.streamId buf] }
          | .ready (.error _) => { s with failed := true }
          | .pending => s
  | .elsewhere e => { s with events := s.events.elsewhere e }

def after (s : Writing) (turns : List Turn) : Writing := turns.foldl (turn w attempt) s

end

variable {w : LogicalStreamWriter} {s : Writing}

/-- Both ways hand over the same frames, and a poll that fails has found no receiver. -/
structure Agrees (w : LogicalStreamWriter) (s : Writing) (turns : List Turn) : Prop where
  handed : (s.after w w.pollWrite turns).handed = (s.after w w.pollSendBytes turns).handed
  errors : ∀ pre post, turns = pre ++ Turn.write :: post →
    ∀ buf, (s.after w w.pollWrite pre).next = some buf →
    ∀ e, w.pollWrite (s.after w w.pollWrite pre).events buf = .ready (.error e) →
      (s.after w w.pollWrite pre).events.receiver = false

/-- A write finds a free slot, or nobody at the other end. -/
def Room (s : Writing) : Prop := s.next ≠ none → s.events.full = true → s.events.receiver = false

theorem pollSendBytes_eq {events : Channel StreamEvent}
    (room : events.full = true → events.receiver = false) (buf : List UInt8) :
    w.pollSendBytes events buf = w.pollWrite events buf := by
  unfold LogicalStreamWriter.pollSendBytes LogicalStreamWriter.pollWrite
  rw [Channel.pollSend_eq_trySend _ room]
  cases events.trySend (.frame (bytesFrame w.streamId buf)) <;> rfl

theorem pollWrite_fails_iff {events : Channel StreamEvent} {buf : List UInt8} :
    (∃ e, w.pollWrite events buf = .ready (.error e)) ↔
      events.receiver = false ∨ events.full = true := by
  rw [← Channel.trySend_fails_iff (x := .frame (bytesFrame w.streamId buf)),
    LogicalStreamWriter.pollWrite]
  cases events.trySend (.frame (bytesFrame w.streamId buf)) <;> simp

theorem turn_eq {t : Turn} (room : t = .write → s.Room) :
    s.turn w w.pollSendBytes t = s.turn w w.pollWrite t := by
  cases t with
  | elsewhere e => rfl
  | write =>
      simp only [turn]
      cases next : s.next with
      | none => rfl
      | some buf => simp only [pollSendBytes_eq (room rfl (by simp [next])) buf]

/-- As long as every write has room, both runs are the same. -/
theorem after_eq {turns : List Turn}
    (room : ∀ pre post, turns = pre ++ Turn.write :: post → (s.after w w.pollWrite pre).Room) :
    s.after w w.pollSendBytes turns = s.after w w.pollWrite turns := by
  induction turns generalizing s with
  | nil => rfl
  | cons t turns ih =>
      have first : s.turn w w.pollSendBytes t = s.turn w w.pollWrite t := by
        apply turn_eq
        rintro rfl
        exact room [] turns rfl
      simp only [after, List.foldl_cons, first]
      apply ih
      intro pre post split
      exact room (t :: pre) post (congrArg (t :: ·) split)

/-- `poll_write` agrees with `send_bytes` exactly if each of its calls finds a free slot in
the event channel, or the session's receiver gone. -/
theorem poll_write_agrees_iff (w : LogicalStreamWriter) (events : Channel StreamEvent)
    (payloads : List (List UInt8)) (turns : List Turn) :
    Agrees w (start events payloads) turns ↔
      ∀ pre post, turns = pre ++ Turn.write :: post →
        ((start events payloads).after w w.pollWrite pre).Room := by
  constructor
  · intro agrees pre post split some_payload full
    obtain ⟨buf, next⟩ := Option.ne_none_iff_exists'.mp some_payload
    obtain ⟨e, failed⟩ := pollWrite_fails_iff.mpr (.inr full)
    exact agrees.errors pre post split buf next e failed
  · intro room
    constructor
    · rw [after_eq room]
    · intro pre post split buf next e failed
      rcases pollWrite_fails_iff.mp ⟨e, failed⟩ with gone | full
      · exact gone
      · exact room pre post split (by simp [next]) full

namespace Sample

def writer : LogicalStreamWriter := ⟨⟨0⟩, ⟨1⟩⟩

/-- One payload more than the event channel has slots. -/
def filling : Writing := start (.new eventCapacity) (List.replicate 33 [7])

def turns : List Turn := List.replicate 33 Turn.write ++ [Turn.elsewhere .take, Turn.write]

end Sample

/-- One payload more than the channel has slots, with the actor draining one slot before
the last turn: `send_bytes` hands over all of them, `poll_write` has failed by then. -/
theorem poll_write_fails_when_full :
    (Sample.filling.after Sample.writer Sample.writer.pollWrite Sample.turns).handed.length = 32 ∧
    (Sample.filling.after Sample.writer Sample.writer.pollWrite Sample.turns).failed = true ∧
    (Sample.filling.after Sample.writer Sample.writer.pollWrite Sample.turns).events.receiver = true ∧
    (Sample.filling.after Sample.writer Sample.writer.pollSendBytes Sample.turns).handed.length = 33 ∧
    (Sample.filling.after Sample.writer Sample.writer.pollSendBytes Sample.turns).failed = false := by
  decide

end Writing
end Foctet.Mux
