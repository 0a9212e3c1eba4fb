import Foctet.Mux.Split

/-! The life cycle of one stream: which states a received frame can lead back to, and
what a side still sends once it has sent its close request. -/
namespace Foctet.Mux
open Foctet.Core Foctet.Lib

/-- The states of a stream that nobody has begun to close. -/
def StreamState.early : StreamState → Bool
  | .init | .openSent | .openReceived | .established => true
  | .localClosing | .remoteClosing | .closed | .reset => false

/-- A stream that is closing or ended does not become early again, and `Closed` is kept. -/
structure Forward (s t : StreamState) : Prop where
  late : s.early = false → t.early = false
  closed : s = .closed → t = .closed

namespace Forward

theorem refl (s : StreamState) : Forward s s := ⟨id, id⟩

theorem trans {s t u : StreamState} (first : Forward s t) (second : Forward t u) : Forward s u :=
  ⟨second.late ∘ first.late, second.closed ∘ first.closed⟩

/-- `close` never leads back. -/
theorem of_close (streamId : StreamId) (state : StreamState) :
    Forward state (closeFrom streamId state).1 := by
  constructor
  · intro _
    cases state <;> rfl
  · rintro rfl
    rfl

end Forward

/-- The state that a received frame sets on the unsplit stream, if it sets one. -/
def heard (flags : FrameFlags) : Option StreamState :=
  if flags.isOpenRequest then some .openReceived
  else if flags.isOpenResponse then some .established
  else if flags.isOpenReset then some .reset
  else if flags.isCloseRequest then some .remoteClosing
  else if flags.isCloseResponse then some .closed
  else none

/-- The same for the state shared by the halves. -/
def readerHeard (flags : FrameFlags) : Option StreamState :=
  if flags.isOpenRequest then some .openReceived
  else if flags.isOpenResponse then some .established
  else if flags.isOpenReset then some .reset
  else none

theorem LogicalStream.setStateFromFlags_eq (s : LogicalStream) (flags : FrameFlags) :
    s.setStateFromFlags flags = { s with state := (heard flags).getD s.state } := by
  unfold setStateFromFlags heard
  repeat' split
  all_goals rfl

/-- What a frame may carry, by the state it finds, so as not to lead back. -/
def Onward (state : StreamState) (flags : FrameFlags) : Prop :=
  (state.early = false → flags.isOpenRequest = false ∧ flags.isOpenResponse = false) ∧
  (state = .closed → flags.isOpenReset = false ∧ flags.isCloseRequest = false)

theorem forward_heard_iff (state : StreamState) (flags : FrameFlags) :
    Forward state ((heard flags).getD state) ↔ Onward state flags := by
  have fields (t : StreamState) : Forward state t ↔
      (state.early = false → t.early = false) ∧ (state = .closed → t = .closed) :=
    ⟨fun forward => ⟨forward.late, forward.closed⟩, fun both => ⟨both.1, both.2⟩⟩
  rw [fields, heard, Onward]
  -- one case per pattern of the flags; what is left is to look at the eight states
  repeat' split
  all_goals cases state <;> simp_all [StreamState.early]

/-- A call leads back only if it receives a frame that does. -/
theorem LogicalStream.forward_call_iff (s : LogicalStream) (c : Call) :
    Forward s.state (s.call c).1.state ↔
      ∀ frame, c = .recvFrame frame → Onward s.state frame.header.flags := by
  cases c with
  | recvFrame frame =>
      rw [call, setStateFromFlags_eq]
      simp only [Call.recvFrame.injEq, forall_eq']
      exact forward_heard_iff s.state frame.header.flags
  | close =>
      refine iff_of_true (Forward.of_close s.streamId s.state) ?_
      intro frame received
      cases received
  | state half =>
      refine iff_of_true (Forward.refl s.state) ?_
      intro frame received
      cases received

/-- The state of a stream never goes back exactly if no frame with an open pattern is
received once the stream is closing or has ended, and neither an open reset nor a close
request once it is `Closed`. -/
theorem life_cycle_forward_iff (s : LogicalStream) (calls : List Call) :
    (∀ pre mid post, calls = pre ++ mid ++ post →
      Forward (after LogicalStream.call s pre).state
        (after LogicalStream.call s (pre ++ mid)).state) ↔
      ∀ pre frame post, calls = pre ++ Call.recvFrame frame :: post →
        Onward (after LogicalStream.call s pre).state frame.header.flags := by
  have steps := foldl_related_iff (R := fun s t : LogicalStream => Forward s.state t.state)
    (fun s => .refl s.state) (fun _ _ _ => .trans) (fun s c => (s.call c).1) s calls
  simp only [LogicalStream.forward_call_iff] at steps
  refine steps.trans ⟨?_, ?_⟩
  · intro all pre frame post split
    exact all pre _ post split frame rfl
  · rintro all pre _ post split frame rfl
    exact all pre frame post split

namespace Sample

def stream : LogicalStream := ⟨⟨0⟩, ⟨1⟩, .established, 0⟩

def response : Frame := (Frame.builder.withFlags .openResponse).build

end Sample

/-- An established stream is closed, the peer repeats its open response, and the stream is
established again; a stream that has ended is closing again after a close request. -/
theorem life_cycle_goes_back :
    (after LogicalStream.call Sample.stream [.close]).state = .localClosing ∧
    (after LogicalStream.call Sample.stream [.close, .recvFrame Sample.response]).state =
      .established ∧
    (after LogicalStream.call Sample.stream [.close, .close]).state = .closed ∧
    (after LogicalStream.call Sample.stream
      [.close, .close, .recvFrame (closeRequestFrame ⟨1⟩)]).state = .remoteClosing := by
  decide

/-- What a program may call: besides the calls both forms have, the sending of data.
`poll_write` finds room in the event channel or not. -/
inductive Use where
  | call (c : Call)
  | sendBytes (bytes : List UInt8)
  | pollWrite (buf : List UInt8) (room : Bool)
  deriving DecidableEq, Repr

/-- The unsplit stream has no `send_bytes`: its caller builds the same frame and gives it
to `send_frame`. It has no `poll_write` either, so that nothing is sent by one. -/
def LogicalStream.use (s : LogicalStream) : Use → LogicalStream × List StreamEvent
  | .call c => ((s.call c).1, (s.call c).2.events)
  | .sendBytes bytes => (s, [.frame (bytesFrame s.streamId bytes)])
  | .pollWrite _ _ => (s, [])

/-- Neither way of sending looks at the state. -/
def Halves.use (h : Halves) : Use → Halves × List StreamEvent
  | .call c => ((h.call c).1, (h.call c).2.events)
  | .sendBytes bytes => (h, [.frame (bytesFrame h.writer.streamId bytes)])
  | .pollWrite buf room => (h, if room then [.frame (bytesFrame h.writer.streamId buf)] else [])

/-- The events sent to the session by some calls. -/
def sentBy {σ : Type} (use : σ → Use → σ × List StreamEvent) : σ → List Use → List StreamEvent
  | _, [] => []
  | s, u :: uses => (use s u).2 ++ sentBy use (use s u).1 uses

def framesOf (events : List StreamEvent) : List Frame :=
  events.filterMap fun
    | .frame f => some f
    | _ => none

/-- Behind a close request there is no frame of the stream. -/
def CloseIsLast (streamId : StreamId) (frames : List Frame) : Prop :=
  ∀ pre post, frames = pre ++ closeRequestFrame streamId :: post →
    ∀ f ∈ post, f.header.streamId ≠ streamId

/-- Whether `close` sends a close request. -/
def StreamState.requests : StreamState → Bool
  | .init | .openSent | .openReceived | .established | .remoteClosing => true
  | .localClosing | .closed | .reset => false

section due
-- the reading of the flags, and whether `poll_write` is offered
variable (hears : FrameFlags → Option StreamState) (polls : Bool) (streamId : StreamId)

/-- Whether the next `close` will send a close request: a received frame that sets the
state decides it, and a `close` leaves none to be sent. -/
def dueAfter (due : Bool) : Use → Bool
  | .call (.recvFrame frame) => ((hears frame.header.flags).map StreamState.requests).getD due
  | .call .close => false
  | _ => due

def framesSent (due : Bool) : Use → List Frame
  | .call .close => if due then [closeRequestFrame streamId] else []
  | .call _ => []
  | .sendBytes bytes => [bytesFrame streamId bytes]
  | .pollWrite buf room => if polls && room then [bytesFrame streamId buf] else []

def sentWhen : Bool → List Use → List Frame
  | _, [] => []
  | due, u :: uses => framesSent polls streamId due u ++ sentWhen (dueAfter hears due u) uses

/-- A call that sends no frame: no data, and no `close` while a close request is due. -/
def Quiet (due : Bool) : Use → Prop
  | .call .close => due = false
  | .call _ => True
  | .sendBytes _ => False
  | .pollWrite _ room => (polls && room) = false

/-- After a `close` that finds a close request due every call is quiet; a close request is
due again once a received frame has opened the stream, and until the next `close`. -/
def QuietAfterClose (due : Bool) (uses : List Use) : Prop :=
  ∀ pre post, uses = pre ++ Use.call .close :: post → pre.foldl (dueAfter hears) due = true →
    ∀ mid u rest, post = mid ++ u :: rest → Quiet polls (mid.foldl (dueAfter hears) false) u

variable {hears} {polls} {streamId}

theorem framesSent_eq_nil_iff {due : Bool} {u : Use} :
    framesSent polls streamId due u = [] ↔ Quiet polls due u := by
  cases u with
  | call c => cases c <;> simp [framesSent, Quiet]
  | sendBytes bytes => simp [framesSent, Quiet]
  | pollWrite buf room => simp [framesSent, Quiet]

theorem sentWhen_eq_nil_iff {due : Bool} {uses : List Use} :
    sentWhen hears polls streamId due uses = [] ↔
      ∀ mid u rest, uses = mid ++ u :: rest → Quiet polls (mid.foldl (dueAfter hears) due) u := by
  induction uses generalizing due with
  | nil => exact iff_of_true rfl (fun mid u rest split => absurd split (by simp))
  | cons u uses ih =>
      rw [sentWhen, List.append_eq_nil_iff, framesSent_eq_nil_iff, ih, forall_cut_cons]
      rfl

/-- All the frames are of the stream itself. -/
theorem framesSent_streamId {due : Bool} {u : Use} {f : Frame}
    (sent : f ∈ framesSent polls streamId due u) : f.header.streamId = streamId := by
  cases u with
  | call c =>
      cases c with
      | close =>
          rw [framesSent] at sent
          split at sent
          · rw [List.mem_singleton.mp sent]
            rfl
          · cases sent
      | recvFrame frame => cases sent
      | state half => cases sent
  | sendBytes bytes =>
      rw [List.mem_singleton.mp sent]
      rfl
  | pollWrite buf room =>
      rw [framesSent] at sent
      split at sent
      · rw [List.mem_singleton.mp sent]
        rfl
      · cases sent

theorem sentWhen_streamId {due : Bool} {uses : List Use} {f : Frame}
    (sent : f ∈ sentWhen hears polls streamId due uses) : f.header.streamId = streamId := by
  induction uses generalizing due with
  | nil => cases sent
  | cons u uses ih =>
      rcases List.mem_append.mp sent with now | later
      · exact framesSent_streamId now
      · exact ih later

theorem bytesFrame_ne_closeRequest (bytes : List UInt8) :
    closeRequestFrame streamId ≠ bytesFrame streamId bytes := by
  intro same
  have flags : FrameFlags.closeRequest = .EMPTY := congrArg (·.header.flags) same
  exact absurd flags (by decide)

/-- Frames in front that are no close request do not matter. -/
theorem closeIsLast_append {frames later : List Frame}
    (none_yet : closeRequestFrame streamId ∉ frames) :
    CloseIsLast streamId (frames ++ later) ↔ CloseIsLast streamId later := by
  constructor
  · intro last pre post split
    exact last (frames ++ pre) post (by rw [split, List.append_assoc])
  · intro last pre post split
    rcases List.append_eq_append_iff.mp split with ⟨mid, -, rest⟩ | ⟨mid, front, rest⟩
    · exact last mid post rest
    · cases mid with
      | nil => exact last [] post rest.symm
      | cons f mid =>
          obtain ⟨rfl, -⟩ := List.cons.inj rest
          exact absurd (front ▸ List.mem_append_right pre List.mem_cons_self) none_yet

/-- Behind the close request there must be nothing at all. -/
theorem closeIsLast_cons {later : List Frame} (own : ∀ f ∈ later, f.header.streamId = streamId) :
    CloseIsLast streamId (closeRequestFrame streamId :: later) ↔ later = [] := by
  constructor
  · intro last
    rw [List.eq_nil_iff_forall_not_mem]
    intro f member
    exact last [] later rfl f member (own f member)
  · rintro rfl pre post split f member
    have length := congrArg List.length split
    rw [List.length_append, List.length_cons, List.length_cons, List.length_nil] at length
    have some_frame := List.length_pos_of_mem member
    omega

/-- A call that sends a close request is a `close` that finds one due. -/
theorem closeRequest_not_mem_framesSent {due : Bool} {u : Use}
    (other : ¬ (u = .call .close ∧ due = true)) :
    closeRequestFrame streamId ∉ framesSent polls streamId due u := by
  cases u with
  | call c =>
      cases c with
      | close =>
          rw [framesSent, if_neg (fun asked => other ⟨rfl, asked⟩)]
          exact List.not_mem_nil
      | recvFrame frame => exact List.not_mem_nil
      | state half => exact List.not_mem_nil
  | sendBytes bytes => simp [framesSent, bytesFrame_ne_closeRequest]
  | pollWrite buf room =>
      rw [framesSent]
      split
      · simp [bytesFrame_ne_closeRequest]
      · exact List.not_mem_nil

theorem closeIsLast_sentWhen_iff {due : Bool} {uses : List Use} :
    CloseIsLast streamId (sentWhen hears polls streamId due uses) ↔
      QuietAfterClose hears polls due uses := by
  induction uses generalizing due with
  | nil =>
      refine iff_of_true (fun pre post split => absurd split (by simp [sentWhen])) ?_
      exact fun pre post split => absurd split (by simp)
  | cons u uses ih =>
      by_cases asked : u = .call .close ∧ due = true
      · obtain ⟨rfl, rfl⟩ := asked
        have request : sentWhen hears polls streamId true (.call .close :: uses) =
            closeRequestFrame streamId :: sentWhen hears polls streamId false uses := rfl
        rw [request, closeIsLast_cons (fun _ => sentWhen_streamId), sentWhen_eq_nil_iff]
        constructor
        · intro quiet pre post split asked
          cases pre with
          | nil =>
              cases split
              exact quiet
          | cons v pre =>
              -- a later `close` is quiet, so it finds nothing due
              cases split
              have unasked : pre.foldl (dueAfter hears) false = false :=
                quiet pre (.call .close) post rfl
              exact absurd (asked.symm.trans unasked) (by decide)
        · intro all
          exact all [] uses rfl rfl
      · rw [sentWhen, closeIsLast_append (closeRequest_not_mem_framesSent asked), ih]
        constructor
        · intro later pre post split found
          cases pre with
          | nil =>
              cases split
              exact absurd ⟨rfl, found⟩ asked
          | cons v pre =>
              cases split
              exact later pre post rfl found
        · intro all pre post split
          exact all (u :: pre) post (congrArg (u :: ·) split)

end due

theorem framesOf_append (es fs : List StreamEvent) :
    framesOf (es ++ fs) = framesOf es ++ framesOf fs := List.filterMap_append

/-- The frames among the events of a `close`, and what it leaves due. -/
theorem framesOf_closeFrom (streamId : StreamId) (state : StreamState) :
    framesOf (closeFrom streamId state).2 =
        (if state.requests then [closeRequestFrame streamId] else []) ∧
      (closeFrom streamId state).1.requests = false := by
  cases state <;> exact ⟨rfl, rfl⟩

theorem requests_getD (set : Option StreamState) (state : StreamState) :
    (set.getD state).requests = (set.map StreamState.requests).getD state.requests := by
  cases set <;> rfl

theorem LogicalStream.use_eq (s : LogicalStream) (u : Use) :
    (s.use u).1.streamId = s.streamId ∧
      (s.use u).1.state.requests = dueAfter heard s.state.requests u ∧
      framesOf (s.use u).2 = framesSent false s.streamId s.state.requests u := by
  cases u with
  | call c =>
      cases c with
      | recvFrame frame =>
          rw [use, call, setStateFromFlags_eq]
          exact ⟨rfl, requests_getD _ _, rfl⟩
      | close =>
          obtain ⟨frames, settled⟩ := framesOf_closeFrom s.streamId s.state
          exact ⟨rfl, settled, frames⟩
      | state half => exact ⟨rfl, rfl, rfl⟩
  | sendBytes bytes => exact ⟨rfl, rfl, rfl⟩
  | pollWrite buf room => exact ⟨rfl, rfl, rfl⟩

theorem LogicalStream.sent_eq (s : LogicalStream) (uses : List Use) :
    framesOf (sentBy use s uses) = sentWhen heard false s.streamId s.state.requests uses := by
  induction uses generalizing s with
  | nil => rfl
  | cons u uses ih =>
      obtain ⟨same, due, frames⟩ := s.use_eq u
      rw [sentBy, framesOf_append, ih, same, due, frames, sentWhen]

theorem Halves.setStateFromFlags_eq {h : Halves} (lock : h.shared.poisoned = false)
    (flags : FrameFlags) :
    h.setStateFromFlags flags =
      { h with shared := ⟨(readerHeard flags).getD h.shared.value, false⟩ } := by
  unfold setStateFromFlags readerHeard
  repeat' split
  case isFalse => simp only [Option.getD_none, ← lock]
  all_goals exact setState_eq lock _

theorem Halves.use_eq {h : Halves} (lock : h.shared.poisoned = false) (u : Use) :
    (h.use u).1.writer.streamId = h.writer.streamId ∧ (h.use u).1.shared.poisoned = false ∧
      (h.use u).1.shared.value.requests = dueAfter readerHeard h.shared.value.requests u ∧
      framesOf (h.use u).2 = framesSent true h.writer.streamId h.shared.value.requests u := by
  cases u with
  | call c =>
      cases c with
      | recvFrame frame =>
          rw [use, call, setStateFromFlags_eq lock]
          exact ⟨rfl, rfl, requests_getD _ _, rfl⟩
      | close =>
          obtain ⟨frames, settled⟩ := framesOf_closeFrom h.writer.streamId h.shared.value
          rw [use, call, close, SharedState.state_eq lock, setState_eq lock]
          exact ⟨rfl, rfl, settled, frames⟩
      | state half => exact ⟨rfl, lock, rfl, rfl⟩
  | sendBytes bytes => exact ⟨rfl, lock, rfl, rfl⟩
  | pollWrite buf room =>
      refine ⟨rfl, lock, rfl, ?_⟩
      cases room <;> rfl

theorem Halves.sent_eq {h : Halves} (lock : h.shared.poisoned = false) (uses : List Use) :
    framesOf (sentBy use h uses) =
      sentWhen readerHeard true h.writer.streamId h.shared.value.requests uses := by
  induction uses generalizing h with
  | nil => rfl
  | cons u uses ih =>
      obtain ⟨same, lock', due, frames⟩ := use_eq lock u
      rw [sentBy, framesOf_append, ih lock', same, due, frames, sentWhen]

/-- The close request is the last frame of a side exactly if, after a `close` that sends
one, the program sends no data and calls `close` no more while a frame received since the
last `close` has opened the stream again. Open requests and open responses do that, and on
the unsplit stream close requests. -/
theorem close_request_last_iff (s : LogicalStream) (uses : List Use) :
    (CloseIsLast s.streamId (framesOf (sentBy LogicalStream.use s uses)) ↔
      QuietAfterClose heard false s.state.requests uses) ∧
    (CloseIsLast s.streamId (framesOf (sentBy Halves.use s.split uses)) ↔
      QuietAfterClose readerHeard true s.state.requests uses) := by
  constructor
  · rw [LogicalStream.sent_eq]
    exact closeIsLast_sentWhen_iff
  · rw [Halves.sent_eq rfl]
    exact closeIsLast_sentWhen_iff

/-- Data and a second close request behind the first: a `send_bytes` after `close`, and two
calls of `close` with an open response between them. -/
theorem frames_after_close_request :
    framesOf (sentBy LogicalStream.use Sample.stream [.call .close, .sendBytes [7]]) =
      [closeRequestFrame ⟨1⟩, bytesFrame ⟨1⟩ [7]] ∧
    framesOf (sentBy Halves.use Sample.stream.split [.call .close, .pollWrite [7] true]) =
      [closeRequestFrame ⟨1⟩, bytesFrame ⟨1⟩ [7]] ∧
    framesOf (sentBy Halves.use Sample.stream.split
        [.call .close, .call (.recvFrame Sample.response), .call .close]) =
      [closeRequestFrame ⟨1⟩, closeRequestFrame ⟨1⟩] ∧
    ¬ CloseIsLast ⟨1⟩ [closeRequestFrame ⟨1⟩, bytesFrame ⟨1⟩ [7]] ∧
    ¬ CloseIsLast ⟨1⟩ [closeRequestFrame ⟨1⟩, closeRequestFrame ⟨1⟩] := by
  refine ⟨by decide, by decide, by decide, ?_, ?_⟩
  · intro last
    exact last [] [_] rfl _ List.mem_cons_self rfl
  · intro last
    exact last [] [_] rfl _ List.mem_cons_self rfl

end Foctet.Mux
