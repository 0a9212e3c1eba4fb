import Foctet.Mux.Stream
import Foctet.Lib.Machine

/-! A logical stream and the two halves it can be split into. The halves share the
state behind a lock; the reader half has its own reading of the flags, without the
two close patterns. -/
namespace Foctet.Mux
open Foctet.Core Foctet.Lib

/-- `Arc<Mutex<StreamState>>`, held by both halves. -/
structure SharedState where
  value : StreamState
  poisoned : Bool
  deriving DecidableEq, Repr

namespace SharedState

def new (value : StreamState) : SharedState := ⟨value, false⟩

/-- `set_state` of either half. -/
def setState (m : SharedState) (state : StreamState) : SharedState :=
  if m.poisoned then m else { m with value := state }

/-- `state` of either half. -/
def state (m : SharedState) : StreamState := if m.poisoned then .closed else m.value

theorem state_eq {m : SharedState} (lock : m.poisoned = false) : m.state = m.value := by
  rw [state, lock, if_neg Bool.false_ne_true]

end SharedState

structure LogicalStreamWriter where
  sessionId : SessionId
  streamId : StreamId
  deriving DecidableEq, Repr

structure LogicalStreamReader where
  sessionId : SessionId
  streamId : StreamId
  frameReceiver : ChannelId
  deriving DecidableEq, Repr

structure Halves where
  writer : LogicalStreamWriter
  reader : LogicalStreamReader
  shared : SharedState
  deriving DecidableEq, Repr

def LogicalStream.split (s : LogicalStream) : Halves where
  writer := ⟨s.sessionId, s.streamId⟩
  reader := ⟨s.sessionId, s.streamId, s.frameReceiver⟩
  shared := .new s.state

namespace Halves

def setState (h : Halves) (state : StreamState) : Halves :=
  { h with shared := h.shared.setState state }

/-- `LogicalStreamWriter::close` -/
def close (h : Halves) : Halves × List StreamEvent :=
  let next := closeFrom h.writer.streamId h.shared.state
  (h.setState next.1, next.2)

/-- `LogicalStreamReader::set_state_from_flags` -/
def setStateFromFlags (h : Halves) (flags : FrameFlags) : Halves :=
  if flags.isOpenRequest then h.setState .openReceived
  else if flags.isOpenResponse then h.setState .established
  else if flags.isOpenReset then h.setState .reset
  else h

theorem setState_eq {h : Halves} (lock : h.shared.poisoned = false) (state : StreamState) :
    h.setState state = { h with shared := ⟨state, false⟩ } := by
  simp only [setState, SharedState.setState, lock, Bool.false_eq_true, if_false]

end Halves

inductive Half where
  | writer
  | reader
  deriving DecidableEq, Repr

/-- The calls that both forms of a stream offer: a frame is received, the stream is
closed, its state is asked for on one of the halves. -/
inductive Call where
  | recvFrame (frame : Frame)
  | close
  | state (half : Half)
  deriving DecidableEq, Repr

/-- What the caller and the session see of some calls. -/
structure Observed where
  states : List StreamState
  frames : List Frame
  events : List StreamEvent
  deriving DecidableEq, Repr

def Observed.append (o p : Observed) : Observed :=
  ⟨o.states ++ p.states, o.frames ++ p.frames, o.events ++ p.events⟩

theorem Observed.append_left_inj {o p q : Observed} : o.append p = o.append q ↔ p = q := by
  obtain ⟨states, frames, events⟩ := p
  obtain ⟨states', frames', events'⟩ := q
  simp only [append, mk.injEq, List.append_cancel_left_eq]

def LogicalStream.call (s : LogicalStream) : Call → LogicalStream × Observed
  | .recvFrame frame => (s.setStateFromFlags frame.header.flags, ⟨[], [frame], []⟩)
  | .close => (s.close.1, ⟨[], [], s.close.2⟩)
  | .state _ => (s, ⟨[s.state], [], []⟩)

def Halves.call (h : Halves) : Call → Halves × Observed
  | .recvFrame frame => (h.setStateFromFlags frame.header.flags, ⟨[], [frame], []⟩)
  | .close => (h.close.1, ⟨[], [], h.close.2⟩)
  | .state _ => (h, ⟨[h.shared.state], [], []⟩)

section calls
variable {σ : Type} (call : σ → Call → σ × Observed)

def observe : σ → List Call → Observed
  | _, [] => ⟨[], [], []⟩
  | s, c :: calls => (call s c).2.append (observe (call s c).1 calls)

def after (s : σ) (calls : List Call) : σ := calls.foldl (fun s c => (call s c).1) s

end calls

/-- The state an unsplit stream has taken from close flags that the reader half passed
over, since the last call of `close` or the last frame with an open pattern. -/
def passOver (missed : Option StreamState) : Call → Option StreamState
  | .recvFrame frame =>
      let flags := frame.header.flags
      if flags.isOpenRequest then none
      else if flags.isOpenResponse then none
      else if flags.isOpenReset then none
      else if flags.isCloseRequest then some .remoteClosing
      else if flags.isCloseResponse then some .closed
      else missed
  | .close => none
  | .state _ => missed

def passedOver (calls : List Call) : Option StreamState := calls.foldl passOver none

/-- A call that cannot tell a passed-over state from the shared one. -/
def Hidden (missed : Option StreamState) (shared : StreamState) : Call → Prop
  | .recvFrame _ => True
  | .state _ => ∀ u, missed = some u → shared = u
  | .close => ∀ u, missed = some u →
      shared = u ∨ u = .closed ∧ (shared = .localClosing ∨ shared = .reset)

/-- The halves are what the stream would be, but for what the reader has passed over. -/
structure Twin (missed : Option StreamState) (s : LogicalStream) (h : Halves) : Prop where
  streamId : h.writer.streamId = s.streamId
  lock : h.shared.poisoned = false
  state : s.state = missed.getD h.shared.value
  closing : ∀ u, missed = some u → u = .remoteClosing ∨ u = .closed

namespace Twin
variable {missed : Option StreamState} {s : LogicalStream} {h : Halves}

theorem of_split (s : LogicalStream) : Twin none s s.split :=
  ⟨rfl, rfl, rfl, nofun⟩

theorem shared_state (t : Twin missed s h) : h.shared.state = h.shared.value :=
  SharedState.state_eq t.lock

/-- Both forms are set to one state. -/
theorem set (t : Twin missed s h) (state : StreamState) :
    Twin none { s with state } (h.setState state) := by
  rw [Halves.setState_eq t.lock]
  exact ⟨t.streamId, rfl, rfl, nofun⟩

theorem recvFrame (t : Twin missed s h) (frame : Frame) :
    Twin (passOver missed (.recvFrame frame)) (s.setStateFromFlags frame.header.flags)
      (h.setStateFromFlags frame.header.flags) := by
  simp only [passOver, LogicalStream.setStateFromFlags, Halves.setStateFromFlags]
  split
  · exact t.set .openReceived
  · split
    · exact t.set .established
    · split
      · exact t.set .reset
      · -- the halves stay as they are; a close pattern is passed over
        split
        · exact ⟨t.streamId, t.lock, rfl, fun u same => .inl (Option.some.inj same).symm⟩
        · split
          · exact ⟨t.streamId, t.lock, rfl, fun u same => .inr (Option.some.inj same).symm⟩
          · exact t

/-- Closing from a passed-over state that stays hidden is closing from the shared one. -/
theorem closeFrom_eq (t : Twin missed s h) (hidden : Hidden missed h.shared.state .close) :
    closeFrom s.streamId s.state = closeFrom h.writer.streamId h.shared.state := by
  rw [t.streamId, t.state, t.shared_state]
  rw [t.shared_state] at hidden
  cases missed with
  | none => rfl
  | some u =>
      rcases hidden u rfl with same | ⟨rfl, closing | reset⟩
      · rw [same, Option.getD_some]
      · rw [closing]
        rfl
      · rw [reset]
        rfl

/-- A hidden call shows the same on both forms and keeps them in step. -/
theorem call (t : Twin missed s h) {c : Call} (hidden : Hidden missed h.shared.state c) :
    Twin (passOver missed c) (s.call c).1 (h.call c).1 ∧ (s.call c).2 = (h.call c).2 := by
  cases c with
  | recvFrame frame => exact ⟨t.recvFrame frame, rfl⟩
  | close =>
      have same := t.closeFrom_eq hidden
      simp only [LogicalStream.call, LogicalStream.close, Halves.call, Halves.close, same]
      exact ⟨t.set _, trivial⟩
  | state half =>
      refine ⟨t, ?_⟩
      have same : s.state = h.shared.state := by
        rw [t.state, t.shared_state]
        rw [t.shared_state] at hidden
        cases missed with
        | none => rfl
        | some u => exact (hidden u rfl).symm
      simp only [LogicalStream.call, Halves.call, same]

end Twin

/-- Every call of `close` sends something; only from `RemoteClosing` it sends two events. -/
theorem closeFrom_length (streamId : StreamId) (state : StreamState) :
    (closeFrom streamId state).2.length = if state = .remoteClosing then 2 else 1 := by
  cases state <;> rfl

theorem closeFrom_ne_remoteClosing (streamId : StreamId) (state : StreamState) :
    (closeFrom streamId state).1 ≠ .remoteClosing := by
  cases state <;> exact nofun

theorem count_close_le_events (s : LogicalStream) (calls : List Call) :
    calls.count .close ≤ (observe LogicalStream.call s calls).events.length := by
  induction calls generalizing s with
  | nil => exact Nat.le_refl 0
  | cons c calls ih =>
      rw [observe, Observed.append, List.length_append, List.count_cons]
      have later := ih (s.call c).1
      cases c with
      | recvFrame frame => simpa using Nat.le_add_left_of_le later
      | close =>
          have own : 1 ≤ (s.call .close).2.events.length := by
            change 1 ≤ (closeFrom s.streamId s.state).2.length
            rw [closeFrom_length]
            split <;> omega
          simp only [beq_self_eq_true, if_true]
          omega
      | state half => simpa using Nat.le_add_left_of_le later

/-- No call of the halves leads to `RemoteClosing`. -/
theorem Halves.call_ne_remoteClosing {h : Halves} (lock : h.shared.poisoned = false)
    (other : h.shared.value ≠ .remoteClosing) (c : Call) :
    (h.call c).1.shared.poisoned = false ∧ (h.call c).1.shared.value ≠ .remoteClosing := by
  have set (state : StreamState) (ne : state ≠ .remoteClosing) :
      (h.setState state).shared.poisoned = false ∧
        (h.setState state).shared.value ≠ .remoteClosing := by
    rw [setState_eq lock]
    exact ⟨rfl, ne⟩
  cases c with
  | recvFrame frame =>
      simp only [call, setStateFromFlags]
      split
      · exact set _ nofun
      · split
        · exact set _ nofun
        · split
          · exact set _ nofun
          · exact ⟨lock, other⟩
  | close => exact set _ (closeFrom_ne_remoteClosing _ _)
  | state half => exact ⟨lock, other⟩

theorem Halves.events_length {h : Halves} (lock : h.shared.poisoned = false)
    (other : h.shared.value ≠ .remoteClosing) (calls : List Call) :
    (observe call h calls).events.length = calls.count .close := by
  induction calls generalizing h with
  | nil => rfl
  | cons c calls ih =>
      obtain ⟨lock', other'⟩ := call_ne_remoteClosing lock other c
      rw [observe, Observed.append, List.length_append, List.count_cons, ih lock' other']
      cases c with
      | recvFrame frame => simp [call]
      | close =>
          have own : (h.call .close).2.events.length = 1 := by
            change (closeFrom h.writer.streamId h.shared.state).2.length = 1
            rw [closeFrom_length, SharedState.state_eq lock, if_neg other]
          simp only [beq_self_eq_true, if_true]
          omega
      | state half => simp [call]

namespace Twin
variable {missed : Option StreamState} {s : LogicalStream} {h : Halves}

/-- A call of `close` that is not hidden sends other events, whatever comes later: they
differ in their first event, or the unsplit stream sends one more in all. -/
theorem close_visible (t : Twin missed s h) (visible : ¬ Hidden missed h.shared.state .close)
    (calls : List Call) :
    (observe LogicalStream.call s (.close :: calls)).events ≠
      (observe Halves.call h (.close :: calls)).events := by
  have value := t.shared_state
  simp only [Hidden, value, not_forall, not_or, not_and] at visible
  obtain ⟨u, rfl, other, unlike⟩ := visible
  have whole : s.state = u := t.state
  have own : (observe LogicalStream.call s (.close :: calls)).events =
      (closeFrom s.streamId u).2 ++ (observe LogicalStream.call s.close.1 calls).events := by
    rw [← whole]
    rfl
  have halves : (observe Halves.call h (.close :: calls)).events =
      (closeFrom s.streamId h.shared.value).2 ++ (observe Halves.call h.close.1 calls).events := by
    rw [← t.streamId, ← value]
    rfl
  rw [own, halves]
  rcases t.closing u rfl with rfl | rfl
  · obtain ⟨lock, never⟩ := h.call_ne_remoteClosing t.lock other .close
    have more := count_close_le_events s.close.1 calls
    have exactly : (observe Halves.call h.close.1 calls).events.length = calls.count .close :=
      Halves.events_length lock never calls
    intro same
    have sizes := congrArg List.length same
    simp only [List.length_append, closeFrom_length, if_true, if_neg other] at sizes
    omega
  · cases state : h.shared.value with
    | init | openSent | openReceived | established | remoteClosing => exact nofun
    | localClosing | reset | closed => simp_all

theorem visible (t : Twin missed s h) {c : Call} (visible : ¬ Hidden missed h.shared.state c)
    (calls : List Call) :
    observe LogicalStream.call s (c :: calls) ≠ observe Halves.call h (c :: calls) := by
  intro same
  cases c with
  | recvFrame frame => exact visible trivial
  | close => exact t.close_visible visible calls (congrArg Observed.events same)
  | state half =>
      apply visible
      rintro u rfl
      have first := (List.cons.inj (congrArg Observed.states same)).1
      rw [← first, t.state, Option.getD_some]

/-- The two forms show the same exactly when every call is hidden at its turn. -/
theorem observe_iff (t : Twin missed s h) (calls : List Call) :
    observe LogicalStream.call s calls = observe Halves.call h calls ↔
      ∀ pre c post, calls = pre ++ c :: post →
        Hidden (pre.foldl passOver missed) (after Halves.call h pre).shared.state c := by
  induction calls generalizing missed s h with
  | nil => exact iff_of_true rfl (fun pre c post split => absurd split (by simp))
  | cons c calls ih =>
      by_cases hidden : Hidden missed h.shared.state c
      · obtain ⟨next, shown⟩ := t.call hidden
        rw [observe, observe, shown, Observed.append_left_inj, ih next, forall_cut_cons]
        exact (and_iff_right hidden).symm
      · refine iff_of_false (t.visible hidden calls) ?_
        intro all
        exact hidden (all [] c calls rfl)

end Twin

/-- Splitting a stream changes nothing that can be seen exactly if, whenever the state
is read or the stream is closed while the last close pattern received has been passed
over by the reader half, the shared state is already the one that pattern stands for;
closing after a close response sees no difference from `LocalClosing` and `Reset` either. -/
theorem split_agrees_iff (s : LogicalStream) (calls : List Call) :
    observe LogicalStream.call s calls = observe Halves.call s.split calls ↔
      ∀ pre c post, calls = pre ++ c :: post →
        Hidden (passedOver pre) (after Halves.call s.split pre).shared.state c :=
  (Twin.of_split s).observe_iff calls

/-- The peer's close request arrives and the stream is closed: the unsplit stream answers
it and reports itself closed, the halves only send a close request. -/
theorem split_misses_close_request :
    let s : LogicalStream := ⟨⟨0⟩, ⟨1⟩, .established, 0⟩
    let calls := [.recvFrame (closeRequestFrame ⟨1⟩), .close, .state .writer]
    observe LogicalStream.call s calls =
        ⟨[.closed], [closeRequestFrame ⟨1⟩], [.frame (closeRequestFrame ⟨1⟩), .closed ⟨1⟩]⟩ ∧
      observe Halves.call s.split calls =
        ⟨[.localClosing], [closeRequestFrame ⟨1⟩], [.frame (closeRequestFrame ⟨1⟩)]⟩ ∧
      observe LogicalStream.call s calls ≠ observe Halves.call s.split calls := by
  decide

end Foctet.Mux
