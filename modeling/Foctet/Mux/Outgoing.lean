import Foctet.Mux.Handles

/-! What a side sends. Each frame submitted on a stream waits in the event channel, is
being written, or is on the wire, in that order; and on the wire it comes behind the
frame that opened or accepted its stream. -/
namespace Foctet.Mux
open Foctet.Core Foctet.Lib
open SessionActor (Input Composed Ledger acceptedIds resolvedIds)

/-- Neither an open request nor an open response. -/
def isData (f : Frame) : Bool :=
  !(f.header.flags.isOpenRequest || f.header.flags.isOpenResponse)

def dataOn (i : StreamId) (frames : List Frame) : List Frame :=
  frames.filter fun f => f.header.streamId == i && isData f

/-- The frames among events of one stream. -/
def framesOn (i : StreamId) (events : List (StreamId × StreamEvent)) : List Frame :=
  events.filterMap fun
    | (j, .frame f) => if j = i then some f else none
    | _ => none

def writingOn (i : StreamId) (a : SessionActor) : List Frame :=
  match a.phase with
  | .awaiting (.write f) => if f.header.streamId = i then [f] else []
  | _ => []

def openIds (frames : List Frame) : List StreamId := requestIds frames ++ responseIds frames

theorem dataOn_append (i : StreamId) (fs gs : List Frame) :
    dataOn i (fs ++ gs) = dataOn i fs ++ dataOn i gs := List.filter_append ..

theorem framesOn_append (i : StreamId) (xs ys : List (StreamId × StreamEvent)) :
    framesOn i (xs ++ ys) = framesOn i xs ++ framesOn i ys := List.filterMap_append

theorem openIds_subset {fs gs : List Frame} (h : fs <+: gs) : openIds fs ⊆ openIds gs := by
  intro i member
  rcases List.mem_append.mp member with member | member
  · exact List.mem_append_left _ ((h.filterMap _).subset member)
  · exact List.mem_append_right _ ((h.filterMap _).subset member)

theorem isData_wire {f : Frame} (h : f.header.flags.isOpen = false) : isData f.wire = true := by
  have plain : f.wire.header.flags.isOpen = false := by
    rw [Frame.wire_flags, FrameFlags.isOpen_fromBitsTruncate, h]
  obtain ⟨hreq, hresp, -⟩ := FrameFlags.not_handshake_of_not_open plain
  rw [isData, hreq, hresp]
  rfl

theorem isData_eq_false {f : Frame} : isData f = false ↔
    f.header.flags.isOpenRequest = true ∨ f.header.flags.isOpenResponse = true := by
  rw [isData, Bool.not_eq_false', Bool.or_eq_true]

theorem openRequestFrame_isData (i : StreamId) : isData (openRequestFrame i).wire = false :=
  isData_eq_false.mpr (.inl (by
    change (FrameFlags.fromBitsTruncate FrameFlags.openRequest.bits).isOpenRequest = true
    decide))

theorem openResponseFrame_isData (i : StreamId) : isData (openResponseFrame i).wire = false :=
  isData_eq_false.mpr (.inr (by
    change (FrameFlags.fromBitsTruncate FrameFlags.openResponse.bits).isOpenResponse = true
    decide))

theorem dataOn_data {f : Frame} (h : isData f = true) (i : StreamId) :
    dataOn i [f] = if f.header.streamId = i then [f] else [] := by
  by_cases mine : f.header.streamId = i <;> simp [dataOn, h, mine]

theorem dataOn_open {f : Frame} (h : isData f = false) (i : StreamId) : dataOn i [f] = [] := by
  simp [dataOn, h]

/-- The frame an input brings from the event channel. -/
def eventOn (i : StreamId) : Input → List Frame
  | .event (.frame f) => if f.header.streamId = i then [f] else []
  | _ => []

/-- What a step writes: nothing, the frame it was writing, or a frame of the handshake. -/
theorem step_written {a a' : SessionActor} {x : Input} {es : List Effect}
    (h : SessionActor.Step a x a' es) (composed : Composed a.phase) :
    writes es = [] ∨ ∃ f, writes es = [f] ∧
      (a.phase = .awaiting (.write f) ∨ isData f.wire = false) := by
  cases h with
  | @responded f hphase =>
      rw [hphase] at composed
      obtain ⟨i, rfl⟩ := composed
      exact .inr ⟨_, rfl, .inr (openResponseFrame_isData i)⟩
  | @requested f hphase =>
      rw [hphase] at composed
      obtain ⟨i, rfl⟩ := composed
      exact .inr ⟨_, rfl, .inr (openRequestFrame_isData i)⟩
  | @written f hphase => exact .inr ⟨f, rfl, .inl hphase⟩
  | _ => exact .inl rfl

/-- One step moves a stream's frame from the event channel to the writer, or from the
writer to the wire. -/
theorem step_outgoing {a a' : SessionActor} {x : Input} {es : List Effect}
    (h : SessionActor.Step a x a' es) (composed : Composed a.phase)
    (smooth : x = .resume false → ∃ i c f, a.phase = .awaiting (.forward i c f)) (i : StreamId) :
    dataOn i ((writes es).map Frame.wire) ++ (writingOn i a').map Frame.wire =
      (writingOn i a).map Frame.wire ++ (eventOn i x).map Frame.wire := by
  cases h with
  | @written f hphase =>
      have plain : f.header.flags.isOpen = false := by
        rw [hphase] at composed
        exact composed
      have one : dataOn i ((writes [.write f]).map Frame.wire) = (writingOn i a).map Frame.wire := by
        change dataOn i [f.wire] = _
        rw [dataOn_data (isData_wire plain), Frame.wire_streamId]
        simp only [writingOn, hphase]
        split <;> rfl
      rw [one]
      rfl
  | @responded f hphase =>
      rw [hphase] at composed
      obtain ⟨j, rfl⟩ := composed
      change dataOn i [(openResponseFrame j).wire] ++ _ = _
      rw [dataOn_open (openResponseFrame_isData j)]
      simp only [writingOn, hphase, eventOn]
      rfl
  | @requested f hphase =>
      rw [hphase] at composed
      obtain ⟨j, rfl⟩ := composed
      change dataOn i [(openRequestFrame j).wire] ++ _ = _
      rw [dataOn_open (openRequestFrame_isData j)]
      simp only [writingOn, hphase, eventOn]
      rfl
  | writeFailed hphase =>
      obtain ⟨j, c, f, other⟩ := smooth rfl
      rw [hphase] at other
      cases other
  | cancelled top | readError top | eof top | forward top | openRequest top | openResponse top
    | openReset top | unknown top | openStream top | shutdownCommand top | eventFrame top
    | eventClosed top | eventError top | forwarded top | forwardFailed top | announced top
    | announceFailed top | respondFailed top | requestFailed top =>
      simp [dataOn, writes, writingOn, eventOn, SessionActor.shutdown, top]

structure Outgoing (p : Peer) : Prop where
  conserved : ∀ i, (framesOn i p.submitted).map Frame.wire =
    dataOn i ((writes p.effects).map Frame.wire) ++ (writingOn i p.actor).map Frame.wire ++
      (framesOn i p.events).map Frame.wire
  behind : ∀ fs f, fs ++ [f] <+: (writes p.effects).map Frame.wire → isData f = true →
    f.header.streamId ∈ openIds fs
  writing : ∀ f, p.actor.phase = .awaiting (.write f) →
    f.header.streamId ∈ openIds ((writes p.effects).map Frame.wire) ∧ f.wire = f.sealed

theorem outgoing_spawn (side : SessionSide) (sessionId : SessionId) :
    Outgoing (.spawn side sessionId) where
  conserved _ := rfl
  behind fs f h := by
    have short := h.length_le
    rw [List.length_append] at short
    exact absurd short (Nat.not_succ_le_zero _)
  writing f h := by cases h

theorem Outgoing.input {p p' : Peer} (h : Outgoing p) {x : Input} {es : List Effect}
    (hs : SessionActor.Step p.actor x p'.actor es) (composed : Composed p.actor.phase)
    (smooth : x = .resume false → ∃ i c f, p.actor.phase = .awaiting (.forward i c f))
    (effects : p'.effects = p.effects ++ es) (submitted : p'.submitted = p.submitted)
    (events : ∀ i, framesOn i p.events = eventOn i x ++ framesOn i p'.events)
    (opened : ∀ f, x = .event (.frame f) →
      f.header.streamId ∈ openIds ((writes p.effects).map Frame.wire) ∧ f.wire = f.sealed) :
    Outgoing p' := by
  have grown : (writes p'.effects).map Frame.wire =
      (writes p.effects).map Frame.wire ++ (writes es).map Frame.wire := by
    rw [effects, writes_append, List.map_append]
  refine ⟨?_, ?_, ?_⟩
  · intro i
    have moved := step_outgoing hs composed smooth i
    rw [submitted, h.conserved i, grown, dataOn_append, events i, List.map_append]
    simp only [List.append_assoc]
    rw [← List.append_assoc (List.map Frame.wire (writingOn i p.actor)), ← moved]
    simp only [List.append_assoc]
  · intro fs f read data
    rw [grown] at read
    rcases step_written hs composed with none_written | ⟨g, one, kind⟩
    · rw [none_written, List.map_nil, List.append_nil] at read
      exact h.behind fs f read data
    · rw [one, List.map_singleton] at read
      rcases List.prefix_concat_iff.mp read with last | before
      · obtain ⟨rfl, rfl⟩ := List.append_inj' last rfl |>.imp id List.singleton_inj.mp
        rcases kind with writing | hand
        · exact (h.writing g writing).1
        · rw [hand] at data
          cases data
      · exact h.behind fs f before data
  · intro f writing
    rw [grown]
    exact (opened f (Net.writing_event hs writing)).imp
      (fun member => openIds_subset (List.prefix_append _ _) member) id

/-- An event on a stream that the application holds: what opened the stream has been written. -/
theorem known_opened {side : SessionSide} {a : SessionActor} {inputs : List Input}
    {effects : List Effect} {allocated : List StreamId}
    (l : Ledger side a inputs effects allocated) (top : a.phase = .select) {s : LogicalStream}
    (member : s ∈ known effects) : s.streamId ∈ openIds ((writes effects).map Frame.wire) := by
  have requests := l.requests
  have responses := l.responses
  simp only [SessionActor.requesting, SessionActor.responding, top, List.append_nil]
    at requests responses
  rcases List.mem_append.mp member with accepted | resolved
  · refine List.mem_append_right _ ?_
    rw [responses]
    exact List.mem_map_of_mem accepted
  · refine List.mem_append_left _ ?_
    rw [requests]
    exact l.owned _ (List.mem_map_of_mem resolved)

/-- What `send_bytes`, `send_file` and `close` send on their own stream. -/
inductive OwnEvent (i : StreamId) : StreamEvent → Prop
  | bytes (payload : List UInt8) : payload.length < 2 ^ 32 →
      OwnEvent i (.frame (bytesFrame i payload))
  | closeRequest : OwnEvent i (.frame (closeRequestFrame i))
  | closed : OwnEvent i (.closed i)

theorem OwnEvent.frame {i : StreamId} {f : Frame} (h : OwnEvent i (.frame f)) :
    f.header.streamId = i ∧ f.header.flags.isOpen = false ∧ f.payload.length < 2 ^ 32 ∧
      f.wire = f.sealed := by
  cases h with
  | bytes payload short =>
      have flags : FrameFlags.fromBitsTruncate FrameFlags.EMPTY.bits = .EMPTY := by decide
      exact ⟨rfl, bytesFrame_plain i payload, short, Frame.wire_eq_sealed flags rfl⟩
  | closeRequest =>
      have flags : FrameFlags.fromBitsTruncate FrameFlags.closeRequest.bits = .closeRequest := by
        decide
      have plain : FrameFlags.closeRequest.isOpen = false := by decide
      exact ⟨rfl, plain, Nat.two_pow_pos 32, Frame.wire_eq_sealed flags rfl⟩

theorem closeFrom_own (i : StreamId) (state : StreamState) :
    ∀ e ∈ (closeFrom i state).2, OwnEvent i e := by
  intro e member
  rcases mem_closeFrom member with rfl | rfl
  · exact .closeRequest
  · exact .closed

/-- The event at the head of the channel is the frame the actor sets out to write. -/
theorem framesOn_head {i j : StreamId} {e : StreamEvent} {rest : List (StreamId × StreamEvent)}
    (own : OwnEvent j e) : framesOn i ((j, e) :: rest) = eventOn i (.event e) ++ framesOn i rest := by
  cases e with
  | frame f =>
      obtain ⟨same, -⟩ := own.frame
      by_cases mine : j = i
      · simp [framesOn, eventOn, same, mine]
      · simp [framesOn, eventOn, same, mine]
  | closed k => rfl
  | error => cases own

theorem Outgoing.moved {p p' : Peer} {act : Peer.Act} (m : Peer.Moved p act p')
    {side : SessionSide} (l : Ledger side p.actor p.inputs p.effects p.allocated)
    (known : p.Known) (own : p.Sends OwnEvent) (h : Outgoing p) : Outgoing p' := by
  have account := Net.moved_account m
  cases m with
  | @event i e rest a es head hs =>
      refine h.input hs l.composed (fun failed => (by cases failed)) rfl
        (Peer.advance_submitted _ _ _ _) ?_ ?_
      · intro j
        rw [Peer.advance_events, head]
        exact framesOn_head (own.events (i, e) (head ▸ List.mem_cons_self))
      · rintro f same
        cases same
        have member : (i, .frame f) ∈ p.events := head ▸ List.mem_cons_self
        obtain ⟨mine, -, -, sealed⟩ := (own.events _ member).frame
        obtain ⟨s, there, rfl⟩ := known.events _ member
        rw [mine]
        cases hs with
        | eventFrame top => exact ⟨known_opened l top there, sealed⟩
  | command | resume | cancel =>
      rcases account with ⟨-, same, -, -⟩ | ⟨x, es, hs, inputs, effects, -, -, -, smooth⟩
      · simp at same
      · refine h.input hs l.composed smooth effects (Peer.advance_submitted _ _ _ _) ?_ ?_
        all_goals
          rw [Peer.advance_inputs] at inputs
          cases List.append_cancel_left inputs
        · intro i
          rw [Peer.advance_events]
          rfl
        · intro f same
          cases same
  | submit | push =>
      refine ⟨?_, h.behind, h.writing⟩
      intro i
      simp only [Peer.queued, framesOn_append, List.map_append]
      rw [h.conserved i]
      simp only [List.append_assoc]
  | _ => exact ⟨h.conserved, h.behind, h.writing⟩

end Foctet.Mux
