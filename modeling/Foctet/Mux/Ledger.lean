import Foctet.Mux.PeerSteps

/-! The open handshake as one side keeps it: which identifiers it has asked for,
answered, registered and resolved, read off its inputs and effects. -/
namespace Foctet.Mux
open Foctet.Core Foctet.Lib

def requestIds (frames : List Frame) : List StreamId :=
  frames.filterMap fun f => if f.header.flags.isOpenRequest then some f.header.streamId else none

def responseIds (frames : List Frame) : List StreamId :=
  frames.filterMap fun f => if f.header.flags.isOpenResponse then some f.header.streamId else none

theorem requestIds_append (fs gs : List Frame) :
    requestIds (fs ++ gs) = requestIds fs ++ requestIds gs := List.filterMap_append

theorem responseIds_append (fs gs : List Frame) :
    responseIds (fs ++ gs) = responseIds fs ++ responseIds gs := List.filterMap_append

/-- A frame without the OPEN bit is no part of the handshake, on either side of the wire. -/
theorem plain_wire {f : Frame} (h : f.header.flags.isOpen = false) :
    requestIds [f.wire] = [] ∧ responseIds [f.wire] = [] ∧
      f.wire.header.flags.isOpenReset = false := by
  have plain : f.wire.header.flags.isOpen = false := by
    rw [Frame.wire_flags, FrameFlags.isOpen_fromBitsTruncate, h]
  obtain ⟨hreq, hresp, hreset⟩ := FrameFlags.not_handshake_of_not_open plain
  refine ⟨?_, ?_, hreset⟩
  · simp only [requestIds, List.filterMap_cons, List.filterMap_nil, hreq, Bool.false_eq_true, if_false]
  · simp only [responseIds, List.filterMap_cons, List.filterMap_nil, hresp, Bool.false_eq_true,
      if_false]

theorem openRequestFrame_wire (i : StreamId) :
    requestIds [(openRequestFrame i).wire] = [i] ∧ responseIds [(openRequestFrame i).wire] = [] ∧
      (openRequestFrame i).wire.header.flags.isOpenReset = false := by
  have flags : (openRequestFrame i).wire.header.flags = .openRequest :=
    (by decide : FrameFlags.fromBitsTruncate FrameFlags.openRequest.bits = .openRequest)
  have kind : FrameFlags.openRequest.isOpenRequest = true ∧
      FrameFlags.openRequest.isOpenResponse = false ∧ FrameFlags.openRequest.isOpenReset = false := by
    decide
  rw [flags]
  refine ⟨?_, ?_, kind.2.2⟩
  · simp only [requestIds, List.filterMap_cons, List.filterMap_nil, flags, kind.1, if_true]
    rfl
  · simp only [responseIds, List.filterMap_cons, List.filterMap_nil, flags, kind.2.1,
      Bool.false_eq_true, if_false]

theorem openResponseFrame_wire (i : StreamId) :
    requestIds [(openResponseFrame i).wire] = [] ∧ responseIds [(openResponseFrame i).wire] = [i] ∧
      (openResponseFrame i).wire.header.flags.isOpenReset = false := by
  have flags : (openResponseFrame i).wire.header.flags = .openResponse :=
    (by decide : FrameFlags.fromBitsTruncate FrameFlags.openResponse.bits = .openResponse)
  have kind : FrameFlags.openResponse.isOpenRequest = false ∧
      FrameFlags.openResponse.isOpenResponse = true ∧
      FrameFlags.openResponse.isOpenReset = false := by decide
  rw [flags]
  refine ⟨?_, ?_, kind.2.2⟩
  · simp only [requestIds, List.filterMap_cons, List.filterMap_nil, flags, kind.1,
      Bool.false_eq_true, if_false]
  · simp only [responseIds, List.filterMap_cons, List.filterMap_nil, flags, kind.2.1, if_true]
    rfl

namespace SessionActor

/-- The frames taken off the reader, in order. -/
def arrived (inputs : List Input) : List Frame :=
  inputs.filterMap fun
    | .frame f => some f
    | _ => none

def accepted (effects : List Effect) : List LogicalStream :=
  effects.filterMap fun
    | .accept s => some s
    | _ => none

def resolved (effects : List Effect) : List LogicalStream :=
  effects.filterMap fun
    | .resolve _ (.ok s) => some s
    | _ => none

theorem arrived_append (xs ys : List Input) : arrived (xs ++ ys) = arrived xs ++ arrived ys :=
  List.filterMap_append

theorem accepted_append (es fs : List Effect) : accepted (es ++ fs) = accepted es ++ accepted fs :=
  List.filterMap_append

theorem resolved_append (es fs : List Effect) : resolved (es ++ fs) = resolved es ++ resolved fs :=
  List.filterMap_append

def acceptedIds (effects : List Effect) : List StreamId :=
  (accepted effects).map LogicalStream.streamId

def resolvedIds (effects : List Effect) : List StreamId :=
  (resolved effects).map LogicalStream.streamId

def requesting (a : SessionActor) : List StreamId :=
  match a.phase with
  | .awaiting (.request f) => [f.header.streamId]
  | _ => []

def announcing (a : SessionActor) : List StreamId :=
  match a.phase with
  | .awaiting (.announce s) => [s.streamId]
  | _ => []

def responding (a : SessionActor) : List StreamId :=
  match a.phase with
  | .awaiting (.respond f) => [f.header.streamId]
  | _ => []

/-- The identifiers handed out so far, after one more input. -/
def nextAllocated (a : SessionActor) (allocated : List StreamId) : Input → List StreamId
  | .command (.openStream _) => allocated ++ [a.nextStreamId]
  | _ => allocated

/-- What a suspended handler is about to write. -/
def Composed : Phase → Prop
  | .awaiting (.request f) => ∃ i, f = openRequestFrame i
  | .awaiting (.respond f) => ∃ i, f = openResponseFrame i
  | .awaiting (.write f) => f.header.flags.isOpen = false
  | _ => True

structure Ledger (side : SessionSide) (a : SessionActor) (inputs : List Input)
    (effects : List Effect) (allocated : List StreamId) : Prop where
  next : a.nextStreamId = (firstStreamId side).nth allocated.length
  counted : allocated = (firstStreamId side).upTo allocated.length
  composed : Composed a.phase
  requests : requestIds ((writes effects).map Frame.wire) ++ requesting a = allocated
  responses : responseIds ((writes effects).map Frame.wire) ++ responding a = acceptedIds effects
  announces : acceptedIds effects ++ announcing a = requestIds (arrived inputs)
  resolves : resolvedIds effects = responseIds (arrived inputs)
  owned : ∀ i ∈ resolvedIds effects, i ∈ allocated
  pending : ∀ i, a.pendingStreams.get i ≠ none ↔ i ∈ allocated ∧ i ∉ resolvedIds effects
  streams : ∀ i, a.streams.get i ≠ none →
    i ∈ requestIds (arrived inputs) ∨ i ∈ resolvedIds effects
  resets : ∀ f ∈ (writes effects).map Frame.wire, f.header.flags.isOpenReset = false

/-- What two honest parties do to each other: event frames without the OPEN bit,
opens for absent identifiers, responses for pending ones, and no failed write. -/
structure Orderly (a : SessionActor) (x : Input) : Prop where
  event : ∀ f, x = .event (.frame f) → f.header.flags.isOpen = false
  request : ∀ f, x = .frame f → f.header.flags.isOpenRequest = true →
    a.streams.get f.header.streamId = none
  response : ∀ f, x = .frame f → f.header.flags.isOpenResponse = true →
    a.streams.get f.header.streamId = none ∧ a.pendingStreams.get f.header.streamId ≠ none
  reset : ∀ f, x = .frame f → f.header.flags.isOpenReset = false
  resume : x = .resume false → ∃ i c f, a.phase = .awaiting (.forward i c f)

theorem ledger_spawn (side : SessionSide) (sessionId : SessionId) :
    Ledger side (spawn side sessionId) [] [] [] where
  next := rfl
  counted := rfl
  composed := trivial
  requests := rfl
  responses := rfl
  announces := rfl
  resolves := rfl
  owned i hi := by cases hi
  pending i := by simp [spawn, Table.get_empty]
  streams i h := absurd (Table.get_empty i) h
  resets f hf := by cases hf

/-- The frames one step adds to those written, as the other side will see them. -/
theorem wired_append (effects es : List Effect) :
    (writes (effects ++ es)).map Frame.wire =
      (writes effects).map Frame.wire ++ (writes es).map Frame.wire := by
  rw [writes_append, List.map_append]

theorem acceptedIds_append (es fs : List Effect) :
    acceptedIds (es ++ fs) = acceptedIds es ++ acceptedIds fs := by
  simp only [acceptedIds, accepted_append, List.map_append]

theorem resolvedIds_append (es fs : List Effect) :
    resolvedIds (es ++ fs) = resolvedIds es ++ resolvedIds fs := by
  simp only [resolvedIds, resolved_append, List.map_append]

section silent
variable {es : List Effect}

theorem writes_silent (effects : List Effect) (silent : writes es = []) :
    writes (effects ++ es) = writes effects := by
  rw [writes_append, silent, List.append_nil]

theorem acceptedIds_silent (effects : List Effect) (silent : acceptedIds es = []) :
    acceptedIds (effects ++ es) = acceptedIds effects := by
  rw [acceptedIds_append, silent, List.append_nil]

theorem resolvedIds_silent (effects : List Effect) (silent : resolvedIds es = []) :
    resolvedIds (effects ++ es) = resolvedIds effects := by
  rw [resolvedIds_append, silent, List.append_nil]

theorem arrived_silent (inputs : List Input) {x : Input} (silent : arrived [x] = []) :
    arrived (inputs ++ [x]) = arrived inputs := by
  rw [arrived_append, silent, List.append_nil]

end silent

/-- A step that has no part in the handshake. -/
structure Aside (a : SessionActor) (x : Input) (a' : SessionActor) (es : List Effect) : Prop where
  next : a'.nextStreamId = a.nextStreamId
  pending : a'.pendingStreams = a.pendingStreams
  streams : ∀ i, a'.streams.get i ≠ none → a.streams.get i ≠ none
  composed : Composed a'.phase
  requesting : requesting a' = requesting a
  announcing : announcing a' = announcing a
  responding : responding a' = responding a
  arrivedRequests : requestIds (arrived [x]) = []
  arrivedResponses : responseIds (arrived [x]) = []
  written : ∀ f ∈ writes es, f.header.flags.isOpen = false
  accepted : acceptedIds es = []
  resolved : resolvedIds es = []

theorem plain_writes {ws : List Frame} (h : ∀ f ∈ ws, f.header.flags.isOpen = false) :
    requestIds (ws.map Frame.wire) = [] ∧ responseIds (ws.map Frame.wire) = [] ∧
      ∀ f ∈ ws.map Frame.wire, f.header.flags.isOpenReset = false := by
  induction ws with
  | nil => exact ⟨rfl, rfl, fun f hf => (by cases hf)⟩
  | cons w ws ih =>
      obtain ⟨hreq, hresp, hreset⟩ := plain_wire (h w List.mem_cons_self)
      obtain ⟨ihreq, ihresp, ihreset⟩ := ih (fun f hf => h f (List.mem_cons_of_mem w hf))
      have split : (w :: ws).map Frame.wire = [w.wire] ++ ws.map Frame.wire := rfl
      rw [split, requestIds_append, responseIds_append, hreq, hresp, ihreq, ihresp]
      refine ⟨rfl, rfl, ?_⟩
      intro f hf
      rcases List.mem_append.mp hf with hf | hf
      · rw [List.mem_singleton.mp hf]
        exact hreset
      · exact ihreset f hf

theorem Ledger.aside {side : SessionSide} {a a' : SessionActor} {inputs : List Input}
    {effects es : List Effect} {allocated : List StreamId} {x : Input}
    (l : Ledger side a inputs effects allocated) (h : Aside a x a' es) :
    Ledger side a' (inputs ++ [x]) (effects ++ es) allocated := by
  obtain ⟨hreq, hresp, hreset⟩ := plain_writes h.written
  have same := resolvedIds_silent effects h.resolved
  have took := acceptedIds_silent effects h.accepted
  have asked : requestIds (arrived (inputs ++ [x])) = requestIds (arrived inputs) := by
    rw [arrived_append, requestIds_append, h.arrivedRequests, List.append_nil]
  refine ⟨h.next.trans l.next, l.counted, h.composed, ?_, ?_, ?_, ?_, ?_, ?_, ?_, ?_⟩
  · rw [wired_append, requestIds_append, hreq, List.append_nil, h.requesting, l.requests]
  · rw [wired_append, responseIds_append, hresp, List.append_nil, h.responding, took,
      l.responses]
  · rw [took, h.announcing, asked, l.announces]
  · rw [same, arrived_append, responseIds_append, h.arrivedResponses, List.append_nil, l.resolves]
  · rw [same]
    exact l.owned
  · intro i
    rw [h.pending, same]
    exact l.pending i
  · intro i hi
    rw [asked, same]
    exact l.streams i (h.streams i hi)
  · intro f hf
    rw [wired_append] at hf
    rcases List.mem_append.mp hf with hf | hf
    · exact l.resets f hf
    · exact hreset f hf

section handshake
variable {side : SessionSide} {a : SessionActor} {inputs : List Input} {effects : List Effect}
  {allocated : List StreamId}

theorem requesting_select (top : a.phase = .select) : requesting a = [] := by
  simp only [requesting, top]

theorem announcing_select (top : a.phase = .select) : announcing a = [] := by
  simp only [announcing, top]

theorem responding_select (top : a.phase = .select) : responding a = [] := by
  simp only [responding, top]

/-- A frame that carries exactly one of the two handshake patterns. -/
theorem request_frame {f : Frame} (h : f.header.flags.isOpenRequest = true) :
    requestIds (arrived [.frame f]) = [f.header.streamId] ∧ responseIds (arrived [.frame f]) = [] := by
  have other := (FrameFlags.openRequest_only h).1
  simp [requestIds, responseIds, arrived, h, other]

theorem response_frame {f : Frame} (h : f.header.flags.isOpenResponse = true) :
    requestIds (arrived [.frame f]) = [] ∧ responseIds (arrived [.frame f]) = [f.header.streamId] := by
  have other := (FrameFlags.openResponse_only h).1
  simp [requestIds, responseIds, arrived, h, other]

theorem plain_frame {f : Frame} (hreq : f.header.flags.isOpenRequest = false)
    (hresp : f.header.flags.isOpenResponse = false) :
    requestIds (arrived [.frame f]) = [] ∧ responseIds (arrived [.frame f]) = [] := by
  simp [requestIds, responseIds, arrived, hreq, hresp]

/-- An open request for an absent identifier registers it and begins its announcement. -/
theorem Ledger.registers (l : Ledger side a inputs effects allocated) {f : Frame}
    (top : a.phase = .select) (hreq : f.header.flags.isOpenRequest = true) :
    Ledger side
      { a with
        nextChannel := a.nextChannel + 1
        streams := a.streams.insert f.header.streamId a.nextChannel
        phase := .awaiting (.announce
          ⟨a.sessionId, f.header.streamId, .established, a.nextChannel⟩) }
      (inputs ++ [Input.frame f]) (effects ++ []) allocated := by
  obtain ⟨asked, answered⟩ := request_frame hreq
  have requests := l.requests
  have responses := l.responses
  have announces := l.announces
  rw [requesting_select top] at requests
  rw [responding_select top] at responses
  rw [announcing_select top] at announces
  rw [List.append_nil]
  refine ⟨l.next, l.counted, trivial, requests, responses, ?_, ?_, l.owned, l.pending, ?_, l.resets⟩
  · rw [arrived_append, requestIds_append, asked, ← announces, List.append_nil]
    rfl
  · rw [arrived_append, responseIds_append, answered, List.append_nil, l.resolves]
  · intro i hi
    rw [arrived_append, requestIds_append, asked]
    rw [Table.get_insert] at hi
    split at hi
    · rename_i same
      exact .inl (List.mem_append_right _ (List.mem_singleton.mpr same))
    · exact (l.streams i hi).imp (List.mem_append_left _) id

/-- An open response for a pending identifier resolves it. -/
theorem Ledger.resolve (l : Ledger side a inputs effects allocated) {f : Frame} {reply : ReplyId}
    (hresp : f.header.flags.isOpenResponse = true)
    (waiting : a.pendingStreams.get f.header.streamId = some reply) :
    Ledger side
      { a with
        nextChannel := a.nextChannel + 1
        pendingStreams := a.pendingStreams.remove f.header.streamId
        streams := a.streams.insert f.header.streamId a.nextChannel }
      (inputs ++ [Input.frame f])
      (effects ++ [Effect.resolve reply (.ok ⟨a.sessionId, f.header.streamId, .established,
        a.nextChannel⟩)]) allocated := by
  obtain ⟨asked, answered⟩ := response_frame hresp
  have added (s : LogicalStream) : resolvedIds (effects ++ [Effect.resolve reply (.ok s)]) =
      resolvedIds effects ++ [s.streamId] := by
    rw [resolvedIds_append]
    rfl
  have unasked : requestIds (arrived (inputs ++ [Input.frame f])) = requestIds (arrived inputs) := by
    rw [arrived_append, requestIds_append, asked, List.append_nil]
  have mine := ((l.pending f.header.streamId).mp (by rw [waiting]; exact Option.some_ne_none _)).1
  have wrote (s : LogicalStream) : writes (effects ++ [Effect.resolve reply (.ok s)]) = writes effects :=
    writes_silent effects rfl
  have took (s : LogicalStream) :
      acceptedIds (effects ++ [Effect.resolve reply (.ok s)]) = acceptedIds effects :=
    acceptedIds_silent effects rfl
  refine ⟨l.next, l.counted, ?_, ?_, ?_, ?_, ?_, ?_, ?_, ?_, ?_⟩
  · change Composed a.phase
    exact l.composed
  · rw [wrote]
    exact l.requests
  · rw [wrote, took]
    exact l.responses
  · rw [took, unasked]
    exact l.announces
  · rw [added, arrived_append, responseIds_append, answered, l.resolves]
  · intro i hi
    rw [added] at hi
    rcases List.mem_append.mp hi with hi | hi
    · exact l.owned i hi
    · rw [List.mem_singleton.mp hi]
      exact mine
  · intro i
    rw [added, Table.get_remove, List.mem_append, List.mem_singleton]
    by_cases same : i = f.header.streamId
    · simp [same]
    · simp only [same, if_false, or_false]
      exact l.pending i
  · intro i hi
    rw [unasked, added]
    rw [Table.get_insert] at hi
    split at hi
    · rename_i same
      exact .inr (List.mem_append_right _ (List.mem_singleton.mpr same))
    · exact (l.streams i hi).imp id (List.mem_append_left _)
  · rw [wrote]
    exact l.resets

/-- A command to open takes the next identifier, which was not in use. -/
theorem Ledger.allocates (l : Ledger side a inputs effects allocated) {reply : ReplyId}
    (top : a.phase = .select) (fresh : (allocated ++ [a.nextStreamId]).Nodup) :
    Ledger side
      { a with
        nextStreamId := (a.nextStreamId.fetchAdd 1).2
        pendingStreams := a.pendingStreams.insert a.nextStreamId reply
        phase := .awaiting (.request (openRequestFrame a.nextStreamId)) }
      (inputs ++ [Input.command (.openStream reply)]) (effects ++ [])
      (allocated ++ [a.nextStreamId]) := by
  have requests := l.requests
  have responses := l.responses
  have announces := l.announces
  rw [requesting_select top, List.append_nil] at requests
  rw [responding_select top] at responses
  rw [announcing_select top] at announces
  have nothing : arrived (inputs ++ [Input.command (.openStream reply)]) = arrived inputs :=
    arrived_silent inputs rfl
  have unused : a.nextStreamId ∉ allocated := by
    intro used
    exact (List.nodup_append.mp fresh).2.2 _ used _ (List.mem_singleton.mpr rfl) rfl
  have length : (allocated ++ [a.nextStreamId]).length = allocated.length + 1 := List.length_append
  rw [List.append_nil]
  refine ⟨?_, ?_, ⟨_, rfl⟩, ?_, responses, ?_, ?_, ?_, ?_, ?_, l.resets⟩
  · rw [length]
    simp only [StreamId.nth, ← l.next]
  · rw [length, StreamId.upTo_succ, ← l.counted, ← l.next]
  · rw [requests]
    rfl
  · rw [nothing]
    exact announces
  · rw [nothing]
    exact l.resolves
  · intro i hi
    exact List.mem_append_left _ (l.owned i hi)
  · intro i
    rw [Table.get_insert, List.mem_append, List.mem_singleton]
    by_cases same : i = a.nextStreamId
    · have unresolved : i ∉ resolvedIds effects := fun hi => unused (same ▸ l.owned i hi)
      simp [same, same ▸ unresolved]
    · simp only [same, if_false, or_false]
      exact l.pending i
  · intro i hi
    rw [nothing]
    exact l.streams i hi

/-- The announcement is made; the response is next. -/
theorem Ledger.announced (l : Ledger side a inputs effects allocated) {s : LogicalStream}
    (hphase : a.phase = .awaiting (.announce s)) :
    Ledger side { a with phase := .awaiting (.respond (openResponseFrame s.streamId)) }
      (inputs ++ [Input.resume true]) (effects ++ [Effect.accept s]) allocated := by
  have requests := l.requests
  have responses := l.responses
  have announces := l.announces
  simp only [requesting, hphase] at requests
  simp only [responding, hphase, List.append_nil] at responses
  simp only [announcing, hphase] at announces
  have took : acceptedIds (effects ++ [Effect.accept s]) = acceptedIds effects ++ [s.streamId] := by
    rw [acceptedIds_append]
    rfl
  have wrote : writes (effects ++ [Effect.accept s]) = writes effects := writes_silent effects rfl
  have answered : resolvedIds (effects ++ [Effect.accept s]) = resolvedIds effects :=
    resolvedIds_silent effects rfl
  have nothing : arrived (inputs ++ [Input.resume true]) = arrived inputs := arrived_silent inputs rfl
  refine ⟨l.next, l.counted, ⟨_, rfl⟩, ?_, ?_, ?_, ?_, ?_, ?_, ?_, ?_⟩
  · rw [wrote]
    exact requests
  · rw [wrote, took, responses]
    rfl
  · rw [took, nothing, announces]
    exact List.append_nil _
  · rw [answered, nothing]
    exact l.resolves
  · rw [answered]
    exact l.owned
  · rw [answered]
    exact l.pending
  · rw [answered, nothing]
    exact l.streams
  · rw [wrote]
    exact l.resets

/-- One frame of the handshake goes out and its handler is done. -/
theorem Ledger.writes_one (l : Ledger side a inputs effects allocated) {f : Frame}
    (quiet : announcing a = [])
    (hreq : requestIds [f.wire] = requesting a) (hresp : responseIds [f.wire] = responding a)
    (hreset : f.wire.header.flags.isOpenReset = false) :
    Ledger side { a with phase := .select } (inputs ++ [Input.resume true])
      (effects ++ [Effect.write f]) allocated := by
  have wrote : (writes (effects ++ [Effect.write f])).map Frame.wire =
      (writes effects).map Frame.wire ++ [f.wire] := wired_append effects [.write f]
  have took : acceptedIds (effects ++ [Effect.write f]) = acceptedIds effects :=
    acceptedIds_silent effects rfl
  have answered : resolvedIds (effects ++ [Effect.write f]) = resolvedIds effects :=
    resolvedIds_silent effects rfl
  have nothing : arrived (inputs ++ [Input.resume true]) = arrived inputs := arrived_silent inputs rfl
  have announces := l.announces
  rw [quiet] at announces
  refine ⟨l.next, l.counted, trivial, ?_, ?_, ?_, ?_, ?_, ?_, ?_, ?_⟩
  · rw [wrote, requestIds_append, hreq, l.requests]
    exact List.append_nil _
  · rw [wrote, responseIds_append, hresp, l.responses, took]
    exact List.append_nil _
  · rw [took, nothing]
    exact announces
  · rw [answered, nothing]
    exact l.resolves
  · rw [answered]
    exact l.owned
  · rw [answered]
    exact l.pending
  · rw [answered, nothing]
    exact l.streams
  · intro g hg
    rw [wrote] at hg
    rcases List.mem_append.mp hg with hg | hg
    · exact l.resets g hg
    · rw [List.mem_singleton.mp hg]
      exact hreset

theorem Ledger.responded (l : Ledger side a inputs effects allocated) {f : Frame}
    (hphase : a.phase = .awaiting (.respond f)) :
    Ledger side { a with phase := .select } (inputs ++ [Input.resume true])
      (effects ++ [Effect.write f]) allocated := by
  have composed := l.composed
  rw [hphase] at composed
  obtain ⟨i, rfl⟩ := composed
  obtain ⟨hreq, hresp, hreset⟩ := openResponseFrame_wire i
  refine l.writes_one ?_ ?_ ?_ hreset
  · simp only [announcing, hphase]
  · simp only [hreq, requesting, hphase]
  · rw [hresp]
    simp only [responding, hphase]
    rfl

theorem Ledger.requested (l : Ledger side a inputs effects allocated) {f : Frame}
    (hphase : a.phase = .awaiting (.request f)) :
    Ledger side { a with phase := .select } (inputs ++ [Input.resume true])
      (effects ++ [Effect.write f]) allocated := by
  have composed := l.composed
  rw [hphase] at composed
  obtain ⟨i, rfl⟩ := composed
  obtain ⟨hreq, hresp, hreset⟩ := openRequestFrame_wire i
  refine l.writes_one ?_ ?_ ?_ hreset
  · simp only [announcing, hphase]
  · rw [hreq]
    simp only [requesting, hphase]
    rfl
  · simp only [hresp, responding, hphase]

theorem Ledger.written (l : Ledger side a inputs effects allocated) {f : Frame}
    (hphase : a.phase = .awaiting (.write f)) :
    Ledger side { a with phase := .select } (inputs ++ [Input.resume true])
      (effects ++ [Effect.write f]) allocated := by
  have composed := l.composed
  rw [hphase] at composed
  obtain ⟨hreq, hresp, hreset⟩ := plain_wire composed
  refine l.writes_one ?_ ?_ ?_ hreset
  · simp only [announcing, hphase]
  · simp only [hreq, requesting, hphase]
  · simp only [hresp, responding, hphase]

end handshake

/-- No frame of the handshake is due in the phase. -/
def Idle (a : SessionActor) : Prop := requesting a = [] ∧ announcing a = [] ∧ responding a = []

theorem idle_select {a : SessionActor} (top : a.phase = .select) : Idle a :=
  ⟨requesting_select top, announcing_select top, responding_select top⟩

theorem idle_forward {a : SessionActor} {i : StreamId} {c : ChannelId} {f : Frame}
    (hphase : a.phase = .awaiting (.forward i c f)) : Idle a := by
  simp only [Idle, requesting, announcing, responding, hphase, and_self]

/-- Between two phases in which no frame of the handshake is due. -/
theorem Aside.of_idle {a a' : SessionActor} {x : Input} {es : List Effect} (before : Idle a)
    (after : Idle a') (next : a'.nextStreamId = a.nextStreamId)
    (pending : a'.pendingStreams = a.pendingStreams)
    (streams : ∀ i, a'.streams.get i ≠ none → a.streams.get i ≠ none) (composed : Composed a'.phase)
    (asked : requestIds (arrived [x]) = []) (answered : responseIds (arrived [x]) = [])
    (silent : writes es = [] ∧ acceptedIds es = [] ∧ resolvedIds es = []) : Aside a x a' es where
  next := next
  pending := pending
  streams := streams
  composed := composed
  requesting := after.1.trans before.1.symm
  announcing := after.2.1.trans before.2.1.symm
  responding := after.2.2.trans before.2.2.symm
  arrivedRequests := asked
  arrivedResponses := answered
  written f there := by
    rw [silent.1] at there
    cases there
  accepted := silent.2.1
  resolved := silent.2.2

/-- A handshake frame never meets a registered identifier. -/
theorem Orderly.plain_of_registered {a : SessionActor} {f : Frame} (o : Orderly a (.frame f))
    (registered : a.streams.get f.header.streamId ≠ none) :
    f.header.flags.isOpenRequest = false ∧ f.header.flags.isOpenResponse = false := by
  constructor
  · rw [Bool.eq_false_iff]
    intro hreq
    exact registered (o.request f rfl hreq)
  · rw [Bool.eq_false_iff]
    intro hresp
    exact registered (o.response f rfl hresp).1

/-- Every step of an orderly party is accounted for. -/
theorem ledger_step {side : SessionSide} {a a' : SessionActor} {inputs : List Input}
    {effects es : List Effect} {allocated : List StreamId} {x : Input} (h : Step a x a' es)
    (o : Orderly a x) (fresh : (nextAllocated a allocated x).Nodup)
    (l : Ledger side a inputs effects allocated) :
    Ledger side a' (inputs ++ [x]) (effects ++ es) (nextAllocated a allocated x) := by
  cases h with
  | cancelled top | readError top =>
      exact l.aside (.of_idle (idle_select top) ⟨rfl, rfl, rfl⟩ rfl rfl (fun i hi => absurd rfl hi)
        trivial rfl rfl ⟨rfl, rfl, rfl⟩)
  | eof top | eventError top | shutdownCommand top =>
      exact l.aside (.of_idle (idle_select top) (idle_select top) rfl rfl (fun i hi => hi) l.composed
        rfl rfl ⟨rfl, rfl, rfl⟩)
  | @forward f sender top hs =>
      obtain ⟨notRequest, notResponse⟩ := o.plain_of_registered (hs ▸ Option.some_ne_none _)
      obtain ⟨asked, answered⟩ := plain_frame notRequest notResponse
      exact l.aside (.of_idle (idle_select top) ⟨rfl, rfl, rfl⟩ rfl rfl (fun i hi => hi) trivial
        asked answered ⟨rfl, rfl, rfl⟩)
  | openRequest top hs hreq => exact l.registers top hreq
  | openResponse top hs hreq hresp waiting => exact l.resolve hresp waiting
  | @openReset f reply top hs hreset waiting =>
      have never := o.reset f rfl
      rw [hreset] at never
      cases never
  | @unknown f top hs hreq hresp hreset =>
      have notResponse : f.header.flags.isOpenResponse = false := by
        rw [Bool.eq_false_iff]
        intro yes
        exact (o.response f rfl yes).2 (hresp yes)
      obtain ⟨asked, answered⟩ := plain_frame hreq notResponse
      exact l.aside (.of_idle (idle_select top) (idle_select top) rfl rfl (fun i hi => hi) l.composed
        asked answered ⟨rfl, rfl, rfl⟩)
  | openStream top => exact l.allocates top fresh
  | @eventFrame f top =>
      exact l.aside (.of_idle (idle_select top) ⟨rfl, rfl, rfl⟩ rfl rfl (fun i hi => hi)
        (o.event f rfl) rfl rfl ⟨rfl, rfl, rfl⟩)
  | eventClosed top =>
      exact l.aside (.of_idle (idle_select top) (idle_select top) rfl rfl
        (fun i hi => Table.get_ne_none_of_remove hi) l.composed rfl rfl ⟨rfl, rfl, rfl⟩)
  | forwarded hphase =>
      exact l.aside (.of_idle (idle_forward hphase) ⟨rfl, rfl, rfl⟩ rfl rfl (fun i hi => hi) trivial
        rfl rfl ⟨rfl, rfl, rfl⟩)
  | forwardFailed hphase =>
      exact l.aside (.of_idle (idle_forward hphase) ⟨rfl, rfl, rfl⟩ rfl rfl
        (fun i hi => Table.get_ne_none_of_remove hi) trivial rfl rfl ⟨rfl, rfl, rfl⟩)
  | announced hphase => exact l.announced hphase
  | responded hphase => exact l.responded hphase
  | requested hphase => exact l.requested hphase
  | written hphase => exact l.written hphase
  | announceFailed hphase | respondFailed hphase | requestFailed hphase | writeFailed hphase =>
      obtain ⟨i, c, f, busy⟩ := o.resume rfl
      rw [hphase] at busy
      cases busy

end SessionActor
end Foctet.Mux
