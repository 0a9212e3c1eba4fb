import Foctet.Mux.Incoming
import Foctet.Mux.OpenHandshake

/-! Delivery on every stream of two sessions, from `send_bytes` at one end to
`recv_frame` at the other, through both actors and the byte pipe between them. -/
namespace Foctet.Mux
open Foctet.Core Foctet.Lib
open SessionActor (Input arrived puts puts_append held acceptedIds resolvedIds)

namespace Peer

/-- What has been read off a stream's channel was put there first. -/
structure Received (p : Peer) : Prop where
  order : ∀ c, p.received c ++ p.queue c = puts c p.effects
  handed : ∀ c, p.received c ≠ [] → ∃ s ∈ Mux.known p.effects, s.frameReceiver = c

theorem received_spawn (side : SessionSide) (sessionId : SessionId) :
    Received (spawn side sessionId) where
  order _ := rfl
  handed _ h := absurd rfl h

theorem Received.advance {p : Peer} (h : Received p) (x : Input) (a : SessionActor)
    (es : List Effect) : Received (p.advance x a es) := by
  refine ⟨?_, ?_⟩
  · intro c
    rw [advance_received, advance_queue, advance_effects, puts_append, ← List.append_assoc,
      h.order c]
  · intro c some_read
    rw [advance_received] at some_read
    obtain ⟨s, member, same⟩ := h.handed c some_read
    exact ⟨s, known_append es member, same⟩

theorem Received.moved {p p' : Peer} {act : Act} (m : Moved p act p') (known : p.Known)
    (h : Received p) : Received p' := by
  cases m with
  | @command cmd rest =>
      have popped : Received { p with commands := rest, allocated := p.noteAllocated cmd } :=
        ⟨h.order, h.handed⟩
      exact popped.advance _ _ _
  | @event i e rest =>
      have popped : Received { p with events := rest, sent := p.noteSent i e } :=
        ⟨h.order, h.handed⟩
      exact popped.advance _ _ _
  | resume | cancel => exact h.advance _ _ _
  | @recv c handle f rest found waiting =>
      refine ⟨?_, ?_⟩
      · intro d
        have whole := h.order d
        by_cases same : d = c
        · subst same
          rw [waiting] at whole
          simp only [if_true, List.append_assoc, List.singleton_append]
          exact whole
        · simp only [same, if_false]
          exact whole
      · intro d some_read
        by_cases same : d = c
        · subst same
          obtain ⟨-, s, member, -, there⟩ := known.handles _ _ found
          exact ⟨s, member, there⟩
        · simp only [same, if_false] at some_read
          exact h.handed d some_read
  | _ => exact ⟨h.order, h.handed⟩

/-- The frames the application has read from a stream. -/
def receivedOn (p : Peer) (i : StreamId) : List Frame :=
  ((Mux.known p.effects).filter fun s => s.streamId = i).flatMap fun s => p.received s.frameReceiver

end Peer

/-- What one party keeps, whatever it reads and does. -/
structure Flow (p : Peer) : Prop where
  known : p.Known
  own : p.Sends OwnEvent
  outgoing : Outgoing p
  incoming : Incoming p.actor p.inputs p.effects
  received : p.Received

theorem flow_spawn (side : SessionSide) (sessionId : SessionId) : Flow (.spawn side sessionId) where
  known := Peer.known_spawn side sessionId
  own := Peer.sends_spawn OwnEvent side sessionId
  outgoing := outgoing_spawn side sessionId
  incoming := incoming_spawn side sessionId
  received := Peer.received_spawn side sessionId

theorem Flow.reads {p : Peer} {side : SessionSide} (h : Flow p)
    (l : SessionActor.Ledger side p.actor p.inputs p.effects p.allocated) {f : Frame}
    {a : SessionActor} {es : List Effect} (hs : SessionActor.Step p.actor (.frame f) a es)
    (fresh : isData f = false → Fresh p.actor p.inputs p.effects f) :
    Flow (p.advance (.frame f) a es) where
  known := h.known.advance _ _ _
  own := h.own.advance _ _ _
  outgoing := by
    refine h.outgoing.input hs l.composed (fun failed => (by cases failed)) rfl
      (Peer.advance_submitted _ _ _ _) ?_ (fun g same => (by cases same))
    intro i
    rw [Peer.advance_events]
    rfl
  incoming := incoming_step h.incoming hs fun g same => by
    cases same
    exact fresh
  received := h.received.advance _ _ _

theorem Flow.acts {p p' : Peer} {side : SessionSide} {act : Peer.Act} (h : Flow p)
    (l : SessionActor.Ledger side p.actor p.inputs p.effects p.allocated)
    (m : Peer.Moved p act p')
    (submits : ∀ what, act.Submits what → ∀ i, OwnEvent i (what.toEvent i)) : Flow p' where
  known := h.known.moved m
  own := h.own.moved m closeFrom_own submits
  outgoing := h.outgoing.moved m l h.known h.own
  incoming := by
    rcases Net.moved_account m with ⟨hactor, hinputs, heffects, -⟩ |
      ⟨x, es, hs, hinputs, heffects, -, noFrame, -⟩
    · rw [hactor, hinputs, heffects]
      exact h.incoming
    · rw [hinputs, heffects]
      exact incoming_step h.incoming hs fun f same => absurd same (noFrame f)
  received := h.received.moved m h.known

section net
variable {L : Type} {K : Link L} {fits : Frame → Prop} {sound : L → Prop} {n : Net L}

/-- The identifier of an open frame that comes next has not been seen before. -/
theorem next_open_new (agree : Net.Agree K fits sound n) (apart : Net.Apart n) (s : SessionSide)
    {f : Frame} (read : arrived (n.peer s).inputs ++ [f] <+:
      (writes (n.peer s.other).effects).map Frame.wire) (opens : isData f = false) :
    f.header.streamId ∉ openIds (arrived (n.peer s).inputs) := by
  have before := (List.prefix_append _ [f]).trans read
  have asked := agree.asked s.other before
  have answered := agree.answered s before
  intro seen
  rcases isData_eq_false.mp opens with request | response
  · have ids := agree.asked s.other read
    rw [requestIds_append, Net.mem_requestIds_single request] at ids
    obtain ⟨theirs, new⟩ := Net.fresh_last (apart.nodup s.other) ids
    rcases List.mem_append.mp seen with old | mine
    · exact new old
    · exact apart.disjoint s _ (answered.subset mine) theirs
  · have ids := agree.answered s read
    rw [responseIds_append, Net.mem_responseIds_single response] at ids
    obtain ⟨mine, new⟩ := Net.fresh_last (apart.nodup s) ids
    rcases List.mem_append.mp seen with theirs | old
    · exact apart.disjoint s _ mine (asked.subset theirs)
    · exact new old

/-- Data on a stream has come behind what opened the stream. -/
theorem data_opened {p : Peer} (out : Outgoing p) {fs : List Frame} {i : StreamId}
    (read : fs <+: (writes p.effects).map Frame.wire) (some_data : dataOn i fs ≠ []) :
    i ∈ openIds fs := by
  obtain ⟨g, member⟩ := List.exists_mem_of_ne_nil _ some_data
  obtain ⟨there, kind⟩ := List.mem_filter.mp member
  rw [Bool.and_eq_true, beq_iff_eq] at kind
  obtain ⟨pre, post, rfl⟩ := List.append_of_mem there
  have upto : pre ++ [g] <+: pre ++ g :: post :=
    ⟨post, by rw [List.append_assoc, List.singleton_append]⟩
  rw [← kind.1]
  exact openIds_subset (List.prefix_append _ _) (out.behind pre g (upto.trans read) kind.2)

theorem known_seen (agree : Net.Agree K fits sound n) (s : SessionSide) {t : LogicalStream}
    (member : t ∈ known (n.peer s).effects) :
    t.streamId ∈ openIds (arrived (n.peer s).inputs) := by
  have announces := (agree.ledger s).announces
  have resolves := (agree.ledger s).resolves
  rcases List.mem_append.mp member with accepted | resolved
  · refine List.mem_append_left _ ?_
    rw [← announces]
    exact List.mem_append_left _ (List.mem_map_of_mem accepted)
  · refine List.mem_append_right _ ?_
    rw [← resolves]
    exact List.mem_map_of_mem resolved

theorem next_fresh (fifo : K.Fifo fits sound) (agree : Net.Agree K fits sound n)
    (apart : Net.Apart n) (s : SessionSide) (out : Outgoing (n.peer s.other)) {f : Frame}
    (next : (K.next (n.link s.other)).1 = some f) (opens : isData f = false) :
    Fresh (n.peer s).actor (n.peer s).inputs (n.peer s).effects f := by
  obtain ⟨-, head⟩ := fifo.next (n.link s.other) (agree.sound s.other)
  rw [next, Option.toList_some, List.singleton_append] at head
  have read : arrived (n.peer s).inputs ++ [f] <+:
      (writes (n.peer s.other).effects).map Frame.wire := by
    have whole := agree.fifo s.other
    rw [SessionSide.other_other, head] at whole
    exact ⟨_, by rw [whole, List.append_assoc]; rfl⟩
  have orderly := agree.next_orderly apart s head
  have new := next_open_new agree apart s read opens
  refine ⟨?_, ?_, ?_⟩
  · intro t member same
    exact new (same ▸ known_seen agree s member)
  · by_contra some_data
    exact new (data_opened out ((List.prefix_append _ _).trans read) some_data)
  · rcases isData_eq_false.mp opens with request | response
    · exact orderly.request f rfl request
    · exact (orderly.response f rfl response).1

/-- What `send_bytes` and `send_file` send. -/
def Submission.Own : Submission → Prop
  | .bytes payload => payload.length < 2 ^ 32
  | .file chunk => chunk.length < 2 ^ 32
  | .frame _ | .event _ => False

/-- Applications send on their own streams, through `send_bytes`, `send_file` and `close`. -/
def Net.Label.Own : Net.Label → Prop
  | .act _ (.submit _ what) | .act _ (.offer _ what) => what.Own
  | _ => True

theorem Submission.Own.event {what : Submission} (h : what.Own) (i : StreamId) :
    OwnEvent i (what.toEvent i) := by
  cases what with
  | bytes payload => exact .bytes payload h
  | file chunk =>
      rw [Submission.toEvent, fileFrame_eq]
      exact .bytes chunk h
  | frame f => exact h.elim
  | event e => exact h.elim

theorem Net.Label.Own.submits {s : SessionSide} {act : Peer.Act} (h : (Net.Label.act s act).Own) :
    ∀ what, act.Submits what → ∀ i, OwnEvent i (what.toEvent i) := by
  rintro what (⟨c, rfl⟩ | ⟨c, rfl⟩)
  · exact Submission.Own.event h
  · exact Submission.Own.event h

theorem OwnEvent.fair {i : StreamId} {e : StreamEvent} (h : OwnEvent i e) :
    Net.Fair (fun f => f.payload.length < 2 ^ 32) e := by
  cases e with
  | frame f =>
      obtain ⟨-, plain, short, -⟩ := h.frame
      exact ⟨plain, short⟩
  | closed j => trivial
  | error => trivial

theorem Net.Label.Own.fair {l : Net.Label} (h : l.Own) :
    l.Fair fun f => f.payload.length < 2 ^ 32 := by
  cases l with
  | act s act =>
      cases act with
      | submit c what | offer c what => exact fun i => (Submission.Own.event h i).fair
      | _ => trivial
  | _ => trivial

theorem flow_step {n' : Net L} {l : Net.Label} (fifo : K.Fifo fits sound) (ok : l.Own)
    (h : n.step K l = some n') (apart : Net.Apart n) (agree : Net.Agree K fits sound n)
    (flows : ∀ s, Flow (n.peer s)) (s : SessionSide) : Flow (n'.peer s) := by
  rcases Net.peer_step h s with same | ⟨f, a, es, head, hs, moved⟩ | ⟨act, rfl, moved⟩
  · rw [same]
    exact flows s
  · rw [moved]
    exact (flows s).reads (agree.ledger s) hs
      (next_fresh fifo agree apart s (flows s.other).outgoing head)
  · exact (flows s).acts (agree.ledger s) moved ok.submits

theorem fits_empty {f : Frame} (empty : f.payload = []) : f.payload.length < 2 ^ 32 := by
  rw [empty]
  exact Nat.two_pow_pos 32

theorem flow_run {sessionId : SessionSide → SessionId} {labels : List Net.Label}
    (fifo : K.Fifo (fun f => f.payload.length < 2 ^ 32) sound)
    (own : ∀ l ∈ labels, l.Own)
    (reached : run (Net.step K) (Net.spawn K sessionId) labels = some n) (apart : Net.Apart n) :
    Net.Agree K (fun f => f.payload.length < 2 ^ 32) sound n ∧ ∀ s, Flow (n.peer s) :=
  Net.run_agreeing fifo (fun _ => fits_empty) Net.Label.Own (fun m => ∀ s, Flow (m.peer s))
    (fun _ ok => ok.fair)
    (fun _ _ _ ok h apart' agree _ => flow_step fifo ok h (Net.apart_back h apart') agree)
    own reached apart (fun s => flow_spawn s (sessionId s))

/-- Each stream is made known to an application once. -/
theorem known_nodup (agree : Net.Agree K fits sound n) (apart : Net.Apart n) (s : SessionSide) :
    ((known (n.peer s).effects).map LogicalStream.streamId).Nodup := by
  have theirs := agree.accepted_allocated s.other
  rw [SessionSide.other_other] at theirs
  have mine := agree.resolved_allocated s
  rw [known, List.map_append]
  refine List.nodup_append.mpr ⟨(apart.nodup s.other).sublist theirs.sublist,
    (apart.nodup s).sublist mine.sublist, ?_⟩
  intro i accepted j resolved same
  subst same
  exact apart.disjoint s i (mine.subset resolved) (theirs.subset accepted)

theorem receivedOn_known {p : Peer} (nodup : ((known p.effects).map LogicalStream.streamId).Nodup)
    {t : LogicalStream} (member : t ∈ known p.effects) :
    p.receivedOn t.streamId = p.received t.frameReceiver := by
  rw [Peer.receivedOn, filter_key LogicalStream.streamId nodup member]
  exact List.append_nil _

theorem receivedOn_unknown {p : Peer} {i : StreamId}
    (unknown : ∀ t ∈ known p.effects, t.streamId ≠ i) : p.receivedOn i = [] := by
  rw [Peer.receivedOn, List.filter_eq_nil_iff.mpr]
  · rfl
  · intro t member
    simpa using unknown t member

/-- While an identifier is registered, what was read on its stream was read from the
channel of the registration. -/
theorem receivedOn_live {p : Peer} (flow : Flow p)
    (nodup : ((known p.effects).map LogicalStream.streamId).Nodup) {i : StreamId} {c : ChannelId}
    (live : p.actor.streams.get i = some c) : p.receivedOn i = p.received c := by
  by_cases told : ∃ t ∈ known p.effects, t.streamId = i
  · obtain ⟨t, member, rfl⟩ := told
    rw [receivedOn_known nodup member, flow.incoming.entry t member c live]
  · have unknown : ∀ t ∈ known p.effects, t.streamId ≠ i :=
      fun t member same => told ⟨t, member, same⟩
    rw [receivedOn_unknown unknown]
    by_contra some_read
    obtain ⟨t, member, rfl⟩ := flow.received.handed c (Ne.symm some_read)
    exact unknown t member (flow.incoming.owner t member i live).symm

/-- Frames of a party's own events reach the wire as they were submitted. -/
theorem framesOn_sealed {events : List (StreamId × StreamEvent)}
    (own : ∀ ie ∈ events, OwnEvent ie.1 ie.2) (i : StreamId) :
    (framesOn i events).map Frame.wire = (framesOn i events).map Frame.sealed := by
  refine List.map_congr_left ?_
  intro f member
  obtain ⟨⟨j, e⟩, there, found⟩ := List.mem_filterMap.mp member
  cases e with
  | frame g =>
      simp only [Option.ite_none_right_eq_some, Option.some.injEq] at found
      obtain ⟨-, rfl⟩ := found
      exact (own _ there).frame.2.2.2
  | closed k => cases found
  | error => cases found

theorem writingOn_sealed {p : Peer} (out : Outgoing p) (i : StreamId) :
    (writingOn i p.actor).map Frame.wire = (writingOn i p.actor).map Frame.sealed := by
  refine List.map_congr_left ?_
  intro f member
  unfold writingOn at member
  split at member
  · rename_i g hphase
    split at member
    · rw [List.mem_singleton.mp member]
      exact (out.writing g hphase).2
    · cases member
  · cases member

/-- Everything submitted on a stream has arrived, is in flight, is being written or waits. -/
theorem submitted_whole (agree : Net.Agree K fits sound n) {s : SessionSide}
    (flow : Flow (n.peer s)) (i : StreamId) :
    dataOn i (arrived (n.peer s.other).inputs) ++ (dataOn i (K.inFlight (n.link s)) ++
      ((writingOn i (n.peer s).actor).map Frame.sealed ++
        (framesOn i (n.peer s).events).map Frame.sealed)) =
      (framesOn i (n.peer s).submitted).map Frame.sealed := by
  have conserved := flow.outgoing.conserved i
  rw [agree.fifo s, dataOn_append, framesOn_sealed flow.own.submitted,
    framesOn_sealed flow.own.events, writingOn_sealed flow.outgoing] at conserved
  rw [conserved]
  simp only [List.append_assoc]

end net

/-- Per stream and direction: what has been read is a first part of what was submitted,
and while the reader's side has the stream in its map, what has been read, waits in the
channel, is on its way to the channel, is in the pipe, is being written and waits in the
event channel make up what was submitted. -/
structure Delivery {L : Type} (K : Link L) (n : Net L) : Prop where
  handle : ∀ s c h, (n.peer s).handles.get c = some h →
    (n.peer s).received c = (n.peer s).receivedOn h.stream.streamId
  begins : ∀ s i, (n.peer s.other).receivedOn i <+:
    (framesOn i (n.peer s).submitted).map Frame.sealed
  whole : ∀ s i c, (n.peer s.other).actor.streams.get i = some c →
    (n.peer s.other).receivedOn i ++ (n.peer s.other).queue c ++ held c (n.peer s.other).actor ++
      dataOn i (K.inFlight (n.link s)) ++ (writingOn i (n.peer s).actor).map Frame.sealed ++
      (framesOn i (n.peer s).events).map Frame.sealed =
    (framesOn i (n.peer s).submitted).map Frame.sealed

/-- However sends, actors, bytes and receives interleave, each stream delivers what was
submitted on it, once and in order. -/
theorem stream_delivery (sessionId : SessionSide → SessionId) (labels : List Net.Label)
    (n : Net BytePipe)
    (reached : run (Net.step byteLink) (Net.spawn byteLink sessionId) labels = some n)
    (own : ∀ l ∈ labels, l.Own) (only : opens .server labels = 0)
    (few : opens .client labels ≤ 2 ^ 32 - 1) : Delivery byteLink n := by
  have apart := apart_of_client_opens reached only few
  obtain ⟨agree, flows⟩ := flow_run byteLink_fifo own reached apart
  refine ⟨?_, ?_, ?_⟩
  · intro s c h found
    obtain ⟨-, t, member, same, there⟩ := (flows s).known.handles c h found
    rw [← same, receivedOn_known (known_nodup agree apart s) member, there]
  · intro s i
    by_cases told : ∃ t ∈ known (n.peer s.other).effects, t.streamId = i
    · obtain ⟨t, member, rfl⟩ := told
      have read : (n.peer s.other).received t.frameReceiver <+:
          puts t.frameReceiver (n.peer s.other).effects :=
        ⟨_, (flows s.other).received.order t.frameReceiver⟩
      rw [receivedOn_known (known_nodup agree apart s.other) member]
      exact read.trans (((flows s.other).incoming.past t member).trans
        ⟨_, submitted_whole agree (flows s) t.streamId⟩)
    · rw [receivedOn_unknown fun t member same => told ⟨t, member, same⟩]
      exact List.nil_prefix
  · intro s i c live
    rw [receivedOn_live (flows s.other) (known_nodup agree apart s.other) live,
      (flows s.other).received.order c, (flows s.other).incoming.live i c live,
      ← submitted_whole agree (flows s) i]
    simp only [List.append_assoc]

/-- Bytes are handed over in two pieces, the first ending inside a header, and read. -/
def handOver (s : SessionSide) (first : Nat) : List Net.Label :=
  [.deliver s first, .poll s.other, .deliver s 1000]

/-- One side opens its first stream; both applications hold an end of it. -/
def establishFrom (s : SessionSide) : List Net.Label :=
  openOnce s ++ handOver s 5 ++ serveOnce s.other ++ handOver s.other 9 ++
    [.poll s, .act s (.openReturns 0), .act s.other .acceptStream]

def establish : List Net.Label := establishFrom .client

theorem handOver_own (s : SessionSide) (first : Nat) : ∀ l ∈ handOver s first, l.Own := by
  simp [handOver, Net.Label.Own]

theorem establishFrom_own (s : SessionSide) : ∀ l ∈ establishFrom s, l.Own := by
  simp only [establishFrom, List.forall_mem_append]
  refine ⟨⟨⟨⟨?_, handOver_own s 5⟩, ?_⟩, handOver_own s.other 9⟩, ?_⟩
  · simp [openOnce, Net.Label.Own]
  · simp [serveOnce, Net.Label.Own]
  · simp [Net.Label.Own]

theorem establish_own : ∀ l ∈ establish, l.Own := establishFrom_own .client

/-- The client sends twice; the server has read the first frame. -/
def sendTwice : List Net.Label :=
  establish ++ [.act .client (.submit 0 (.bytes [1, 2, 3])), .act .client (.submit 0 (.file [4])),
      .act .client .event, .act .client .resume] ++ handOver .client 16 ++
    [.poll .server, .act .server .resume, .act .server (.recv 0)]

theorem sendTwice_own : ∀ l ∈ sendTwice, l.Own := by
  simp only [sendTwice, List.forall_mem_append]
  refine ⟨⟨⟨establish_own, ?_⟩, handOver_own .client 16⟩, ?_⟩
  · simp [Net.Label.Own, Submission.Own]
  · simp [Net.Label.Own]

theorem stream_delivery_send_twice :
    ∃ n, run (Net.step byteLink) (Net.spawn byteLink fun _ => ⟨1⟩) sendTwice = some n ∧
      (n.peer .server).receivedOn ⟨1⟩ = [(bytesFrame ⟨1⟩ [1, 2, 3]).sealed] ∧
      framesOn ⟨1⟩ (n.peer .client).events = [fileFrame ⟨1⟩ [4]] ∧ Delivery byteLink n := by
  have runs : ((run (Net.step byteLink) (Net.spawn byteLink fun _ => ⟨1⟩) sendTwice).map
      fun n => ((n.peer .server).receivedOn ⟨1⟩, framesOn ⟨1⟩ (n.peer .client).events)) =
        some ([(bytesFrame ⟨1⟩ [1, 2, 3]).sealed], [fileFrame ⟨1⟩ [4]]) := by
    decide +kernel
  obtain ⟨n, reached, values⟩ := Option.map_eq_some_iff.mp runs
  obtain ⟨read, waiting⟩ := Prod.mk.inj values
  exact ⟨n, reached, read, waiting, stream_delivery (fun _ => ⟨1⟩) sendTwice n reached
    sendTwice_own (by decide) (by decide)⟩

end Foctet.Mux
