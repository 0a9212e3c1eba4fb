import Foctet.Lib.Simulation
import Foctet.Mux.Closing

/-! What two sessions are for: any number of named streams, each of them a queue in either
direction. The actors, the channels around them, the frames and the byte pipe are what they
are made of. -/
namespace Foctet.Mux
open Foctet.Core Foctet.Lib
open SessionActor (Input accepted acceptedIds resolvedIds)

/-- One thing that a side gets to see. -/
inductive Seen where
  /-- its session has taken up a call of `open_stream` -/
  | offered (i : StreamId)
  /-- a stream the other side offered waits to be accepted -/
  | announced (i : StreamId)
  /-- `open_stream` or `accept_stream` has returned -/
  | opened (i : StreamId)
  | accepted (i : StreamId)
  | sent (i : StreamId) (f : Frame)
  | received (i : StreamId) (f : Frame)
  deriving DecidableEq, Repr

/-- The stream that is used, rather than come by. -/
def Seen.stream : Seen → Option StreamId
  | .sent i _ | .received i _ => some i
  | .offered _ | .announced _ | .opened _ | .accepted _ => none

/-- All that one side has seen. -/
structure Face where
  offered : List StreamId
  announced : List StreamId
  opened : List StreamId
  accepted : List StreamId
  sent : StreamId → List Frame
  received : StreamId → List Frame

def Face.empty : Face := ⟨[], [], [], [], fun _ => [], fun _ => []⟩

def Face.after (x : Face) : Seen → Face
  | .offered i => { x with offered := x.offered ++ [i] }
  | .announced i => { x with announced := x.announced ++ [i] }
  | .opened i => { x with opened := x.opened ++ [i] }
  | .accepted i => { x with accepted := x.accepted ++ [i] }
  | .sent i f => { x with sent := Function.update x.sent i (x.sent i ++ [f]) }
  | .received i f => { x with received := Function.update x.received i (x.received i ++ [f]) }

def Face.Holds (x : Face) (i : StreamId) : Prop := i ∈ x.opened ∨ i ∈ x.accepted

instance (x : Face) (i : StreamId) : Decidable (x.Holds i) := inferInstanceAs (Decidable (_ ∨ _))

abbrev Channels := SessionSide → Face

namespace Channels

/-- A stream is offered under a new name, announced in the order of the offers, returned to
the side that offered it once it was announced, and accepted in the order of the
announcements. Whoever holds an end may send, and gets what was sent at the other end, in
order, with nothing left out and nothing twice. -/
def Allows (c : Channels) (s : SessionSide) : Seen → Prop
  | .offered i => i ∉ (c s).offered ∧ i ∉ (c s.other).offered
  | .announced i => (c s).announced ++ [i] <+: (c s.other).offered
  | .opened i => i ∈ (c s.other).announced ∧ i ∉ (c s).opened
  | .accepted i => (c s).accepted ++ [i] <+: (c s).announced
  | .sent i _ => (c s).Holds i
  | .received i f => (c s).Holds i ∧ (c s).received i ++ [f] <+: (c s.other).sent i

instance (c : Channels) (s : SessionSide) : DecidablePred (c.Allows s)
  | .offered _ | .opened _ | .received _ _ => inferInstanceAs (Decidable (_ ∧ _))
  | .announced _ | .accepted _ => inferInstanceAs (Decidable (_ <+: _))
  | .sent _ _ => inferInstanceAs (Decidable (Face.Holds _ _))

def step (c : Channels) (e : SessionSide × Seen) : Option Channels :=
  if c.Allows e.1 e.2 then some (Function.update c e.1 ((c e.1).after e.2)) else none

end Channels

/-- What an event on a stream is to the one who sends it. -/
def StreamEvent.seen (i : StreamId) : StreamEvent → Option Seen
  | .frame f => some (.sent i f.sealed)
  | .closed _ | .error => none

namespace Peer

def face (p : Peer) : Face where
  offered := p.allocated
  announced := acceptedIds p.effects
  opened := p.returned.map LogicalStream.streamId
  accepted := p.taken.map LogicalStream.streamId
  sent i := (framesOn i p.submitted).map Frame.sealed
  received := p.receivedOn

/-- What a step shows to its own side. -/
def observe (p : Peer) : Act → Option Seen
  | .command =>
      match p.commands with
      | .openStream _ :: _ => some (.offered p.actor.nextStreamId)
      | _ => none
  | .resume => (SessionActor.announcing p.actor).head?.map .announced
  | .openReturns reply =>
      match p.replies.get reply with
      | some (.ok s) => some (.opened s.streamId)
      | _ => none
  | .acceptStream => p.accepts.head?.map fun s => .accepted s.streamId
  | .submit c what =>
      (p.handles.get c).bind fun h => (what.toEvent h.stream.streamId).seen h.stream.streamId
  | .push c =>
      if p.actor.phase = .left then none
      else (p.handles.get c).bind fun h => h.todo.head?.bind (·.seen h.stream.streamId)
  | .recv c =>
      (p.handles.get c).bind fun h => (p.queue c).head?.map (.received h.stream.streamId)
  | .event | .cancel | .openStream | .shutdown | .split _ | .offer _ _ | .close _ | .drop _
  | .dropReader _ => none

end Peer

namespace Net
variable {L : Type}

def channels (n : Net L) : Channels := fun s => (n.peer s).face

def observe (n : Net L) : Label → Option (SessionSide × Seen)
  | .act s act => ((n.peer s).observe act).map (s, ·)
  | .deliver _ _ | .poll _ => none

end Net

/-- The channels a step opens and reads are those of the streams made known. -/
structure Peer.Settled (p : Peer) : Prop where
  flow : Flow p
  nodup : ((known p.effects).map LogicalStream.streamId).Nodup

namespace Peer
variable {p p' : Peer}

theorem known_eq (settled : p.Settled) {s t : LogicalStream} (hs : s ∈ known p.effects)
    (ht : t ∈ known p.effects) (same : s.streamId = t.streamId) : s = t :=
  List.inj_on_of_nodup_map settled.nodup hs ht same

/-- Nothing has been read yet on a stream that the actor makes known. -/
theorem receivedOn_grown (before : p.Settled) (after : p'.Settled) {es : List Effect}
    (effects : p'.effects = p.effects ++ es) (received : p'.received = p.received) :
    p'.receivedOn = p.receivedOn := by
  have kept {t : LogicalStream} (member : t ∈ known p.effects) : t ∈ known p'.effects :=
    effects ▸ known_append es member
  funext i
  by_cases told : ∃ t ∈ known p'.effects, t.streamId = i
  · obtain ⟨t, member, rfl⟩ := told
    rw [receivedOn_known after.nodup member, received]
    by_cases old : t ∈ known p.effects
    · rw [receivedOn_known before.nodup old]
    · have unknown : ∀ u ∈ known p.effects, u.streamId ≠ t.streamId := by
        intro u there same
        exact old (known_eq after (kept there) member same ▸ there)
      rw [receivedOn_unknown unknown]
      by_contra some_read
      obtain ⟨u, there, same⟩ := before.flow.received.handed _ some_read
      exact unknown u there (after.flow.incoming.channels u (kept there) t member same)
  · have unknown : ∀ t ∈ known p'.effects, t.streamId ≠ i :=
      fun t member same => told ⟨t, member, same⟩
    rw [receivedOn_unknown unknown, receivedOn_unknown]
    exact fun t member => unknown t (kept member)

/-- A frame read through a handle is read on the handle's stream. -/
theorem receivedOn_recv (settled : p.Settled) {c : ChannelId} {h : Handle} {f : Frame}
    (found : p.handles.get c = some h) (effects : p'.effects = p.effects)
    (received : p'.received = fun d => if d = c then p.received d ++ [f] else p.received d) :
    p'.receivedOn = Function.update p.receivedOn h.stream.streamId
      (p.receivedOn h.stream.streamId ++ [f]) := by
  obtain ⟨-, t, member, own, there⟩ := settled.flow.known.handles c h found
  have nodup' : ((known p'.effects).map LogicalStream.streamId).Nodup := effects ▸ settled.nodup
  rw [← own]
  funext i
  rcases eq_or_ne i t.streamId with rfl | other
  · rw [Function.update_self, receivedOn_known nodup' (effects ▸ member),
      receivedOn_known settled.nodup member, received, there]
    exact if_pos rfl
  · rw [Function.update_of_ne other]
    by_cases told : ∃ u ∈ known p.effects, u.streamId = i
    · obtain ⟨u, heard, rfl⟩ := told
      have elsewhere : u.frameReceiver ≠ c := by
        intro same
        exact other (settled.flow.incoming.channels u heard t member (same.trans there.symm))
      rw [receivedOn_known nodup' (effects ▸ heard), receivedOn_known settled.nodup heard, received]
      exact if_neg elsewhere
    · have unknown : ∀ u ∈ known p.effects, u.streamId ≠ i := fun u heard same => told ⟨u, heard, same⟩
      rw [receivedOn_unknown unknown, receivedOn_unknown (effects ▸ unknown)]

theorem framesOn_concat (i j : StreamId) (f : Frame) (events : List (StreamId × StreamEvent)) :
    framesOn i (events ++ [(j, .frame f)]) =
      if j = i then framesOn i events ++ [f] else framesOn i events := by
  rw [framesOn_append]
  by_cases mine : j = i <;> simp [framesOn, mine]

/-- An event handed to the event channel is seen as what was sent, and changes nothing else. -/
theorem face_queued (p : Peer) (i : StreamId) (e : StreamEvent) :
    (p.queued i e).face = (e.seen i).elim p.face p.face.after := by
  have whole : (p.queued i e).face = { p.face with
      sent := fun j => (framesOn j (p.submitted ++ [(i, e)])).map Frame.sealed } := rfl
  rw [whole]
  cases e with
  | frame f =>
      simp only [StreamEvent.seen, Option.elim_some, Face.after]
      congr 1
      funext j
      rw [framesOn_concat]
      rcases eq_or_ne j i with rfl | other
      · rw [if_pos rfl, Function.update_self, List.map_append]
        rfl
      · rw [if_neg other.symm, Function.update_of_ne other]
        rfl
  | closed k =>
      simp only [framesOn_append]
      simp [framesOn, StreamEvent.seen, face]
  | error =>
      simp only [framesOn_append]
      simp [framesOn, StreamEvent.seen, face]

/-- An input to the actor shows at most an announcement, besides what it was taken up with. -/
theorem face_advance {q : Peer} {x : Input} {a : SessionActor} {es : List Effect}
    (before : p.Settled) (after : (q.advance x a es).Settled) (effects : q.effects = p.effects)
    (received : q.received = p.received) :
    (q.advance x a es).face =
      { q.face with announced := acceptedIds q.effects ++ acceptedIds es } := by
  have read : (q.advance x a es).receivedOn = q.receivedOn := by
    rw [receivedOn_grown before after (by rw [← effects]; rfl) (by rw [← received, advance_received])]
    unfold receivedOn
    rw [effects, received]
  unfold face
  rw [read, advance_effects, SessionActor.acceptedIds_append, advance_allocated, advance_returned,
    advance_taken, advance_submitted]

/-- What an input lets an actor announce. -/
def announces (a : SessionActor) : Input → List StreamId
  | .resume _ => SessionActor.announcing a
  | _ => []

theorem acceptedIds_step {a a' : SessionActor} {x : Input} {es : List Effect}
    (hs : SessionActor.Step a x a' es)
    (works : x = .resume false → ∀ s, a.phase ≠ .awaiting (.announce s)) :
    acceptedIds es = announces a x := by
  cases hs with
  | forwarded top | forwardFailed top | announced top | responded top | respondFailed top
    | requested top | requestFailed top | written top | writeFailed top =>
      simp only [announces, SessionActor.announcing, top]
      rfl
  | announceFailed top => exact absurd top (works rfl _)
  | _ => rfl

/-- Sending on the accept channel does not fail. -/
theorem outcome_announce {s : LogicalStream} (announcing : p.actor.phase = .awaiting (.announce s)) :
    p.outcome ≠ some false := by
  simp only [outcome, announcing]
  split <;> simp

/-- Each step of a party shows its side what it adds to all that side has seen. -/
theorem face_step {act : Act} (h : p.step act = some p') (before : p.Settled) (after : p'.Settled) :
    p'.face = (p.observe act).elim p.face p.face.after := by
  have moved := step_moved h
  cases moved with
  | @command cmd rest a es waiting hs =>
      rw [face_advance before after rfl rfl, acceptedIds_step hs (fun failed => by cases failed)]
      cases cmd with
      | openStream reply =>
          simp only [observe, announces, waiting, Option.elim_some, Face.after, List.append_nil]
          rfl
      | shutdown reply =>
          simp only [observe, announces, waiting, Option.elim_none, List.append_nil]
          rfl
  | event waiting hs =>
      rw [face_advance before after rfl rfl, acceptedIds_step hs (fun failed => by cases failed)]
      simp only [observe, announces, Option.elim_none, List.append_nil]
      rfl
  | @resume ok a es ends hs =>
      have works (failed : Input.resume ok = .resume false) (s : LogicalStream)
          (announcing : p.actor.phase = .awaiting (.announce s)) : False := by
        cases failed
        exact outcome_announce announcing ends
      rw [face_advance before after rfl rfl, acceptedIds_step hs works]
      simp only [observe, announces]
      unfold SessionActor.announcing
      split
      · rfl
      · rw [List.append_nil]
        rfl
  | cancel hs =>
      rw [face_advance before after rfl rfl, acceptedIds_step hs (fun failed => by cases failed)]
      simp only [observe, announces, Option.elim_none, List.append_nil]
      rfl
  | openFails failed =>
      simp only [observe, failed, Option.elim_none]
      rfl
  | openReturns returned =>
      simp only [observe, returned, Option.elim_some, Face.after, face, List.map_append]
      rfl
  | acceptStream waiting =>
      simp only [observe, waiting, List.head?_cons, Option.map_some, Option.elim_some, Face.after,
        face, List.map_append]
      rfl
  | submit found =>
      simp only [observe, found, Option.bind_some]
      exact face_queued p _ _
  | pushFails found rest left =>
      simp only [observe, left, if_true, Option.elim_none]
      rfl
  | @push c handle e todo found rest =>
      have running : p.actor.phase ≠ .left := by
        intro left
        simp only [step, found, Option.bind_some, push, rest, left, if_true] at h
        have grown := congrArg Peer.submitted (Option.some.inj h)
        simp [queued] at grown
      simp only [observe, if_neg running, found, rest, Option.bind_some, List.head?_cons]
      exact face_queued p _ _
  | recv found waiting =>
      simp only [observe, found, waiting, Option.bind_some, List.head?_cons, Option.map_some,
        Option.elim_some, Face.after]
      unfold face
      congr 1
      exact receivedOn_recv before found rfl rfl
  | openStream | shutdown | split | offer | close | drop | dropReader => rfl

/-- A frame that the actor takes off the reader shows nothing yet. -/
theorem face_reads {f : Frame} {a : SessionActor} {es : List Effect} (before : p.Settled)
    (hs : SessionActor.Step p.actor (.frame f) a es) (after : (p.advance (.frame f) a es).Settled) :
    (p.advance (.frame f) a es).face = p.face := by
  rw [face_advance before after rfl rfl, acceptedIds_step hs (fun failed => by cases failed)]
  simp only [announces, List.append_nil]
  rfl

/-- An application uses streams that were handed to it. -/
theorem face_holds (settled : p.Settled) (handed : Handed p) {c : ChannelId} {h : Handle}
    (found : p.handles.get c = some h) : p.face.Holds h.stream.streamId := by
  obtain ⟨s, given, mine⟩ := handed.handles c h found
  obtain ⟨-, t, member, own, there⟩ := settled.flow.known.handles c h found
  have same := settled.flow.incoming.channels s (handed.known given) t member
    (mine.trans there.symm)
  rw [← own, ← same]
  exact (List.mem_append.mp given).imp List.mem_map_of_mem List.mem_map_of_mem

/-- What is seen through a handle is seen on the stream of the handle. -/
theorem observe_uses {act : Act} {seen : Seen} (shown : p.observe act = some seen) {i : StreamId}
    (uses : seen.stream = some i) : ∃ c h, p.handles.get c = some h ∧ h.stream.streamId = i := by
  have event {j : StreamId} {e : StreamEvent} (sent : e.seen j = some seen) : j = i := by
    cases e with
    | frame f =>
        cases sent
        exact Option.some.inj uses
    | closed k => cases sent
    | error => cases sent
  cases act with
  | command | openReturns reply =>
      simp only [observe] at shown
      split at shown
      · cases shown
        cases uses
      · cases shown
  | resume | acceptStream =>
      obtain ⟨_, -, rfl⟩ := Option.map_eq_some_iff.mp shown
      cases uses
  | submit c what =>
      obtain ⟨h, found, sent⟩ := Option.bind_eq_some_iff.mp shown
      exact ⟨c, h, found, event sent⟩
  | push c =>
      simp only [observe] at shown
      split at shown
      · cases shown
      · obtain ⟨h, found, next⟩ := Option.bind_eq_some_iff.mp shown
        obtain ⟨e, -, sent⟩ := Option.bind_eq_some_iff.mp next
        exact ⟨c, h, found, event sent⟩
  | recv c =>
      obtain ⟨h, found, next⟩ := Option.bind_eq_some_iff.mp shown
      obtain ⟨_, -, rfl⟩ := Option.map_eq_some_iff.mp next
      exact ⟨c, h, found, Option.some.inj uses⟩
  | _ => cases shown

end Peer

section net
variable {L : Type} {K : Link L} {fits : Frame → Prop} {sound : L → Prop} {n n' : Net L}

/-- What a side has had resolved, the other has announced. -/
theorem resolved_announced (agree : Net.Agree K fits sound n) (s : SessionSide) {i : StreamId}
    (member : i ∈ resolvedIds (n.peer s).effects) : i ∈ acceptedIds (n.peer s.other).effects := by
  rw [(agree.ledger s).resolves] at member
  have answered : i ∈ responseIds ((writes (n.peer s.other).effects).map Frame.wire) :=
    ((agree.arrived_read s).filterMap _).subset member
  have announced : responseIds ((writes (n.peer s.other).effects).map Frame.wire) <+:
      acceptedIds (n.peer s.other).effects := ⟨_, (agree.ledger s.other).responses⟩
  exact announced.subset answered

theorem received_submitted (agree : Net.Agree K fits sound n)
    (settled : ∀ s, (n.peer s).Settled) (s : SessionSide) (i : StreamId) :
    (n.peer s).receivedOn i <+: (framesOn i (n.peer s.other).submitted).map Frame.sealed := by
  by_cases told : ∃ t ∈ known (n.peer s).effects, t.streamId = i
  · obtain ⟨t, member, rfl⟩ := told
    have read : (n.peer s).received t.frameReceiver <+: SessionActor.puts t.frameReceiver
        (n.peer s).effects := ⟨_, (settled s).flow.received.order t.frameReceiver⟩
    have whole := submitted_whole agree (settled s.other).flow t.streamId
    rw [SessionSide.other_other] at whole
    rw [receivedOn_known (settled s).nodup member]
    exact read.trans (((settled s).flow.incoming.past t member).trans ⟨_, whole⟩)
  · rw [receivedOn_unknown fun t member same => told ⟨t, member, same⟩]
    exact List.nil_prefix

/-- What holds between two sessions all along a run in which no identifier is handed out twice. -/
structure Sound (K : Link L) (n : Net L) : Prop where
  apart : Net.Apart n
  agree : ∃ fits sound, Net.Agree K fits sound n
  settled : ∀ s, (n.peer s).Settled
  handed : ∀ s, Handed (n.peer s)

theorem sound_run {sessionId : SessionSide → SessionId} {labels : List Net.Label} {sound : L → Prop}
    (fifo : K.Fifo (fun f => f.payload.length < 2 ^ 32) sound) (own : ∀ l ∈ labels, l.Own)
    (reached : run (Net.step K) (Net.spawn K sessionId) labels = some n) (apart : Net.Apart n) :
    Sound K n := by
  obtain ⟨agree, flows⟩ := flow_run fifo own reached apart
  refine ⟨apart, ⟨_, _, agree⟩, fun s => ⟨flows s, known_nodup agree apart s⟩, ?_⟩
  exact fun s => (closing_run reached s).handed

/-- What a side comes to see is allowed, given what both have seen before. -/
theorem allowed (before : Sound K n) (after : Sound K n') {s : SessionSide} {act : Peer.Act}
    {seen : Seen} (shown : (n.peer s).observe act = some seen)
    (mine : (n'.peer s).face = (n.peer s).face.after seen)
    (theirs : (n'.peer s.other).face = (n.peer s.other).face) : n.channels.Allows s seen := by
  obtain ⟨fits, sound, agree⟩ := after.agree
  have holds {i : StreamId} (uses : seen.stream = some i) : (n.peer s).face.Holds i := by
    obtain ⟨c, h, found, rfl⟩ := (n.peer s).observe_uses shown uses
    exact Peer.face_holds (before.settled s) (before.handed s) found
  cases seen with
  | offered i =>
      have ids : (n'.peer s).allocated = (n.peer s).allocated ++ [i] := congrArg Face.offered mine
      have others : (n'.peer s.other).allocated = (n.peer s.other).allocated :=
        congrArg Face.offered theirs
      have last : i ∈ (n'.peer s).allocated := by
        rw [ids]
        exact List.mem_append_right _ List.mem_cons_self
      have apart := after.apart.disjoint s i last
      rw [others] at apart
      refine ⟨?_, apart⟩
      have nodup := after.apart.nodup s
      rw [ids] at nodup
      exact fun old => (List.nodup_append.mp nodup).2.2 i old i List.mem_cons_self rfl
  | announced i =>
      have order := agree.accepted_allocated s.other
      rw [SessionSide.other_other] at order
      rw [show acceptedIds (n'.peer s).effects = _ from congrArg Face.announced mine,
        show (n'.peer s.other).allocated = _ from congrArg Face.offered theirs] at order
      exact order
  | opened i =>
      have ids : (n'.peer s).returned.map LogicalStream.streamId = _ := congrArg Face.opened mine
      have claimed := (after.handed s).claimed
      have last : i ∈ (n'.peer s).returned.map LogicalStream.streamId := by
        rw [ids]
        exact List.mem_append_right _ List.mem_cons_self
      obtain ⟨t, returned, rfl⟩ := List.mem_map.mp last
      have announced := resolved_announced agree s (List.mem_map_of_mem (claimed.returned t returned))
      refine ⟨(congrArg Face.announced theirs : acceptedIds _ = _) ▸ announced, ?_⟩
      have nodup := claimed.ids_nodup
        ((after.apart.nodup s).sublist (agree.resolved_allocated s).sublist)
      rw [ids] at nodup
      exact fun old => (List.nodup_append.mp nodup).2.2 _ old _ List.mem_cons_self rfl
  | accepted i =>
      have queue : (n'.peer s).face.accepted <+: (n'.peer s).face.announced := by
        have whole := congrArg (List.map LogicalStream.streamId) (after.handed s).accepts
        rw [List.map_append] at whole
        exact ⟨_, whole⟩
      rw [mine] at queue
      exact queue
  | sent i f => exact holds rfl
  | received i f =>
      refine ⟨holds rfl, ?_⟩
      have order := received_submitted agree after.settled s i
      rw [show (n'.peer s).receivedOn = _ from congrArg Face.received mine,
        show (framesOn i (n'.peer s.other).submitted).map Frame.sealed = _ from
          congrFun (congrArg Face.sent theirs) i] at order
      simp only [Face.after, Function.update_self] at order
      exact order

/-- One step of two sessions is one step of the channels, or none. -/
theorem step_channels {l : Net.Label} (h : n.step K l = some n') (before : Sound K n)
    (after : Sound K n') :
    run Channels.step n.channels (n.observe l).toList = some n'.channels := by
  cases l with
  | deliver s amount =>
      cases h
      rfl
  | poll s =>
      rcases Net.poll_some h with ⟨-, rfl⟩ | ⟨f, a, es, -, hs, rfl⟩
      · rfl
      · refine congrArg some (funext fun t => ?_)
        have settled := after.settled s
        rw [Net.replace_peer_self] at settled
        rcases s.eq_or_other t with rfl | rfl
        · rw [Net.channels, Net.channels, Net.replace_peer_self]
          exact (Peer.face_reads (before.settled _) hs settled).symm
        · rw [Net.channels, Net.channels, Net.replace_peer_other]
          rfl
  | act s act =>
      obtain ⟨p, hp, rfl⟩ := Option.map_eq_some_iff.mp h
      have settled := after.settled s
      rw [Net.replace_peer_self] at settled
      have face := Peer.face_step hp (before.settled s) settled
      have theirs : ((n.replace K s p).peer s.other).face = (n.peer s.other).face := by
        rw [Net.replace_peer_other]
      have whole : (n.replace K s p).channels = Function.update n.channels s p.face := by
        funext t
        rcases s.eq_or_other t with rfl | rfl
        · rw [Function.update_self, Net.channels, Net.replace_peer_self]
        · rw [Function.update_of_ne s.other_ne]
          exact theirs
      rw [whole, face]
      cases shown : (n.peer s).observe act with
      | none =>
          simp only [Net.observe, shown, Option.map_none, Option.toList_none, run, Option.elim_none]
          exact congrArg some (Function.update_eq_self s n.channels).symm
      | some seen =>
          rw [shown, Option.elim_some] at face
          have ok := allowed before after shown (by rw [Net.replace_peer_self, face]) theirs
          simp only [Net.observe, shown, Option.map_some, Option.toList_some, Option.elim_some, run,
            Channels.step, if_pos ok, Option.bind_some]
          rfl

end net

/-- Whatever two sessions do, to their applications they are a bundle of queues. -/
theorem sessions_refine_channels (sessionId : SessionSide → SessionId) (labels : List Net.Label)
    (n : Net BytePipe)
    (reached : run (Net.step byteLink) (Net.spawn byteLink sessionId) labels = some n)
    (own : ∀ l ∈ labels, l.Own) (only : opens .server labels = 0)
    (few : opens .client labels ≤ 2 ^ 32 - 1) :
    run Channels.step (fun _ => Face.empty)
      (observed (Net.step byteLink) (fun m l => (m.observe l).toList) (Net.spawn byteLink sessionId)
        labels) = some n.channels := by
  have apart := apart_of_client_opens reached only few
  refine run_simulates Net.channels ?_ reached
  rintro pre l post m m' rfl hpre hstep
  obtain ⟨k, first, rest⟩ := run_append_some.mp reached
  obtain ⟨k', next, last⟩ := run_cons_some.mp rest
  obtain rfl : m = k := Option.some.inj (hpre.symm.trans first)
  obtain rfl : m' = k' := Option.some.inj (hstep.symm.trans next)
  have later := run_back Net.Apart (fun _ _ _ => Net.apart_back) last apart
  have pieces := List.forall_mem_append.mp own
  refine step_channels hstep (sound_run byteLink_fifo pieces.1 hpre (Net.apart_back hstep later))
    (sound_run byteLink_fifo ?_ (run_concat_some.mpr ⟨m, hpre, hstep⟩) later)
  rw [List.forall_mem_append]
  exact ⟨pieces.1, fun x member =>
    List.mem_singleton.mp member ▸ pieces.2 l List.mem_cons_self⟩

theorem sessions_refine_channels_send_twice :
    ∃ n, run (Net.step byteLink) (Net.spawn byteLink fun _ => ⟨1⟩) sendTwice = some n ∧
      run Channels.step (fun _ => Face.empty)
        [(.client, .offered ⟨1⟩), (.server, .announced ⟨1⟩), (.client, .opened ⟨1⟩),
          (.server, .accepted ⟨1⟩), (.client, .sent ⟨1⟩ (bytesFrame ⟨1⟩ [1, 2, 3]).sealed),
          (.client, .sent ⟨1⟩ (fileFrame ⟨1⟩ [4]).sealed),
          (.server, .received ⟨1⟩ (bytesFrame ⟨1⟩ [1, 2, 3]).sealed)] = some n.channels := by
  have runs : (run (Net.step byteLink) (Net.spawn byteLink fun _ => ⟨1⟩) sendTwice).isSome = true := by
    decide +kernel
  obtain ⟨n, reached⟩ := Option.isSome_iff_exists.mp runs
  have refines := sessions_refine_channels (fun _ => ⟨1⟩) sendTwice n reached sendTwice_own
    (by decide) (by decide)
  have trace : observed (Net.step byteLink) (fun m l => (m.observe l).toList)
      (Net.spawn byteLink fun _ => ⟨1⟩) sendTwice =
        [(.client, .offered ⟨1⟩), (.server, .announced ⟨1⟩), (.client, .opened ⟨1⟩),
          (.server, .accepted ⟨1⟩), (.client, .sent ⟨1⟩ (bytesFrame ⟨1⟩ [1, 2, 3]).sealed),
          (.client, .sent ⟨1⟩ (fileFrame ⟨1⟩ [4]).sealed),
          (.server, .received ⟨1⟩ (bytesFrame ⟨1⟩ [1, 2, 3]).sealed)] := by
    decide +kernel
  exact ⟨n, reached, trace ▸ refines⟩

end Foctet.Mux
