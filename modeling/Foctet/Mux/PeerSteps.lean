import Foctet.Mux.Peer
import Foctet.Mux.Routing

/-! Every step a party can take, with its guard, and what the actor's effects
leave alone. -/
namespace Foctet.Mux
open Foctet.Core Foctet.Lib
open SessionActor (Input)

namespace Peer

/-- The party after its actor has gone from input to result. -/
def advance (p : Peer) (x : Input) (a : SessionActor) (es : List Effect) : Peer :=
  { es.foldl apply p with
    actor := a
    inputs := p.inputs ++ [x]
    effects := p.effects ++ es }

theorem take_some {p p' : Peer} {x : Input} (h : p.take x = some p') :
    ∃ a es, SessionActor.Step p.actor x a es ∧ p' = p.advance x a es := by
  obtain ⟨⟨a, es⟩, hstep, rfl⟩ := Option.map_eq_some_iff.mp h
  exact ⟨a, es, SessionActor.step_cases hstep, rfl⟩

/-- What no single effect changes, no list of effects changes. -/
theorem foldl_apply_same {α : Type} (g : Peer → α) (same : ∀ p e, g (apply p e) = g p)
    (es : List Effect) (p : Peer) : g (es.foldl apply p) = g p := by
  induction es generalizing p with
  | nil => rfl
  | cons e es ih => exact (ih (apply p e)).trans (same p e)

section fields
variable (p : Peer) (x : Input) (a : SessionActor) (es : List Effect)

@[simp] theorem advance_inputs : (p.advance x a es).inputs = p.inputs ++ [x] := rfl
@[simp] theorem advance_effects : (p.advance x a es).effects = p.effects ++ es := rfl

@[simp] theorem advance_commands : (p.advance x a es).commands = p.commands :=
  foldl_apply_same Peer.commands (fun _ e => by cases e <;> rfl) es p

@[simp] theorem advance_events : (p.advance x a es).events = p.events :=
  foldl_apply_same Peer.events (fun _ e => by cases e <;> rfl) es p

@[simp] theorem advance_alive : (p.advance x a es).alive = p.alive :=
  foldl_apply_same Peer.alive (fun _ e => by cases e <;> rfl) es p

@[simp] theorem advance_handles : (p.advance x a es).handles = p.handles :=
  foldl_apply_same Peer.handles (fun _ e => by cases e <;> rfl) es p

@[simp] theorem advance_allocated : (p.advance x a es).allocated = p.allocated :=
  foldl_apply_same Peer.allocated (fun _ e => by cases e <;> rfl) es p

@[simp] theorem advance_submitted : (p.advance x a es).submitted = p.submitted :=
  foldl_apply_same Peer.submitted (fun _ e => by cases e <;> rfl) es p

@[simp] theorem advance_sent : (p.advance x a es).sent = p.sent :=
  foldl_apply_same Peer.sent (fun _ e => by cases e <;> rfl) es p

@[simp] theorem advance_received : (p.advance x a es).received = p.received :=
  foldl_apply_same Peer.received (fun _ e => by cases e <;> rfl) es p

@[simp] theorem advance_returned : (p.advance x a es).returned = p.returned :=
  foldl_apply_same Peer.returned (fun _ e => by cases e <;> rfl) es p

@[simp] theorem advance_taken : (p.advance x a es).taken = p.taken :=
  foldl_apply_same Peer.taken (fun _ e => by cases e <;> rfl) es p

@[simp] theorem advance_marks : (p.advance x a es).marks = p.marks :=
  foldl_apply_same Peer.marks (fun _ e => by cases e <;> rfl) es p

end fields

theorem foldl_apply_queue (es : List Effect) (p : Peer) (c : ChannelId) :
    (es.foldl apply p).queue c = p.queue c ++ SessionActor.puts c es := by
  induction es generalizing p with
  | nil => exact (List.append_nil _).symm
  | cons e es ih =>
      have now : (apply p e).queue c = p.queue c ++ SessionActor.puts c [e] := by
        cases e with
        | put d f =>
            by_cases same : c = d
            · simp [apply, SessionActor.puts, same]
            · simp [apply, SessionActor.puts, same, Ne.symm same]
        | _ => simp [apply, SessionActor.puts]
      have joined : SessionActor.puts c (e :: es) =
          SessionActor.puts c [e] ++ SessionActor.puts c es := by
        simp only [SessionActor.puts, ← List.filterMap_append, List.singleton_append]
      rw [List.foldl_cons, ih, now, joined, List.append_assoc]

/-- The actor's effects reach a stream's channel behind what waits there. -/
theorem advance_queue (p : Peer) (x : Input) (a : SessionActor) (es : List Effect)
    (c : ChannelId) : (p.advance x a es).queue c = p.queue c ++ SessionActor.puts c es :=
  foldl_apply_queue es p c

theorem afterRecv_stream (h : Handle) (flags : FrameFlags) :
    (h.afterRecv flags).stream.streamId = h.stream.streamId ∧
      (h.afterRecv flags).stream.frameReceiver = h.stream.frameReceiver ∧
      (h.afterRecv flags).todo = h.todo := by
  unfold Handle.afterRecv
  split
  · exact ⟨rfl, rfl, rfl⟩
  · exact ⟨LogicalStream.setStateFromFlags_streamId _ _,
      LogicalStream.setStateFromFlags_frameReceiver _ _, rfl⟩

/-- The event channel after one more event. -/
def queued (p : Peer) (streamId : StreamId) (event : StreamEvent) : Peer :=
  { p with
    events := p.events ++ [(streamId, event)]
    submitted := p.submitted ++ [(streamId, event)] }

theorem enqueue_some {p p' : Peer} {streamId : StreamId} {event : StreamEvent}
    (h : p.enqueue streamId event = some p') :
    p.actor.phase ≠ .left ∧ p.events.length < eventCapacity ∧ p' = p.queued streamId event := by
  unfold enqueue at h
  split at h
  · rename_i room
    cases h
    exact ⟨room.1, room.2, rfl⟩
  · cases h

inductive Moved : Peer → Act → Peer → Prop
  | command {p cmd rest a es} : p.commands = cmd :: rest →
      SessionActor.Step p.actor (.command cmd) a es →
      Moved p .command ({ p with commands := rest, allocated := p.noteAllocated cmd }.advance
        (.command cmd) a es)
  | event {p i e rest a es} : p.events = (i, e) :: rest →
      SessionActor.Step p.actor (.event e) a es →
      Moved p .event ({ p with events := rest, sent := p.noteSent i e }.advance (.event e) a es)
  | resume {p ok a es} : p.outcome = some ok → SessionActor.Step p.actor (.resume ok) a es →
      Moved p .resume (p.advance (.resume ok) a es)
  | cancel {p a es} : SessionActor.Step p.actor .cancelled a es →
      Moved p .cancel (p.advance .cancelled a es)
  | openStream {p} : Moved p .openStream
      { p with commands := p.commands ++ [.openStream p.nextReply], nextReply := p.nextReply + 1 }
  | shutdown {p} : Moved p .shutdown
      { p with commands := p.commands ++ [.shutdown p.nextReply], nextReply := p.nextReply + 1 }
  | openFails {p reply message} : p.replies.get reply = some (.error message) →
      Moved p (.openReturns reply) { p with replies := p.replies.remove reply }
  | openReturns {p reply s} : p.replies.get reply = some (.ok s) →
      Moved p (.openReturns reply)
        { p with
          replies := p.replies.remove reply
          handles := p.handles.insert s.frameReceiver ⟨s, false, []⟩
          returned := p.returned ++ [s] }
  | acceptStream {p s rest} : p.accepts = s :: rest →
      Moved p .acceptStream
        { p with
          accepts := rest
          handles := p.handles.insert s.frameReceiver ⟨s, false, []⟩
          taken := p.taken ++ [s] }
  | split {p c h} : p.handles.get c = some h → h.todo = [] →
      Moved p (.split c) { p with handles := p.handles.insert c { h with split := true } }
  | submit {p c h what} : p.handles.get c = some h → h.todo = [] →
      Moved p (.submit c what) (p.queued h.stream.streamId (what.toEvent h.stream.streamId))
  | offer {p c h what} : p.handles.get c = some h → h.todo = [] →
      ¬ p.events.length < eventCapacity →
      Moved p (.offer c what)
        { p with
          handles := p.handles.insert c { h with todo := [what.toEvent h.stream.streamId] } }
  | close {p c h} : p.handles.get c = some h → h.todo = [] →
      Moved p (.close c)
        { p with
          handles := p.handles.insert c
            { h with stream := h.stream.close.1, todo := h.stream.close.2 }
          marks := fun d => if d = c then p.marks d ++ [.called] else p.marks d }
  | pushFails {p c h e todo} : p.handles.get c = some h → h.todo = e :: todo →
      p.actor.phase = .left →
      Moved p (.push c) { p with handles := p.handles.insert c { h with todo := [] } }
  | push {p c h e todo} : p.handles.get c = some h → h.todo = e :: todo →
      Moved p (.push c)
        { p.queued h.stream.streamId e with handles := p.handles.insert c { h with todo } }
  | recv {p c h f rest} : p.handles.get c = some h → p.queue c = f :: rest → p.alive c = true →
      (h.split = true ∨ h.todo = []) →
      Moved p (.recv c)
        { p with
          queue := fun d => if d = c then rest else p.queue d
          handles := p.handles.insert c (h.afterRecv f.header.flags)
          received := fun d => if d = c then p.received d ++ [f] else p.received d
          marks := fun d => if d = c then p.marks d ++ markRecv f.header.flags else p.marks d }
  | drop {p c h} : p.handles.get c = some h → Moved p (.drop c) (p.drop c)
  | dropReader {p c h} : p.handles.get c = some h → h.split = true →
      Moved p (.dropReader c) (p.disconnect c)

theorem actor_moved {p p' : Peer} :
    (p.step .command = some p' → Moved p .command p') ∧
    (p.step .event = some p' → Moved p .event p') ∧
    (p.step .resume = some p' → Moved p .resume p') ∧
    (p.step .cancel = some p' → Moved p .cancel p') := by
  refine ⟨?_, ?_, ?_, ?_⟩
  · intro h
    simp only [step, takeCommand] at h
    split at h
    · cases h
    · rename_i cmd rest hc
      obtain ⟨a, es, hs, rfl⟩ := take_some h
      exact .command hc hs
  · intro h
    simp only [step, takeEvent] at h
    split at h
    · cases h
    · rename_i i e rest he
      obtain ⟨a, es, hs, rfl⟩ := take_some h
      exact .event he hs
  · intro h
    obtain ⟨ok, hok, htake⟩ := Option.bind_eq_some_iff.mp h
    obtain ⟨a, es, hs, rfl⟩ := take_some htake
    exact .resume hok hs
  · intro h
    obtain ⟨a, es, hs, rfl⟩ := take_some h
    exact .cancel hs

theorem callControl_some {p p' : Peer} {command : ReplyId → Command}
    (h : p.callControl command = some p') : p' =
      { p with commands := p.commands ++ [command p.nextReply], nextReply := p.nextReply + 1 } := by
  unfold callControl at h
  split at h
  · cases h
    rfl
  · cases h

theorem session_moved {p p' : Peer} (reply : ReplyId) :
    (p.step (.openReturns reply) = some p' → Moved p (.openReturns reply) p') ∧
    (p.step .acceptStream = some p' → Moved p .acceptStream p') := by
  constructor
  · intro h
    simp only [step, openReturns] at h
    split at h
    · cases h
    · rename_i hr
      cases h
      exact .openFails hr
    · rename_i hr
      cases h
      exact .openReturns hr
  · intro h
    simp only [step, acceptStream] at h
    split at h
    · cases h
    · rename_i ha
      cases h
      exact .acceptStream ha

theorem push_moved {p p' : Peer} {c : ChannelId} {h : Handle} (found : p.handles.get c = some h)
    (hp : p.push c h = some p') : Moved p (.push c) p' := by
  unfold push at hp
  split at hp
  · cases hp
  · rename_i e todo htodo
    split at hp
    · rename_i hleft
      cases hp
      exact .pushFails found htodo hleft
    · obtain ⟨q, hq, rfl⟩ := Option.map_eq_some_iff.mp hp
      obtain ⟨-, -, rfl⟩ := enqueue_some hq
      exact .push found htodo

theorem recv_moved {p p' : Peer} {c : ChannelId} {h : Handle} (found : p.handles.get c = some h)
    (hp : p.recv c h = some p') : Moved p (.recv c) p' := by
  unfold recv at hp
  split at hp
  · cases hp
  · rename_i f rest hqueue
    split at hp
    · rename_i free
      cases hp
      exact .recv found hqueue free.1 free.2
    · cases hp

/-- A call on a stream that waits for nothing. -/
theorem idle_moved {p p' : Peer} {c : ChannelId} {h : Handle} (found : p.handles.get c = some h) :
    (p.split c h = some p' → Moved p (.split c) p') ∧
    (∀ what, p.submit h what = some p' → Moved p (.submit c what) p') ∧
    (∀ what, p.offer c h what = some p' → Moved p (.offer c what) p') ∧
    (p.close c h = some p' → Moved p (.close c) p') ∧
    (p.dropReader c h = some p' → Moved p (.dropReader c) p') := by
  refine ⟨?_, ?_, ?_, ?_, ?_⟩
  · intro hp
    unfold split at hp
    split at hp
    · rename_i idle
      cases hp
      exact .split found idle
    · cases hp
  · intro what hp
    unfold submit at hp
    split at hp
    · rename_i idle
      obtain ⟨-, -, rfl⟩ := enqueue_some hp
      exact .submit found idle
    · cases hp
  · intro what hp
    unfold offer at hp
    split at hp
    · rename_i full
      cases hp
      exact .offer found full.1 full.2.2
    · cases hp
  · intro hp
    unfold close at hp
    split at hp
    · rename_i idle
      cases hp
      exact .close found idle
    · cases hp
  · intro hp
    unfold dropReader at hp
    split at hp
    · rename_i halved
      cases hp
      exact .dropReader found halved
    · cases hp

theorem step_moved {p p' : Peer} {act : Act} (h : p.step act = some p') : Moved p act p' := by
  cases act with
  | command => exact actor_moved.1 h
  | event => exact actor_moved.2.1 h
  | resume => exact actor_moved.2.2.1 h
  | cancel => exact actor_moved.2.2.2 h
  | openStream =>
      rw [callControl_some h]
      exact .openStream
  | shutdown =>
      rw [callControl_some h]
      exact .shutdown
  | openReturns reply => exact (session_moved reply).1 h
  | acceptStream => exact (session_moved 0).2 h
  | split c =>
      obtain ⟨handle, found, hp⟩ := Option.bind_eq_some_iff.mp h
      exact (idle_moved found).1 hp
  | submit c what =>
      obtain ⟨handle, found, hp⟩ := Option.bind_eq_some_iff.mp h
      exact (idle_moved found).2.1 what hp
  | offer c what =>
      obtain ⟨handle, found, hp⟩ := Option.bind_eq_some_iff.mp h
      exact (idle_moved found).2.2.1 what hp
  | close c =>
      obtain ⟨handle, found, hp⟩ := Option.bind_eq_some_iff.mp h
      exact (idle_moved found).2.2.2.1 hp
  | push c =>
      obtain ⟨handle, found, hp⟩ := Option.bind_eq_some_iff.mp h
      exact push_moved found hp
  | recv c =>
      obtain ⟨handle, found, hp⟩ := Option.bind_eq_some_iff.mp h
      exact recv_moved found hp
  | drop c =>
      obtain ⟨handle, found, rfl⟩ := Option.map_eq_some_iff.mp h
      exact .drop found
  | dropReader c =>
      obtain ⟨handle, found, hp⟩ := Option.bind_eq_some_iff.mp h
      exact (idle_moved found).2.2.2.2 hp

/-- The application sends something, at once or when there is room. -/
def Act.Submits (act : Act) (what : Submission) : Prop :=
  (∃ c, act = .submit c what) ∨ ∃ c, act = .offer c what

/-- Everything a party has handed to its event channel, or has still to hand over. -/
structure Sends (P : StreamId → StreamEvent → Prop) (p : Peer) : Prop where
  events : ∀ ie ∈ p.events, P ie.1 ie.2
  submitted : ∀ ie ∈ p.submitted, P ie.1 ie.2
  todo : ∀ c h, p.handles.get c = some h → ∀ e ∈ h.todo, P h.stream.streamId e

section sends
variable {P : StreamId → StreamEvent → Prop} {p p' : Peer}

theorem sends_spawn (P : StreamId → StreamEvent → Prop) (side : SessionSide)
    (sessionId : SessionId) : Sends P (spawn side sessionId) where
  events ie h := by cases h
  submitted ie h := by cases h
  todo c h found := by cases found

theorem Sends.advance (h : Sends P p) (x : Input) (a : SessionActor) (es : List Effect) :
    Sends P (p.advance x a es) := by
  refine ⟨?_, ?_, ?_⟩
  · rw [advance_events]
    exact h.events
  · rw [advance_submitted]
    exact h.submitted
  · rw [advance_handles]
    exact h.todo

theorem Sends.insert (h : Sends P p) {c : ChannelId} {new : Handle}
    (ok : ∀ e ∈ new.todo, P new.stream.streamId e) :
    ∀ d handle, (p.handles.insert c new).get d = some handle →
      ∀ e ∈ handle.todo, P handle.stream.streamId e := by
  refine Table.forall_insert ok ?_
  intro d handle _ found
  exact h.todo d handle found

theorem Sends.queued (h : Sends P p) {i : StreamId} {e : StreamEvent} (ok : P i e) :
    Sends P (p.queued i e) := by
  have last {l : List (StreamId × StreamEvent)} (old : ∀ ie ∈ l, P ie.1 ie.2) :
      ∀ ie ∈ l ++ [(i, e)], P ie.1 ie.2 := by
    intro ie member
    rcases List.mem_append.mp member with member | member
    · exact old ie member
    · rw [List.mem_singleton.mp member]
      exact ok
  exact ⟨last h.events, last h.submitted, h.todo⟩

/-- What holds of each submission and of what `close` sends holds of everything sent. -/
theorem Sends.moved {act : Act} (m : Moved p act p')
    (closes : ∀ i state, ∀ e ∈ (closeFrom i state).2, P i e)
    (submits : ∀ what, act.Submits what → ∀ i, P i (what.toEvent i)) (h : Sends P p) :
    Sends P p' := by
  cases m with
  | @command cmd rest =>
      have popped : Sends P { p with commands := rest, allocated := p.noteAllocated cmd } :=
        ⟨h.events, h.submitted, h.todo⟩
      exact popped.advance _ _ _
  | @event i e rest a es head =>
      have popped : Sends P { p with events := rest, sent := p.noteSent i e } :=
        ⟨fun ie member => h.events ie (head ▸ List.mem_cons_of_mem _ member), h.submitted, h.todo⟩
      exact popped.advance _ _ _
  | resume | cancel => exact h.advance _ _ _
  | openStream | shutdown | openFails | dropReader => exact ⟨h.events, h.submitted, h.todo⟩
  | openReturns | acceptStream =>
      exact ⟨h.events, h.submitted, h.insert fun e member => (by cases member)⟩
  | split found idle =>
      exact ⟨h.events, h.submitted, h.insert fun e member => h.todo _ _ found e member⟩
  | @submit c handle what found idle => exact h.queued (submits what (.inl ⟨c, rfl⟩) _)
  | @offer c handle what found idle =>
      refine ⟨h.events, h.submitted, h.insert fun e member => ?_⟩
      rw [List.mem_singleton.mp member]
      exact submits what (.inr ⟨c, rfl⟩) _
  | close found idle => exact ⟨h.events, h.submitted, h.insert fun e => closes _ _ e⟩
  | pushFails found rest left =>
      exact ⟨h.events, h.submitted, h.insert fun e member => (by cases member)⟩
  | push found rest =>
      have own := h.todo _ _ found
      rw [rest] at own
      have sent := h.queued (own _ List.mem_cons_self)
      exact ⟨sent.events, sent.submitted,
        h.insert fun e member => own e (List.mem_cons_of_mem _ member)⟩
  | @recv c handle f rest found =>
      obtain ⟨same, -, kept⟩ := afterRecv_stream handle f.header.flags
      refine ⟨h.events, h.submitted, h.insert ?_⟩
      rw [same, kept]
      exact h.todo _ _ found
  | drop found =>
      exact ⟨h.events, h.submitted,
        fun c handle there => h.todo c handle (Table.get_of_get_remove there)⟩

end sends
end Peer
end Foctet.Mux
