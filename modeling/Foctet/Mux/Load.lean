import Foctet.Lib.Tally
import Foctet.Mux.WithinReach

/-! How much a session still has to do once its application starts nothing new. What waits
somewhere weighs more than all that it can become, so that every step makes the load lighter. -/
namespace Foctet.Mux
open Foctet.Core Foctet.Lib
open SessionActor (Input Step arrived accepted puts)

/-- A request for a stream is still to be announced, answered and accepted. -/
def frameLoad (f : Frame) : Nat := if f.header.flags.isOpenRequest then 12 else 4

theorem frameLoad_bounds (f : Frame) : 4 ≤ frameLoad f ∧ frameLoad f ≤ 12 := by
  unfold frameLoad
  split <;> omega

theorem frameLoad_request {f : Frame} (asks : f.header.flags.isOpenRequest = true) : frameLoad f = 12 :=
  if_pos asks

theorem frameLoad_response (streamId : StreamId) : frameLoad (openResponseFrame streamId).wire = 4 :=
  if_neg (by decide : ¬ (FrameFlags.fromBitsTruncate FrameFlags.openResponse.bits).isOpenRequest = true)

def Command.load : Command → Nat
  | .openStream _ => 14
  | .shutdown _ => 1

def StreamEvent.load : StreamEvent → Nat
  | .frame f => 2 + frameLoad f.wire
  | .closed _ | .error => 1

def Phase.load : Phase → Nat
  | .awaiting (.forward _ _ _) => 2
  | .awaiting (.announce _) => 7
  | .awaiting (.respond f) | .awaiting (.request f) | .awaiting (.write f) => 1 + frameLoad f.wire
  | .select | .left => 0

def SessionActor.Input.load : Input → Nat
  | .frame f => frameLoad f
  | .command cmd => cmd.load
  | .event e => e.load
  | .resume _ => 0
  | .cancelled | .readError | .eof => 1

/-- The events of a call that waits have still to enter the event channel. -/
def Handle.load (h : Handle) : Nat := (h.todo.map fun e => 1 + e.load).sum

def writeLoad (effects : List Effect) : Nat := (((writes effects).map Frame.wire).map frameLoad).sum

theorem writeLoad_append (es fs : List Effect) : writeLoad (es ++ fs) = writeLoad es + writeLoad fs := by
  rw [writeLoad, writes_append, List.map_append, List.map_append, List.sum_append]
  rfl

/-- Whatever the actor takes weighs more than what it makes of it. It puts a frame on one
channel at most. -/
theorem load_step {a a' : SessionActor} {x : Input} {es : List Effect} (h : Step a x a' es) :
    ∃ c, (∀ d, d ≠ c → puts d es = []) ∧
      a'.phase.load + (accepted es).length + (puts c es).length + writeLoad es + 1 ≤
        a.phase.load + x.load := by
  cases h with
  | @forwarded i c f top =>
      refine ⟨c, fun d other => ?_, ?_⟩
      · simp [puts, Ne.symm other]
      · rw [top]
        simp [puts, accepted, writeLoad, writes, Phase.load, Input.load]
  | forwardFailed top =>
      refine ⟨0, fun d _ => rfl, ?_⟩
      rw [top]
      exact Nat.le_succ 1
  | cancelled | readError => exact ⟨0, fun d _ => rfl, Nat.le_add_left 1 _⟩
  | eof | shutdownCommand | eventClosed | eventError => exact ⟨0, fun d _ => rfl, Nat.le_refl _⟩
  | @forward f sender top =>
      refine ⟨0, fun d _ => rfl, ?_⟩
      have bounds := frameLoad_bounds f
      change 2 + 1 ≤ _ + frameLoad f
      omega
  | @openRequest f top free asks =>
      refine ⟨0, fun d _ => rfl, ?_⟩
      change 7 + 1 ≤ _ + frameLoad f
      rw [frameLoad_request asks]
      omega
  | @openResponse f | @openReset f | @unknown f =>
      refine ⟨0, fun d _ => rfl, ?_⟩
      have bounds := frameLoad_bounds f
      change a.phase.load + 1 ≤ a.phase.load + frameLoad f
      omega
  | openStream top =>
      refine ⟨0, fun d _ => rfl, ?_⟩
      have bounds := frameLoad_bounds (openRequestFrame a.nextStreamId).wire
      change 1 + frameLoad _ + 1 ≤ _ + 14
      omega
  | @eventFrame f top =>
      refine ⟨0, fun d _ => rfl, ?_⟩
      change 1 + frameLoad f.wire + 1 ≤ _ + (2 + frameLoad f.wire)
      omega
  | announced top =>
      refine ⟨0, fun d _ => rfl, ?_⟩
      rw [top]
      change 1 + frameLoad (openResponseFrame _).wire + 1 + 1 ≤ 7
      rw [frameLoad_response]
  | announceFailed top =>
      refine ⟨0, fun d _ => rfl, ?_⟩
      rw [top]
      change 1 + frameLoad (openResponseFrame _).wire + 1 ≤ 7
      rw [frameLoad_response]
      decide
  | @responded f top | @requested f top | @written f top =>
      refine ⟨0, fun d _ => rfl, ?_⟩
      rw [top]
      change 0 + (frameLoad f.wire + 0) + 1 ≤ 1 + frameLoad f.wire
      omega
  | @respondFailed f top | @requestFailed f top | @writeFailed f top =>
      refine ⟨0, fun d _ => rfl, ?_⟩
      rw [top]
      exact Nat.le_add_right 1 _

/-- A step of the actor makes one channel at most. -/
theorem nextChannel_step {a a' : SessionActor} {x : Input} {es : List Effect} (h : Step a x a' es) :
    a'.nextChannel = a.nextChannel ∨ a'.nextChannel = a.nextChannel + 1 := by
  cases h with
  | openRequest | openResponse => exact .inr rfl
  | _ => exact .inl rfl

namespace Peer

/-- What waits in a stream's channel, and what its handle has still to send. -/
def slot (p : Peer) (c : ChannelId) : Nat := (p.queue c).length + (p.handles.get c).elim 0 Handle.load

def load (p : Peer) : Nat :=
  p.actor.phase.load + (p.commands.map Command.load).sum + (p.events.map fun ie => ie.2.load).sum +
    p.accepts.length + ∑ c ∈ Finset.range p.actor.nextChannel, p.slot c

/-- The load together with all that was ever written. -/
def due (p : Peer) : Nat := p.load + writeLoad p.effects

def read (p : Peer) : Nat := ((arrived p.inputs).map frameLoad).sum

/-- What a party has read since is no longer in flight; what it has written since is. -/
def Lighter (p' p : Peer) : Prop := p'.due + p.read < p.due + p'.read

section
variable {p p' : Peer}

theorem advance_load (unborn : p.slot p.actor.nextChannel = 0) {x : Input} {a : SessionActor}
    {es : List Effect} (h : Step p.actor x a es) :
    (p.advance x a es).due + 1 ≤ p.due + x.load := by
  obtain ⟨c, quiet, less⟩ := load_step h
  have slots (d : ChannelId) : (p.advance x a es).slot d = p.slot d + (puts d es).length := by
    rw [slot, slot, advance_queue, advance_handles, List.length_append]
    omega
  have grown := sum_grown (f := (p.advance x a es).slot) (g := p.slot) (c := c)
    (k := (puts c es).length) (fun d other => by rw [slots, quiet d other]; rfl)
    (Nat.le_of_eq (slots c)) a.nextChannel
  have made : ∑ d ∈ Finset.range a.nextChannel, p.slot d =
      ∑ d ∈ Finset.range p.actor.nextChannel, p.slot d := by
    rcases nextChannel_step h with same | more
    · rw [same]
    · rw [more, Finset.sum_range_succ, unborn, Nat.add_zero]
  have accepts : (p.advance x a es).accepts = p.accepts ++ accepted es := foldl_apply_accepts es p
  rw [due, due, load, load, advance_commands, advance_events, accepts, advance_effects, writeLoad_append,
    List.length_append]
  change a.phase.load + _ + _ + _ + ∑ d ∈ Finset.range a.nextChannel, _ + _ + 1 ≤ _
  omega

end

/-- A call of `close`, or a send that found no room, borrows the whole stream until its events are
in the event channel. The actor waits for room in that stream's own channel, so it empties neither
of the two. -/
structure Jam (p : Peer) (c : ChannelId) (h : Handle) : Prop where
  blocked : ∃ i f, p.actor.phase = .awaiting (.forward i c f)
  alive : p.alive c = true
  full : streamCapacity ≤ (p.queue c).length
  handle : p.handles.get c = some h
  whole : h.split = false
  calling : h.todo ≠ []
  crowded : eventCapacity < p.events.length + h.todo.length

def Jammed (p : Peer) : Prop := ∃ c h, p.Jam c h

/-- A jam does not depend on more than the actor, the stream and the event channel. -/
theorem Jam.kept {p q : Peer} {c : ChannelId} {h : Handle} (jam : p.Jam c h) (actor : q.actor = p.actor)
    (alive : q.alive c = p.alive c) (queue : q.queue c = p.queue c) (handle : q.handles.get c = some h)
    (events : p.events.length ≤ q.events.length) : q.Jam c h where
  blocked := actor ▸ jam.blocked
  alive := alive.trans jam.alive
  full := queue ▸ jam.full
  handle := handle
  whole := jam.whole
  calling := jam.calling
  crowded := Nat.lt_of_lt_of_le jam.crowded (Nat.add_le_add_right events _)

/-- What an application does that only takes what is there and lets its calls end, and what the
actor does by itself. -/
def Act.drains : Act → Bool
  | .command | .event | .resume | .openReturns _ | .acceptStream | .push _ | .recv _ => true
  | .cancel | .openStream | .shutdown | .split _ | .submit _ _ | .offer _ _ | .close _ | .drop _
  | .dropReader _ => false

/-- The party can take something off its own load, without the other. -/
def Eases (p : Peer) : Prop :=
  ∃ acts p', (∀ act ∈ acts, act.drains = true) ∧ run step p acts = some p' ∧
    p'.actor.phase ≠ .left ∧ ¬ p'.Jammed ∧ p'.Lighter p

/-- The channels in use are those given out. -/
structure Ready (p : Peer) : Prop where
  within : p.Within
  wired : p.actor.Wired
  handles : ∀ c h, p.handles.get c = some h → c < p.actor.nextChannel
  replies : ∀ r s, p.replies.get r = some (.ok s) → s.frameReceiver < p.actor.nextChannel
  unborn : ∀ c, p.actor.nextChannel ≤ c → p.queue c = []

section
variable {p p' : Peer}

theorem Ready.slot_next (ready : Ready p) : p.slot p.actor.nextChannel = 0 := by
  have fresh : p.handles.get p.actor.nextChannel = none :=
    Option.eq_none_iff_forall_ne_some.mpr fun h found => Nat.lt_irrefl _ (ready.handles _ h found)
  rw [slot, ready.unborn _ (Nat.le_refl _), fresh]
  rfl

theorem eases_act {act : Act} (drains : act.drains = true) (done : p.step act = some p')
    (running : p'.actor.phase ≠ .left) (free : ¬ p'.Jammed) (lighter : p'.Lighter p) : p.Eases :=
  ⟨[act], p', List.forall_mem_singleton.mpr drains, by simp [run, done], running, free, lighter⟩

theorem not_jammed {p : Peer} (other : ∀ i c f, p.actor.phase ≠ .awaiting (.forward i c f)) : ¬ p.Jammed := by
  intro jammed
  obtain ⟨c, h, jam⟩ := jammed
  obtain ⟨i, f, top⟩ := jam.blocked
  exact other i c f top

/-- An input of the actor other than a frame. -/
theorem advance_lighter (unborn : p.slot p.actor.nextChannel = 0) {x : Input} {a : SessionActor} {es : List Effect}
    (h : Step p.actor x a es) (other : arrived [x] = []) {q : Peer} (popped : p.due + x.load ≤ q.due)
    (read : p.read = q.read) : (p.advance x a es).Lighter q := by
  have less := advance_load unborn h
  have same : (p.advance x a es).read = p.read := by
    rw [Peer.read, advance_inputs, SessionActor.arrived_append, other, List.append_nil]
    rfl
  rw [Lighter, same, ← read]
  omega

theorem take_of_step {x : Input} {a : SessionActor} {es : List Effect} (h : Step p.actor x a es) :
    p.take x = some (p.advance x a es) := by
  rw [take, h.step_eq]
  rfl

/-- What an await in these sessions ends in: the top of the loop, or the answer to a request. -/
theorem resumed_phase {ok : Bool} {a : SessionActor} {es : List Effect} (ends : p.outcome = some ok)
    (h : Step p.actor (.resume ok) a es) :
    a.phase ≠ .left ∧ ∀ i c f, a.phase ≠ .awaiting (.forward i c f) := by
  cases h with
  | requestFailed top | writeFailed top =>
      rw [outcome, top] at ends
      cases ends
  | _ => exact ⟨fun same => (by cases same), fun i c f same => by cases same⟩

theorem eases_resume (ready : Ready p) {ok : Bool} (ends : p.outcome = some ok) : p.Eases := by
  have waits : ∃ w, p.actor.phase = .awaiting w := by
    cases top : p.actor.phase with
    | awaiting w => exact ⟨w, rfl⟩
    | select | left =>
        rw [outcome, top] at ends
        cases ends
  obtain ⟨w, top⟩ := waits
  obtain ⟨a, es, hs⟩ : ∃ a es, Step p.actor (.resume ok) a es := ⟨_, _, SessionActor.resume_step top ok⟩
  obtain ⟨running, idle⟩ := resumed_phase ends hs
  have done : p.step .resume = some (p.advance (.resume ok) a es) := by
    rw [step, ends]
    exact take_of_step hs
  exact eases_act rfl done running (not_jammed idle)
    (advance_lighter ready.slot_next hs rfl (Nat.le_refl _) rfl)

theorem taken_phase {a a' : SessionActor} {x : Input} {es : List Effect} (h : Step a x a' es)
    (kind : (∃ cmd, x = .command cmd) ∨ ∃ e, x = .event e) :
    a'.phase ≠ .left ∧ ∀ i c f, a'.phase ≠ .awaiting (.forward i c f) := by
  cases h with
  | openStream | eventFrame => exact ⟨fun same => (by cases same), fun i c f same => by cases same⟩
  | shutdownCommand top | eventClosed top | eventError top =>
      exact ⟨fun same => (by cases top.symm.trans same), fun i c f same => by cases top.symm.trans same⟩
  | _ => rcases kind with ⟨_, same⟩ | ⟨_, same⟩ <;> cases same

theorem eases_command (ready : Ready p) (top : p.actor.phase = .select) {cmd : Command}
    {rest : List Command} (queued : p.commands = cmd :: rest) : p.Eases := by
  obtain ⟨a, es, hs⟩ : ∃ a es, Step p.actor (.command cmd) a es := by
    cases cmd with
    | openStream reply => exact ⟨_, _, .openStream top⟩
    | shutdown reply => exact ⟨_, _, .shutdownCommand top⟩
  obtain ⟨running, idle⟩ := taken_phase hs (.inl ⟨cmd, rfl⟩)
  let q : Peer := { p with commands := rest, allocated := p.noteAllocated cmd }
  have popped : q.due + cmd.load ≤ p.due := by
    have slots : q.slot = p.slot := rfl
    simp only [due, load, slots, queued, List.map_cons, List.sum_cons, q]
    omega
  have done : p.step .command = some (q.advance (.command cmd) a es) := by
    rw [step, takeCommand, queued]
    exact take_of_step (p := q) hs
  exact eases_act rfl done running (not_jammed idle)
    (advance_lighter (p := q) ready.slot_next hs rfl popped rfl)

theorem eases_event (ready : Ready p) (top : p.actor.phase = .select) {i : StreamId} {e : StreamEvent}
    {rest : List (StreamId × StreamEvent)} (queued : p.events = (i, e) :: rest) : p.Eases := by
  obtain ⟨a, es, hs⟩ : ∃ a es, Step p.actor (.event e) a es := by
    cases e with
    | frame f => exact ⟨_, _, .eventFrame top⟩
    | closed j => exact ⟨_, _, .eventClosed top⟩
    | error => exact ⟨_, _, .eventError top⟩
  obtain ⟨running, idle⟩ := taken_phase hs (.inr ⟨e, rfl⟩)
  let q : Peer := { p with events := rest, sent := p.noteSent i e }
  have popped : q.due + e.load ≤ p.due := by
    have slots : q.slot = p.slot := rfl
    simp only [due, load, slots, queued, List.map_cons, List.sum_cons, q]
    omega
  have done : p.step .event = some (q.advance (.event e) a es) := by
    rw [step, takeEvent, queued]
    exact take_of_step (p := q) hs
  exact eases_act rfl done running (not_jammed idle)
    (advance_lighter (p := q) ready.slot_next hs rfl popped rfl)

/-- A party whose actor does nothing is lighter if it holds less. -/
theorem lighter_of_load (inputs : p'.inputs = p.inputs) (effects : p'.effects = p.effects)
    (less : p'.load < p.load) : p'.Lighter p := by
  rw [Lighter, due, due, read, read, inputs, effects]
  omega

/-- A new handle has nothing to send. -/
theorem slots_new (p : Peer) (s : LogicalStream) (n : Nat) :
    ∑ c ∈ Finset.range n, { p with handles := p.handles.insert s.frameReceiver ⟨s, false, []⟩ }.slot c ≤
      ∑ c ∈ Finset.range n, p.slot c := by
  refine sum_grown (c := s.frameReceiver) (k := 0) ?_ ?_ n
  · intro d other
    simp only [slot, Table.get_insert_of_ne _ other]
  · simp only [slot, Table.get_insert_self]
    exact Nat.add_le_add_left (Nat.zero_le _) _

/-- The handle of a new stream is not in the middle of anything. -/
theorem jammed_of_new {p : Peer} {s : LogicalStream}
    (jammed : { p with handles := p.handles.insert s.frameReceiver ⟨s, false, []⟩ }.Jammed) : p.Jammed := by
  obtain ⟨c, h, jam⟩ := jammed
  have handle : (p.handles.insert s.frameReceiver ⟨s, false, []⟩).get c = some h := jam.handle
  rw [Table.get_insert] at handle
  split at handle
  · cases handle
    exact absurd rfl jam.calling
  · exact ⟨c, h, jam.kept rfl rfl rfl handle (Nat.le_refl _)⟩

theorem eases_accept (running : p.actor.phase ≠ .left) (free : ¬ p.Jammed) {s : LogicalStream}
    {rest : List LogicalStream} (head : p.accepts = s :: rest) : p.Eases := by
  let q : Peer := { p with handles := p.handles.insert s.frameReceiver ⟨s, false, []⟩ }
  have done : p.step .acceptStream = some { q with accepts := rest, taken := p.taken ++ [s] } := by
    simp only [step, acceptStream, head, q]
  refine eases_act rfl done running ?_ (lighter_of_load rfl rfl ?_)
  · intro jammed
    obtain ⟨c, h, jam⟩ := jammed
    exact free (jammed_of_new ⟨c, h, jam.kept rfl rfl rfl jam.handle (Nat.le_refl _)⟩)
  · have slots : ∑ c ∈ Finset.range p.actor.nextChannel, q.slot c ≤
        ∑ c ∈ Finset.range p.actor.nextChannel, p.slot c := slots_new p s _
    have shorter : rest.length < p.accepts.length := by
      rw [head]
      exact Nat.lt_succ_self _
    exact Nat.add_lt_add_of_lt_of_le (Nat.add_lt_add_left shorter _) slots

/-- The next event of a call that waits finds room. Only its own stream's channel may be what
the actor waits for. -/
theorem eases_push (ready : Ready p) (running : p.actor.phase ≠ .left) (free : ¬ p.Jammed)
    {c : ChannelId} {h : Handle} {e : StreamEvent} {todo : List StreamEvent}
    (found : p.handles.get c = some h) (next : h.todo = e :: todo) (room : p.events.length < eventCapacity)
    (only : ∀ i d f, p.actor.phase = .awaiting (.forward i d f) → d = c) : p.Eases := by
  let q : Peer := { p.queued h.stream.streamId e with handles := p.handles.insert c { h with todo } }
  have done : p.step (.push c) = some q := by
    simp only [step, found, Option.bind_some, push, next, running, if_false, enqueue, ne_eq, not_false_iff,
      room, and_self, if_true, Option.map_some, queued, q]
  refine eases_act rfl done running ?_ (lighter_of_load rfl rfl ?_)
  · intro jammed
    obtain ⟨d, g, jam⟩ := jammed
    obtain ⟨i, f, top⟩ := jam.blocked
    obtain rfl := only i d f top
    have own : { h with todo } = g := Option.some.inj ((Table.get_insert_self _ _ _).symm.trans jam.handle)
    have crowded := jam.crowded
    refine free ⟨d, h, ⟨i, f, top⟩, jam.alive, jam.full, found, ?_, ?_, ?_⟩
    · rw [← jam.whole, ← own]
    · rw [next]
      exact List.cons_ne_nil e todo
    · rw [← own] at crowded
      rw [next]
      simp only [queued, q, List.length_append, List.length_cons, List.length_nil] at crowded ⊢
      omega
  · have change := sum_change (f := q.slot) (g := p.slot) (ready.handles c h found) fun d other => by
      simp only [slot, queued, q, Table.get_insert_of_ne _ other]
    have before : p.slot c = (p.queue c).length + (1 + e.load + Handle.load { h with todo }) := by
      rw [slot, found, Option.elim_some, Handle.load, next, List.map_cons, List.sum_cons]
      rfl
    have after : q.slot c = (p.queue c).length + Handle.load { h with todo } := by
      rw [slot, Table.get_insert_self]
      rfl
    simp only [load, queued, q, List.map_append, List.map_cons, List.map_nil, List.sum_append,
      List.sum_cons, List.sum_nil] at change before after ⊢
    omega

/-- `recv_frame` on a stream that no call borrows takes a frame off its channel. -/
theorem recv_eases {c : ChannelId} {h : Handle} {f : Frame} {rest : List Frame}
    (less : c < p.actor.nextChannel) (found : p.handles.get c = some h) (waiting : p.queue c = f :: rest)
    (alive : p.alive c = true) (free : h.split = true ∨ h.todo = []) :
    ∃ p', p.step (.recv c) = some p' ∧ p'.actor = p.actor ∧ p'.inputs = p.inputs ∧
      p'.effects = p.effects ∧ p'.load < p.load ∧ (p'.Jammed → p.Jammed) := by
  let q : Peer :=
    { p with
      queue := fun d => if d = c then rest else p.queue d
      handles := p.handles.insert c (h.afterRecv f.header.flags)
      received := fun d => if d = c then p.received d ++ [f] else p.received d
      marks := fun d => if d = c then p.marks d ++ markRecv f.header.flags else p.marks d }
  have done : p.step (.recv c) = some q := by
    simp only [step, found, Option.bind_some, recv, waiting, alive, free, and_self, if_true, q]
  have kept := (afterRecv_stream h f.header.flags).2.2
  refine ⟨q, done, rfl, rfl, rfl, ?_, ?_⟩
  · have change := sum_change (f := q.slot) (g := p.slot) less fun d other => by
      simp only [slot, q, Table.get_insert_of_ne _ other, if_neg other]
    have before : p.slot c = rest.length + 1 + h.load := by
      rw [slot, found, waiting]
      rfl
    have after : q.slot c = rest.length + h.load := by
      simp only [slot, q, if_true, Table.get_insert_self, Option.elim_some, Handle.load, kept]
    have fewer : ∑ c ∈ Finset.range p.actor.nextChannel, q.slot c <
        ∑ c ∈ Finset.range p.actor.nextChannel, p.slot c := by omega
    exact Nat.add_lt_add_left fewer _
  · intro jammed
    obtain ⟨d, g, jam⟩ := jammed
    rcases eq_or_ne d c with rfl | other
    · have own : h.afterRecv f.header.flags = g :=
        Option.some.inj ((Table.get_insert_self _ _ _).symm.trans jam.handle)
      have whole : h.split = false := by
        rw [← jam.whole, ← own, Handle.afterRecv]
        split <;> rfl
      rcases free with halved | idle
      · cases halved.symm.trans whole
      · exact absurd (kept.trans idle) (own ▸ jam.calling)
    · have handle : p.handles.get d = some g := (Table.get_insert_of_ne _ other _).symm.trans jam.handle
      exact ⟨d, g, jam.kept rfl rfl (if_neg other).symm handle (Nat.le_refl _)⟩

theorem eases_recv (ready : Ready p) (running : p.actor.phase ≠ .left) (free : ¬ p.Jammed) {c : ChannelId}
    {h : Handle} (found : p.handles.get c = some h) (waiting : p.queue c ≠ []) (alive : p.alive c = true)
    (idle : h.split = true ∨ h.todo = []) : p.Eases := by
  obtain ⟨f, rest, queue⟩ := List.exists_cons_of_ne_nil waiting
  obtain ⟨p', done, actor, inputs, effects, less, same⟩ :=
    recv_eases (ready.handles c h found) found queue alive idle
  exact eases_act rfl done (actor ▸ running) (fun jammed => free (same jammed))
    (lighter_of_load inputs effects less)

/-- The end of a stream that was opened is first taken out of the reply. -/
theorem eases_return (ready : Ready p) (running : p.actor.phase ≠ .left) (free : ¬ p.Jammed) {r : ReplyId}
    {s : LogicalStream} (waits : p.replies.get r = some (.ok s)) (waiting : p.queue s.frameReceiver ≠ [])
    (alive : p.alive s.frameReceiver = true) : p.Eases := by
  let q : Peer := { p with handles := p.handles.insert s.frameReceiver ⟨s, false, []⟩ }
  let t : Peer := { q with replies := p.replies.remove r, returned := p.returned ++ [s] }
  have returns : p.step (.openReturns r) = some t := by
    simp only [step, openReturns, waits, q, t]
  have found : t.handles.get s.frameReceiver = some ⟨s, false, []⟩ := Table.get_insert_self _ _ _
  obtain ⟨f, rest, queue⟩ := List.exists_cons_of_ne_nil waiting
  obtain ⟨p', done, actor, inputs, effects, less, same⟩ :=
    recv_eases (p := t) (ready.replies r s waits) found queue alive (.inr rfl)
  have slots : t.load ≤ p.load := Nat.add_le_add_left (slots_new p s p.actor.nextChannel) _
  refine ⟨[.openReturns r, .recv s.frameReceiver], p', ?_, ?_, actor ▸ running, ?_,
    lighter_of_load inputs effects (Nat.lt_of_lt_of_le less slots)⟩
  · exact List.forall_mem_cons.mpr ⟨rfl, List.forall_mem_singleton.mpr rfl⟩
  · simp only [run, returns, done, Option.bind_some]
  · intro jammed
    obtain ⟨c, h, jam⟩ := same jammed
    exact free (jammed_of_new ⟨c, h, jam.kept rfl rfl rfl jam.handle (Nat.le_refl _)⟩)

theorem outcome_forward_none {i : StreamId} {c : ChannelId} {f : Frame}
    (top : p.actor.phase = .awaiting (.forward i c f)) :
    p.outcome = none ↔ p.alive c = true ∧ streamCapacity ≤ (p.queue c).length := by
  rw [outcome, top]
  change (if p.alive c = true then if (p.queue c).length < streamCapacity then some true else none
    else some false) = none ↔ _
  split
  · split
    · exact ⟨fun same => (by cases same), fun stuck => absurd ‹_› (Nat.not_lt_of_le stuck.2)⟩
    · exact ⟨fun _ => ⟨‹_›, Nat.le_of_not_lt ‹_›⟩, fun _ => rfl⟩
  · exact ⟨fun same => (by cases same), fun stuck => absurd stuck.1 ‹_›⟩

/-- A frame for a full channel: whoever has the other end can make room. -/
theorem eases_forward (ready : Ready p) (free : ¬ p.Jammed) {i : StreamId} {c : ChannelId} {f : Frame}
    (top : p.actor.phase = .awaiting (.forward i c f)) (alive : p.alive c = true)
    (full : streamCapacity ≤ (p.queue c).length) : p.Eases := by
  have running : p.actor.phase ≠ .left := fun same => by cases top.symm.trans same
  have waiting : p.queue c ≠ [] := by
    intro empty
    rw [empty] at full
    exact absurd full (by decide)
  have less := ready.wired.fresh i c (ready.wired.forward i c f top).1
  rcases ready.within.reach c less alive with handle | ⟨s, there, -⟩ | ⟨r, s, there, rfl⟩ | ⟨s, announces, -⟩
  · obtain ⟨h, found⟩ := Option.ne_none_iff_exists'.mp handle
    by_cases idle : h.split = true ∨ h.todo = []
    · exact eases_recv ready running free found waiting alive idle
    · rw [not_or, Bool.not_eq_true] at idle
      obtain ⟨e, todo, next⟩ := List.exists_cons_of_ne_nil idle.2
      rcases Nat.lt_or_ge eventCapacity (p.events.length + h.todo.length) with crowded | room
      · exact absurd ⟨c, h, ⟨i, f, top⟩, alive, full, found, idle.1, idle.2, crowded⟩ free
      · refine eases_push ready running free found next ?_ fun j d g same => ?_
        · rw [next, List.length_cons] at room
          omega
        · cases top.symm.trans same
          rfl
  · obtain ⟨t, rest, head⟩ := List.exists_cons_of_ne_nil (List.ne_nil_of_mem there)
    exact eases_accept running free head
  · exact eases_return ready running free there waiting alive
  · cases top.symm.trans announces

/-- Whatever the actor waits for, the party can do something about it, unless it is jammed. -/
theorem eases_awaiting (ready : Ready p) (free : ¬ p.Jammed) {w : Await}
    (top : p.actor.phase = .awaiting w) : p.Eases := by
  cases ends : p.outcome with
  | some ok => exact eases_resume ready ends
  | none =>
      cases w with
      | forward i c f =>
          obtain ⟨alive, full⟩ := (outcome_forward_none top).mp ends
          exact eases_forward ready free top alive full
      | announce s =>
          rw [outcome, top] at ends
          cases head : p.accepts with
          | nil =>
              rw [head] at ends
              cases ends
          | cons t rest => exact eases_accept (fun same => by cases top.symm.trans same) free head
      | respond | request | write =>
          rw [outcome, top] at ends
          cases ends

/-- A party that waits for nothing but its link and its application. -/
structure Idle (p : Peer) : Prop where
  top : p.actor.phase = .select
  commands : p.commands = []
  events : p.events = []
  accepts : p.accepts = []
  todo : ∀ c h, p.handles.get c = some h → h.todo = []
  queues : ∀ c, p.alive c = true → p.queue c = []

theorem idle_of_stuck (ready : Ready p) (running : p.actor.phase ≠ .left) (free : ¬ p.Jammed)
    (stuck : ¬ p.Eases) : p.Idle := by
  have top : p.actor.phase = .select := by
    cases phase : p.actor.phase with
    | select => rfl
    | awaiting w => exact absurd (eases_awaiting ready free phase) stuck
    | left => exact absurd phase running
  have commands : p.commands = [] := by
    cases queued : p.commands with
    | nil => rfl
    | cons cmd rest => exact absurd (eases_command ready top queued) stuck
  have events : p.events = [] := by
    cases queued : p.events with
    | nil => rfl
    | cons ie rest => exact absurd (eases_event ready top queued) stuck
  have accepts : p.accepts = [] := by
    cases head : p.accepts with
    | nil => rfl
    | cons s rest => exact absurd (eases_accept running free head) stuck
  have todo (c : ChannelId) (h : Handle) (found : p.handles.get c = some h) : h.todo = [] := by
    cases next : h.todo with
    | nil => rfl
    | cons e rest =>
        have room : p.events.length < eventCapacity := by
          rw [events]
          decide
        exact absurd (eases_push ready running free found next room fun i d f same => by
          cases top.symm.trans same) stuck
  refine ⟨top, commands, events, accepts, todo, fun c alive => ?_⟩
  by_contra waiting
  have less : c < p.actor.nextChannel := by
    by_contra out
    exact waiting (ready.unborn c (Nat.le_of_not_lt out))
  rcases ready.within.reach c less alive with handle | ⟨s, there, -⟩ | ⟨r, s, there, rfl⟩ | ⟨s, announces, -⟩
  · obtain ⟨h, found⟩ := Option.ne_none_iff_exists'.mp handle
    exact stuck (eases_recv ready running free found waiting alive (.inr (todo c h found)))
  · rw [accepts] at there
    cases there
  · exact stuck (eases_return ready running free there waiting alive)
  · cases top.symm.trans announces

end
end Peer
end Foctet.Mux
