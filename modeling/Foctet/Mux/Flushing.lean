import Foctet.Mux.Load

/-! When two sessions can come to rest. Once the applications start nothing new, what waits in
the channels and on the links can be taken off them in some order, unless a side is jammed, and
then no order will do. -/
namespace Foctet.Mux
open Foctet.Core Foctet.Lib
open SessionActor (Input Step arrived accepted acceptedIds resolvedIds)

/-- All bytes of the pipe being handed over, the reader finds the first frame in flight. -/
theorem byteLink_prompt {l : BytePipe} {f : Frame} {rest : List Frame}
    (head : byteLink.inFlight l = f :: rest) :
    (byteLink.next (byteLink.deliver l l.pipe.length)).1 = some f := by
  have empty : (byteLink.deliver l l.pipe.length).line.pipe = [] := List.drop_length
  rw [line_next, Framing.next_prompt empty]
  change (byteLink.deliver l l.pipe.length).settled.items.head? = some f
  rw [settled_deliver, ← byteLink_inFlight, head]
  rfl

namespace Net

def Label.drains : Label → Bool
  | .deliver _ _ | .poll _ => true
  | .act _ move => move.drains

def load (n : Net BytePipe) : Nat :=
  (n.peer .client).load + (n.peer .server).load +
    (((byteLink.inFlight (n.link .client)).map frameLoad).sum +
      ((byteLink.inFlight (n.link .server)).map frameLoad).sum)

/-- Nothing waits anywhere that someone could still take. -/
structure Drained (n : Net BytePipe) : Prop where
  idle : ∀ s, (n.peer s).Idle
  links : ∀ s, byteLink.inFlight (n.link s) = []

/-- Every call of `open_stream` is answered, and on every stream that is still registered and
read from, everything has come through. -/
structure Complete (n : Net BytePipe) : Prop where
  answered : ∀ s i, (n.peer s).actor.pendingStreams.get i = none
  received : ∀ s i c, (n.peer s.other).actor.streams.get i = some c → (n.peer s.other).alive c = true →
    (n.peer s.other).receivedOn i = (framesOn i (n.peer s).submitted).map Frame.sealed

/-- A state of two sessions of which only the client opens streams. -/
def Reached (sessionId : SessionSide → SessionId) (n : Net BytePipe) : Prop :=
  ∃ labels, run (step byteLink) (spawn byteLink sessionId) labels = some n ∧ (∀ l ∈ labels, l.Own) ∧
    opens .server labels = 0 ∧ opens .client labels ≤ 2 ^ 32 - 1

section
variable {sessionId : SessionSide → SessionId} {n n' : Net BytePipe}

theorem Label.drains_own {l : Label} (drains : l.drains = true) : l.Own := by
  cases l with
  | act s act =>
      cases act with
      | submit | offer => cases drains
      | _ => trivial
  | _ => trivial

theorem opens_drains {more : List Label} (drains : ∀ l ∈ more, l.drains = true) (s : SessionSide) :
    opens s more = 0 := by
  refine List.countP_eq_zero.mpr fun l member asks => ?_
  obtain rfl := of_decide_eq_true asks
  cases drains _ member

theorem Reached.more (reached : Reached sessionId n) {more : List Label}
    (drains : ∀ l ∈ more, l.drains = true) (further : run (step byteLink) n more = some n') :
    Reached sessionId n' := by
  obtain ⟨labels, first, own, only, few⟩ := reached
  have opened (s : SessionSide) : opens s (labels ++ more) = opens s labels := by
    rw [opens, List.countP_append]
    exact congrArg (opens s labels + ·) (opens_drains drains s)
  refine ⟨labels ++ more, run_append_some.mpr ⟨n, first, further⟩, ?_, ?_, ?_⟩
  · exact List.forall_mem_append.mpr ⟨own, fun l member => Label.drains_own (drains l member)⟩
  · rw [opened, only]
  · rw [opened]
    exact few

theorem Reached.sound (reached : Reached sessionId n) : Sound byteLink n := by
  obtain ⟨labels, first, own, only, few⟩ := reached
  exact sound_run byteLink_fifo own first (apart_of_client_opens first only few)

theorem Reached.ready (reached : Reached sessionId n) (s : SessionSide) : (n.peer s).Ready := by
  have flow := (reached.sound.settled s).flow
  obtain ⟨labels, first, -⟩ := reached
  refine ⟨within_run first s, flow.incoming.wired, ?_, ?_, ?_⟩
  · intro c h found
    obtain ⟨-, t, member, -, rfl⟩ := flow.known.handles c h found
    exact flow.incoming.born t member
  · intro r t waits
    exact flow.incoming.born t (flow.known.replies r t waits)
  · intro c out
    have nothing := flow.received.order c
    rw [flow.incoming.unborn c out] at nothing
    exact (List.append_eq_nil_iff.mp nothing).2

/-- What a side has written was read, or is in flight. -/
theorem due_eq (sound : Sound byteLink n) (s : SessionSide) :
    (n.peer s).due = (n.peer s).load + ((n.peer s.other).read +
      ((byteLink.inFlight (n.link s)).map frameLoad).sum) := by
  obtain ⟨fits, aligned, agree⟩ := sound.agree
  rw [Peer.due, writeLoad, agree.fifo s, List.map_append, List.sum_append]
  rfl

theorem load_lighter (before : Sound byteLink n) (after : Sound byteLink n') {s : SessionSide}
    (others : n'.peer s.other = n.peer s.other) (lighter : (n'.peer s).Lighter (n.peer s)) :
    n'.load < n.load := by
  have mine := due_eq before s
  have theirs := due_eq before s.other
  have mine' := due_eq after s
  have theirs' := due_eq after s.other
  rw [SessionSide.other_other] at theirs theirs'
  rw [Peer.Lighter] at lighter
  rw [others] at mine' theirs'
  cases s with
  | client =>
      simp only [SessionSide.other, load] at *
      rw [others]
      omega
  | server =>
      simp only [SessionSide.other, load] at *
      rw [others]
      omega

theorem run_acts {K : Link L} {n : Net L} {s : SessionSide} {acts : List Peer.Act} {p : Peer}
    (acted : run Peer.step (n.peer s) acts = some p) :
    ∃ n', run (step K) n (acts.map (.act s)) = some n' ∧ n'.peer s = p ∧
      n'.peer s.other = n.peer s.other := by
  induction acts generalizing n with
  | nil =>
      cases acted
      exact ⟨n, rfl, rfl, rfl⟩
  | cons act acts ih =>
      obtain ⟨q, first, rest⟩ := run_cons_some.mp acted
      rw [← replace_peer_self K n s q] at rest
      obtain ⟨n', run', mine, theirs⟩ := ih rest
      refine ⟨n', run_cons_some.mpr ⟨n.replace K s q, ?_, run'⟩, mine, ?_⟩
      · rw [step, first]
        rfl
      · rw [theirs, replace_peer_other]

/-- Two sessions that go on: no loop has been left, and no side is jammed. -/
structure Flowing (sessionId : SessionSide → SessionId) (n : Net BytePipe) : Prop where
  reached : Reached sessionId n
  running : ∀ s, (n.peer s).actor.phase ≠ .left
  free : ∀ s, ¬ (n.peer s).Jammed

/-- One side moves, and the other stays as it is. -/
theorem Flowing.more (flowing : Flowing sessionId n) {more : List Label} {s : SessionSide}
    (drains : ∀ l ∈ more, l.drains = true) (further : run (step byteLink) n more = some n')
    (others : n'.peer s.other = n.peer s.other) (running : (n'.peer s).actor.phase ≠ .left)
    (free : ¬ (n'.peer s).Jammed) : Flowing sessionId n' := by
  refine ⟨flowing.reached.more drains further, ?_, ?_⟩
  · intro t
    rcases s.eq_or_other t with rfl | rfl
    · exact running
    · rw [others]
      exact flowing.running _
  · intro t
    rcases s.eq_or_other t with rfl | rfl
    · exact free
    · rw [others]
      exact flowing.free _

def Nearer (sessionId : SessionSide → SessionId) (n : Net BytePipe) : Prop :=
  ∃ more n', (∀ l ∈ more, l.drains = true) ∧ run (step byteLink) n more = some n' ∧
    Flowing sessionId n' ∧ n'.load < n.load

theorem Flowing.eases (flowing : Flowing sessionId n) {s : SessionSide} (eases : (n.peer s).Eases) :
    Nearer sessionId n := by
  obtain ⟨acts, p, drains, acted, running, free, lighter⟩ := eases
  obtain ⟨n', further, rfl, others⟩ := run_acts (K := byteLink) acted
  have drain : ∀ l ∈ acts.map (Label.act s), l.drains = true := by
    intro l member
    obtain ⟨act, there, rfl⟩ := List.mem_map.mp member
    exact drains act there
  have after := flowing.more drain further others running free
  exact ⟨_, n', drain, further, after,
    load_lighter flowing.reached.sound after.reached.sound others lighter⟩

/-- What a frame makes an actor do first. -/
theorem frame_phase {a a' : SessionActor} {f : Frame} {es : List Effect} (h : Step a (.frame f) a' es) :
    a'.phase ≠ .left := by
  intro left
  cases h with
  | openResponse top | openReset top | unknown top => cases top.symm.trans left
  | _ => cases left

theorem poll_reads {K : Link L} {n : Net L} {s : SessionSide} {f : Frame}
    (top : (n.peer s).actor.phase = .select) (next : (K.next (n.link s.other)).1 = some f) :
    ∃ a es, Step (n.peer s).actor (.frame f) a es ∧
      n.poll K s = some ((n.consumed K s).replace K s ((n.peer s).advance (.frame f) a es)) := by
  have hs : Step (n.peer s).actor (.frame f) _ _ := SessionActor.handleIncomingFrame_step top rfl
  have pair : K.next (n.link s.other) = (some f, (K.next (n.link s.other)).2) := Prod.ext next rfl
  refine ⟨_, _, hs, ?_⟩
  rw [poll, if_pos top, pair]
  simp only [Peer.take_of_step hs, Option.map_some, consumed]

/-- A side at rest reads the next frame in flight. It has no call under way that the frame could
be in the way of. -/
theorem Flowing.reads (flowing : Flowing sessionId n) {s : SessionSide} (idle : (n.peer s).Idle)
    {f : Frame} {rest : List Frame} (head : byteLink.inFlight (n.link s.other) = f :: rest) :
    Nearer sessionId n := by
  let m : Net BytePipe :=
    { n with
      link := Function.update n.link s.other
        (byteLink.deliver (n.link s.other) (n.link s.other).pipe.length) }
  have next : (byteLink.next (m.link s.other)).1 = some f := by
    simp only [m, Function.update_self]
    exact byteLink_prompt head
  obtain ⟨a, es, hs, polled⟩ := poll_reads (n := m) idle.top next
  let n' := (m.consumed byteLink s).replace byteLink s ((n.peer s).advance (.frame f) a es)
  have mine : n'.peer s = (n.peer s).advance (.frame f) a es := replace_peer_self _ _ _ _
  have theirs : n'.peer s.other = n.peer s.other := replace_peer_other _ _ _ _
  have drains : ∀ l ∈ [Label.deliver s.other (n.link s.other).pipe.length, .poll s], l.drains = true :=
    List.forall_mem_cons.mpr ⟨rfl, List.forall_mem_singleton.mpr rfl⟩
  have further : run (step byteLink) n
      [.deliver s.other (n.link s.other).pipe.length, .poll s] = some n' :=
    run_cons_some.mpr ⟨m, rfl, run_cons_some.mpr ⟨n', polled, rfl⟩⟩
  have lighter : (n'.peer s).Lighter (n.peer s) := by
    have less := Peer.advance_load (flowing.reached.ready s).slot_next hs
    have read : ((n.peer s).advance (.frame f) a es).read = (n.peer s).read + frameLoad f := by
      rw [Peer.read, Peer.advance_inputs, SessionActor.arrived_append, List.map_append, List.sum_append]
      rfl
    rw [mine, Peer.Lighter, read]
    change _ ≤ _ + frameLoad f at less
    omega
  have free : ¬ (n'.peer s).Jammed := by
    rw [mine]
    intro jammed
    obtain ⟨c, h, jam⟩ := jammed
    have handle := jam.handle
    rw [Peer.advance_handles] at handle
    exact jam.calling (idle.todo c h handle)
  have after := flowing.more drains further theirs (mine ▸ frame_phase hs) free
  exact ⟨_, n', drains, further, after,
    load_lighter flowing.reached.sound after.reached.sound theirs lighter⟩

theorem Flowing.drained_or_nearer (flowing : Flowing sessionId n) : n.Drained ∨ Nearer sessionId n := by
  by_cases eases : ∃ s, (n.peer s).Eases
  · obtain ⟨s, eases⟩ := eases
    exact .inr (flowing.eases eases)
  · have idle (s : SessionSide) : (n.peer s).Idle :=
      Peer.idle_of_stuck (flowing.reached.ready s) (flowing.running s) (flowing.free s)
        fun able => eases ⟨s, able⟩
    by_cases busy : ∃ s, byteLink.inFlight (n.link s) ≠ []
    · obtain ⟨s, busy⟩ := busy
      obtain ⟨f, rest, head⟩ := List.exists_cons_of_ne_nil busy
      rw [← s.other_other] at head
      exact .inr (flowing.reads (idle s.other) head)
    · exact .inl ⟨idle, fun s => by_contra fun some_frame => busy ⟨s, some_frame⟩⟩

/-- In a state at rest the books of both sides are closed. -/
theorem Drained.complete (sound : Sound byteLink n) (drained : n.Drained) : n.Complete := by
  obtain ⟨fits, aligned, agree⟩ := sound.agree
  have read (s : SessionSide) :
      arrived (n.peer s.other).inputs = (writes (n.peer s).effects).map Frame.wire := by
    rw [agree.fifo s, drained.links s, List.append_nil]
  refine ⟨fun s i => ?_, fun s i c live alive => ?_⟩
  · have requests := (agree.ledger s).requests
    have responses := (agree.ledger s.other).responses
    have announces := (agree.ledger s.other).announces
    have resolves := (agree.ledger s).resolves
    rw [SessionActor.requesting_select (drained.idle s).top, List.append_nil, ← read s] at requests
    rw [SessionActor.responding_select (drained.idle s.other).top, List.append_nil, ← read s.other,
      SessionSide.other_other] at responses
    rw [SessionActor.announcing_select (drained.idle s.other).top, List.append_nil] at announces
    have all : resolvedIds (n.peer s).effects = (n.peer s).allocated := by
      rw [resolves, responses, announces, requests]
    by_contra waits
    obtain ⟨given, unresolved⟩ := ((agree.ledger s).pending i).mp waits
    exact unresolved (all ▸ given)
  · have settled := sound.settled s.other
    have whole := submitted_whole agree (sound.settled s).flow i
    have order := settled.flow.received.order c
    have held : SessionActor.held c (n.peer s.other).actor = [] := by
      simp only [SessionActor.held, (drained.idle s.other).top]
    have writing : writingOn i (n.peer s).actor = [] := by
      simp only [writingOn, (drained.idle s).top]
    rw [drained.links s, writing, (drained.idle s).events, ← settled.flow.incoming.live i c live, held,
      List.append_nil, ← order, (drained.idle s.other).queues c alive, List.append_nil] at whole
    rw [receivedOn_live settled.flow settled.nodup live, ← whole]
    exact (List.append_nil _).symm

end
end Net

section jam
variable {p p' : Peer}

/-- A stream that the application was not handed has no handle yet. -/
theorem Handed.unheld (handed : Handed p) {c : ChannelId}
    (new : ¬ ∃ t ∈ p.returned ++ p.taken, t.frameReceiver = c) : p.handles.get c = none := by
  refine Option.eq_none_iff_forall_ne_some.mpr fun h found => ?_
  exact new (handed.handles c h found)

namespace Peer

/-- The actor takes nothing new while it is blocked. -/
theorem Jam.blocks {c : ChannelId} {h : Handle} (jam : p.Jam c h) {x : Input} {a : SessionActor}
    {es : List Effect} (hs : Step p.actor x a es) : ∃ ok, x = .resume ok := by
  obtain ⟨i, f, blocked⟩ := jam.blocked
  cases hs with
  | cancelled top | readError top | eof top | forward top | openRequest top | openResponse top
    | openReset top | unknown top | openStream top | shutdownCommand top | eventFrame top
    | eventClosed top | eventError top => cases blocked.symm.trans top
  | _ => exact ⟨_, rfl⟩

theorem Jam.other {c d : ChannelId} {h new : Handle} (jam : p.Jam c h) (other : c ≠ d) :
    (p.handles.insert d new).get c = some h :=
  (Table.get_insert_of_ne _ other _).trans jam.handle

theorem Jam.fresh {c d : ChannelId} {h : Handle} (jam : p.Jam c h) (fresh : p.handles.get d = none) :
    c ≠ d := by
  rintro rfl
  cases jam.handle.symm.trans fresh

theorem push_room {c : ChannelId} (running : p.actor.phase ≠ .left) (done : p.step (.push c) = some p') :
    p.events.length < eventCapacity := by
  obtain ⟨h, -, done⟩ := Option.bind_eq_some_iff.mp done
  unfold push at done
  split at done
  · cases done
  · rw [if_neg running] at done
    obtain ⟨q, entered, -⟩ := Option.map_eq_some_iff.mp done
    exact (enqueue_some entered).2.1

/-- A jam lasts: nothing that the application may still do makes room in either channel. -/
theorem Jam.step {c : ChannelId} {h : Handle} (jam : p.Jam c h) (handed : Handed p) {act : Act}
    (drains : act.drains = true) (done : p.step act = some p') : p'.Jammed := by
  obtain ⟨i, f, top⟩ := jam.blocked
  have moved := step_moved done
  cases moved with
  | command queued hs | event queued hs =>
      obtain ⟨ok, same⟩ := jam.blocks hs
      cases same
  | resume ends => cases ends.symm.trans ((outcome_forward_none top).mpr ⟨jam.alive, jam.full⟩)
  | openFails => exact ⟨c, h, jam.kept rfl rfl rfl jam.handle (Nat.le_refl _)⟩
  | openReturns waits =>
      have new := handed.unheld (handed.reply_apart waits)
      exact ⟨c, h, jam.kept rfl rfl rfl (jam.other (jam.fresh new)) (Nat.le_refl _)⟩
  | acceptStream head =>
      have new := handed.unheld (handed.accept_apart head)
      exact ⟨c, h, jam.kept rfl rfl rfl (jam.other (jam.fresh new)) (Nat.le_refl _)⟩
  | pushFails found next left => cases top.symm.trans left
  | @push d g e todo found next =>
      have room := push_room (fun left => by cases top.symm.trans left) done
      have crowded := jam.crowded
      rcases eq_or_ne c d with rfl | other
      · cases jam.handle.symm.trans found
        -- both events do not fit, so one is still to come
        rw [next, List.length_cons] at crowded
        refine ⟨c, _, jam.blocked, jam.alive, jam.full, Table.get_insert_self _ _ _, jam.whole, ?_, ?_⟩
        · exact List.ne_nil_of_length_pos (by simp only; omega)
        · simp only [queued, List.length_append, List.length_cons, List.length_nil]
          omega
      · refine ⟨c, h, jam.kept rfl rfl rfl (jam.other other) ?_⟩
        simp only [queued, List.length_append, List.length_cons, List.length_nil]
        omega
  | @recv d g frame rest found waiting alive idle =>
      rcases eq_or_ne c d with rfl | other
      · cases jam.handle.symm.trans found
        rcases idle with halved | idle
        · cases halved.symm.trans jam.whole
        · exact absurd idle jam.calling
      · exact ⟨c, h, jam.kept rfl rfl (if_neg other) (jam.other other) (Nat.le_refl _)⟩
  | _ => cases drains

end Peer
end jam

namespace Net
variable {sessionId : SessionSide → SessionId} {n n' : Net BytePipe}

theorem jammed_step (sound : Sound byteLink n) {s : SessionSide} (jammed : (n.peer s).Jammed) {l : Label}
    (drains : l.drains = true) (next : n.step byteLink l = some n') : (n'.peer s).Jammed := by
  obtain ⟨c, h, jam⟩ := jammed
  rcases peer_step next s with same | ⟨f, a, es, -, hs, -⟩ | ⟨act, rfl, -⟩
  · rw [same]
    exact ⟨c, h, jam⟩
  · obtain ⟨ok, same⟩ := jam.blocks hs
    cases same
  · obtain ⟨p, done, rfl⟩ := Option.map_eq_some_iff.mp next
    rw [replace_peer_self]
    exact jam.step (sound.handed s) drains done

theorem jammed_run (reached : Reached sessionId n) {s : SessionSide} (jammed : (n.peer s).Jammed)
    {more : List Label} (drains : ∀ l ∈ more, l.drains = true)
    (further : run (step byteLink) n more = some n') : (n'.peer s).Jammed := by
  have kept := run_invariant (fun l => l.drains = true)
    (fun m : Net BytePipe => Reached sessionId m ∧ (m.peer s).Jammed) ?_ drains further ⟨reached, jammed⟩
  · exact kept.2
  · intro m l m' drain next kept
    obtain ⟨before, stuck⟩ := kept
    refine ⟨before.more (List.forall_mem_singleton.mpr drain) ?_, jammed_step before.sound stuck drain next⟩
    exact run_cons_some.mpr ⟨m', next, rfl⟩

end Net

namespace Sample

/-- The client sends a byte, and the server's actor reads it. -/
def carry : List Net.Label :=
  [.act .client (.submit 0 (.bytes [7])), .act .client .event, .act .client .resume,
    .deliver .client 100, .poll .server]

/-- The client sends one frame more than the server's stream holds. The server's application
fills its event channel and waits to send once more. -/
def jam : List Net.Label :=
  establish ++ (List.replicate 32 (carry ++ [.act .server .resume])).flatten ++ carry ++
    List.replicate 32 (.act .server (.submit 0 (.bytes [7]))) ++
    [.act .server (.offer 0 (.bytes [7]))]

theorem jam_own : ∀ l ∈ jam, l.Own := by
  have carried : ∀ l ∈ carry, l.Own := by simp [carry, Net.Label.Own, Submission.Own]
  simp only [jam, List.forall_mem_append, List.forall_mem_flatten]
  refine ⟨⟨⟨⟨establish_own, ?_⟩, carried⟩, ?_⟩, by simp [Net.Label.Own, Submission.Own]⟩
  · intro ls member
    rw [List.eq_of_mem_replicate member, List.forall_mem_append]
    exact ⟨carried, by simp [Net.Label.Own]⟩
  · intro l member
    rw [List.eq_of_mem_replicate member]
    simp [Net.Label.Own, Submission.Own]

end Sample

end Foctet.Mux
