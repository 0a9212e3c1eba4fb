import Foctet.Mux.Net

/-! Who hands out which stream identifier. Both sides count up by one, the client
from 1 and the server from 2, so the two sequences overlap. -/
namespace Foctet.Mux
open Foctet.Core Foctet.Lib
open SessionActor (Input)

/-- How many `OpenStream` commands an actor has handled. -/
def handledOpens (inputs : List Input) : Nat :=
  inputs.countP fun
    | .command (.openStream _) => true
    | _ => false

/-- How many times an application has called `open_stream`. -/
def opens (s : SessionSide) (labels : List Net.Label) : Nat :=
  labels.countP fun l => l = .act s .openStream

theorem handledOpens_append (xs ys : List Input) :
    handledOpens (xs ++ ys) = handledOpens xs + handledOpens ys := List.countP_append

def queuedOpens (commands : List Command) : Nat :=
  commands.countP fun
    | .openStream _ => true
    | .shutdown _ => false

/-- The identifiers of a side are the first ones of its sequence, one for each
command handled. -/
structure Counted (s : SessionSide) (p : Peer) : Prop where
  next : p.actor.nextStreamId = (firstStreamId s).nth (handledOpens p.inputs)
  allocated : p.allocated = (firstStreamId s).upTo (handledOpens p.inputs)

/-- Only the command to open moves the counter. -/
theorem step_nextStreamId {a a' : SessionActor} {x : Input} {es : List Effect}
    (h : SessionActor.Step a x a' es) :
    (∃ reply, x = .command (.openStream reply)) ∧
      a'.nextStreamId = (a.nextStreamId.fetchAdd 1).2 ∧ handledOpens [x] = 1 ∨
    (∀ reply, x ≠ .command (.openStream reply)) ∧ a'.nextStreamId = a.nextStreamId ∧
      handledOpens [x] = 0 := by
  cases h with
  | openStream top => exact .inl ⟨⟨_, rfl⟩, rfl, rfl⟩
  | _ => exact .inr ⟨fun reply hx => (by cases hx), rfl, rfl⟩

theorem counted_input {s : SessionSide} {p p' : Peer} {x : Input} {es : List Effect}
    (h : Counted s p) (hs : SessionActor.Step p.actor x p'.actor es)
    (inputs : p'.inputs = p.inputs ++ [x])
    (allocated : p'.allocated = SessionActor.nextAllocated p.actor p.allocated x) :
    Counted s p' := by
  rcases step_nextStreamId hs with ⟨⟨reply, rfl⟩, moved, one⟩ | ⟨other, same, zero⟩
  · have count : handledOpens p'.inputs = handledOpens p.inputs + 1 := by
      rw [inputs, handledOpens_append, one]
    refine ⟨?_, ?_⟩
    · rw [moved, count, h.next]
      rfl
    · rw [allocated, count, StreamId.upTo_succ, ← h.allocated, ← h.next]
      rfl
  · have count : handledOpens p'.inputs = handledOpens p.inputs := by
      rw [inputs, handledOpens_append, zero]
      rfl
    have kept : SessionActor.nextAllocated p.actor p.allocated x = p.allocated := by
      unfold SessionActor.nextAllocated
      split
      · exact absurd rfl (other _)
      · rfl
    exact ⟨by rw [same, count, h.next], by rw [allocated, kept, count, h.allocated]⟩

theorem counted_moved {s : SessionSide} {p p' : Peer} {act : Peer.Act} (h : Peer.Moved p act p')
    (counted : Counted s p) : Counted s p' := by
  rcases Net.moved_account h with ⟨hactor, hinputs, -, hallocated⟩ |
    ⟨x, es, hs, hinputs, -, hallocated, -⟩
  · exact ⟨by rw [hactor, hinputs, counted.next], by rw [hallocated, hinputs, counted.allocated]⟩
  · exact counted_input counted hs hinputs hallocated

variable {L : Type}

theorem counted_run {K : Link L} {sessionId : SessionSide → SessionId} {labels : List Net.Label}
    {n : Net L} (reached : run (Net.step K) (Net.spawn K sessionId) labels = some n)
    (s : SessionSide) : Counted s (n.peer s) :=
  Net.peer_run s (Counted s)
    (fun _ _ _ _ hs counted => counted_input counted hs rfl (Peer.advance_allocated _ _ _ _))
    (fun _ _ _ moved counted => counted_moved moved counted) reached ⟨rfl, rfl⟩

/-- A side's commands to open are queued or handled, and each was called for. -/
theorem opens_moved {p p' : Peer} {act : Peer.Act} (h : Peer.Moved p act p') :
    handledOpens p'.inputs + queuedOpens p'.commands =
      handledOpens p.inputs + queuedOpens p.commands + if act = .openStream then 1 else 0 := by
  cases h with
  | @command cmd rest a es hc hs =>
      have head : handledOpens [.command cmd] + queuedOpens rest = queuedOpens p.commands := by
        rw [hc]
        cases cmd with
        | openStream reply => simp [handledOpens, queuedOpens, Nat.add_comm]
        | shutdown reply => simp [handledOpens, queuedOpens]
      simp only [Peer.advance_inputs, Peer.advance_commands, handledOpens_append, reduceCtorEq,
        if_false]
      omega
  | @event i e rest a es he hs =>
      simp only [Peer.advance_inputs, Peer.advance_commands, handledOpens_append, reduceCtorEq,
        if_false]
      rfl
  | resume | cancel =>
      simp only [Peer.advance_inputs, Peer.advance_commands, handledOpens_append, reduceCtorEq,
        if_false]
      rfl
  | openStream =>
      simp only [queuedOpens, List.countP_append, if_true]
      rfl
  | shutdown =>
      simp only [queuedOpens, List.countP_append, reduceCtorEq, if_false]
      rfl
  | _ => rfl

theorem opens_step {K : Link L} {n n' : Net L} {l : Net.Label} (h : n.step K l = some n')
    (s : SessionSide) :
    handledOpens (n'.peer s).inputs + queuedOpens (n'.peer s).commands ≤
      handledOpens (n.peer s).inputs + queuedOpens (n.peer s).commands + opens s [l] := by
  rcases Net.peer_step h s with same | ⟨f, a, es, -, -, moved⟩ | ⟨act, rfl, moved⟩
  · rw [same]
    exact Nat.le_add_right _ _
  · rw [moved, Peer.advance_inputs, Peer.advance_commands, handledOpens_append]
    exact Nat.le_add_right _ _
  · rw [opens_moved moved]
    by_cases call : act = .openStream <;> simp [opens, call]

theorem opens_run {K : Link L} {n m : Net L} {labels : List Net.Label}
    (h : run (Net.step K) n labels = some m) (s : SessionSide) :
    handledOpens (m.peer s).inputs + queuedOpens (m.peer s).commands ≤
      handledOpens (n.peer s).inputs + queuedOpens (n.peer s).commands + opens s labels := by
  induction labels generalizing n with
  | nil =>
      cases h
      exact Nat.le_refl _
  | cons l labels ih =>
      obtain ⟨n', hstep, hrest⟩ := run_cons_some.mp h
      have split : opens s (l :: labels) = opens s [l] + opens s labels := by
        unfold opens
        rw [← List.countP_append, List.singleton_append]
      have now := opens_step hstep s
      have later := ih hrest
      omega

/-- No side handles more commands to open than its application has issued. -/
theorem handledOpens_le {K : Link L} {sessionId : SessionSide → SessionId}
    {labels : List Net.Label} {n : Net L}
    (reached : run (Net.step K) (Net.spawn K sessionId) labels = some n) (s : SessionSide) :
    handledOpens (n.peer s).inputs ≤ opens s labels := by
  have total := opens_run reached s
  have start : handledOpens ((Net.spawn K sessionId).peer s).inputs +
      queuedOpens ((Net.spawn K sessionId).peer s).commands = 0 := rfl
  omega

theorem first_toNat (s : SessionSide) :
    (firstStreamId s).id.toNat = match s with | .client => 1 | .server => 2 := by
  cases s <;> rfl

/-- The two sequences share an identifier once the client has taken two and the server one. -/
theorem upTo_disjoint_iff {a b : Nat} (ha : a < 2 ^ 31) (hb : b < 2 ^ 31) :
    (∀ i, ¬ (i ∈ (firstStreamId .client).upTo a ∧ i ∈ (firstStreamId .server).upTo b)) ↔
      a ≤ 1 ∨ b = 0 := by
  have hc := first_toNat .client
  have hs := first_toNat .server
  simp only at hc hs
  constructor
  · intro apart
    by_contra both
    refine apart ⟨2⟩ ⟨StreamId.mem_upTo.mpr ⟨1, by omega, rfl⟩, StreamId.mem_upTo.mpr ⟨0, by omega, rfl⟩⟩
  · rintro few i ⟨mine, theirs⟩
    obtain ⟨j, hj, rfl⟩ := StreamId.mem_upTo.mp mine
    obtain ⟨k, hk, same⟩ := StreamId.mem_upTo.mp theirs
    have ours := (firstStreamId .client).nth_toNat j (by omega)
    have other := (firstStreamId .server).nth_toNat k (by omega)
    rw [same] at other
    omega

/-- Agreement on identifiers: none is handed out by both sides, none waits for an
answer at a side that already serves it, and an answer to a waiting one resolves it. -/
structure StreamIdsAgree (n : Net L) : Prop where
  apart : ∀ i, ¬ (i ∈ (n.peer .client).allocated ∧ i ∈ (n.peer .server).allocated)
  exclusive : ∀ s i, ¬ ((n.peer s).actor.pendingStreams.get i ≠ none ∧
    (n.peer s).actor.streams.get i ≠ none)
  resolves : ∀ s f reply, f.header.flags.isOpenResponse = true →
    (n.peer s).actor.pendingStreams.get f.header.streamId = some reply →
    ∃ a, (n.peer s).actor.handleIncomingFrame f =
        (a, [.resolve reply (.ok ⟨(n.peer s).actor.sessionId, f.header.streamId, .established,
          (n.peer s).actor.nextChannel⟩)]) ∧
      a.pendingStreams.get f.header.streamId = none ∧
      a.streams.get f.header.streamId = some (n.peer s).actor.nextChannel

/-- A response for an identifier that waits and is not served resolves it. -/
theorem response_resolves {a : SessionActor} {f : Frame} {reply : ReplyId}
    (hresp : f.header.flags.isOpenResponse = true) (absent : a.streams.get f.header.streamId = none)
    (waiting : a.pendingStreams.get f.header.streamId = some reply) :
    ∃ a', a.handleIncomingFrame f =
        (a', [.resolve reply (.ok ⟨a.sessionId, f.header.streamId, .established, a.nextChannel⟩)]) ∧
      a'.pendingStreams.get f.header.streamId = none ∧
      a'.streams.get f.header.streamId = some a.nextChannel := by
  have notRequest := (FrameFlags.openResponse_only hresp).1
  refine ⟨{ a with
      nextChannel := a.nextChannel + 1
      pendingStreams := a.pendingStreams.remove f.header.streamId
      streams := a.streams.insert f.header.streamId a.nextChannel }, ?_,
    Table.get_remove_self _ _, Table.get_insert_self _ _ _⟩
  simp only [SessionActor.handleIncomingFrame, absent, notRequest, hresp, waiting,
    Bool.false_eq_true, if_false, if_true]

theorem exclusive_of_agree {K : Link L} {fits : Frame → Prop} {sound : L → Prop} {n : Net L}
    (agree : Net.Agree K fits sound n) (apart : Net.Apart n) (s : SessionSide) (i : StreamId) :
    ¬ ((n.peer s).actor.pendingStreams.get i ≠ none ∧ (n.peer s).actor.streams.get i ≠ none) := by
  rintro ⟨waiting, live⟩
  obtain ⟨mine, unresolved⟩ := ((agree.ledger s).pending i).mp waiting
  rcases agree.registered s live with ⟨theirs, -⟩ | ⟨-, resolved⟩
  · exact apart.disjoint s i mine theirs
  · exact unresolved resolved

/-- Two honest sessions agree on their identifiers exactly as long as the client has
handled at most one command to open, or the server none. -/
theorem stream_ids_agree_iff (sessionId : SessionSide → SessionId) (labels : List Net.Label)
    (n : Net (List Frame))
    (reached : run (Net.step frameLink) (Net.spawn frameLink sessionId) labels = some n)
    (fair : ∀ l ∈ labels, l.Fair (fun _ => True)) (few : ∀ s, opens s labels < 2 ^ 31) :
    StreamIdsAgree n ↔
      handledOpens (n.peer .client).inputs ≤ 1 ∨ handledOpens (n.peer .server).inputs = 0 := by
  have bound (s : SessionSide) : handledOpens (n.peer s).inputs < 2 ^ 31 :=
    Nat.lt_of_le_of_lt (handledOpens_le reached s) (few s)
  have client := (counted_run reached .client).allocated
  have server := (counted_run reached .server).allocated
  have overlap := upTo_disjoint_iff (bound .client) (bound .server)
  rw [← client, ← server] at overlap
  constructor
  · exact fun agree => overlap.mp agree.apart
  · intro few_opened
    have disjoint := overlap.mpr few_opened
    have apart : Net.Apart n := by
      refine ⟨?_, ?_⟩
      · intro s
        have first := first_toNat s
        have small := bound s
        rw [(counted_run reached s).allocated]
        refine StreamId.upTo_nodup _ _ ?_
        cases s <;> simp only at first <;> omega
      · intro s i mine theirs
        cases s with
        | client => exact disjoint i ⟨mine, theirs⟩
        | server => exact disjoint i ⟨theirs, mine⟩
    have agree := Net.agree_run frameLink_fifo (fun _ _ => trivial) fair reached apart
    refine ⟨disjoint, exclusive_of_agree agree apart, ?_⟩
    intro s f reply hresp waiting
    have absent : (n.peer s).actor.streams.get f.header.streamId = none := by
      by_contra live
      exact exclusive_of_agree agree apart s _ ⟨by rw [waiting]; exact Option.some_ne_none _, live⟩
    exact response_resolves hresp absent waiting

/-- One side opens a stream: the call, the command, the request written. -/
def openOnce (s : SessionSide) : List Net.Label :=
  [.act s .openStream, .act s .command, .act s .resume]

/-- One side reads an open request, announces the stream and answers. -/
def serveOnce (s : SessionSide) : List Net.Label :=
  [.poll s, .act s .resume, .act s .resume]

/-- Each side opens one stream and both handshakes end. -/
def oneEach : List Net.Label :=
  openOnce .client ++ openOnce .server ++ serveOnce .client ++ serveOnce .server ++
    [.poll .client, .poll .server]

theorem stream_ids_agree_iff_one_each :
    ∃ n, run (Net.step frameLink) (Net.spawn frameLink fun _ => ⟨1⟩) oneEach = some n ∧
      StreamIdsAgree n := by
  have runs : (run (Net.step frameLink) (Net.spawn frameLink fun _ => ⟨1⟩) oneEach).isSome = true :=
    rfl
  obtain ⟨n, reached⟩ := Option.isSome_iff_exists.mp runs
  have once : opens .client oneEach = 1 := by decide
  refine ⟨n, reached, (stream_ids_agree_iff (fun _ => ⟨1⟩) oneEach n reached ?_ ?_).mpr (.inl ?_)⟩
  · simp [oneEach, openOnce, serveOnce, Net.Label.Fair]
  · intro s
    cases s <;> decide
  · rw [← once]
    exact handledOpens_le reached .client

/-- The client's second identifier is the server's first. The server then serves the
client's stream 2 while its own stream 2 waits for an answer. -/
theorem stream_two_allocated_twice :
    ∃ n, run (Net.step frameLink) (Net.spawn frameLink fun _ => ⟨1⟩)
        (openOnce .client ++ openOnce .client ++ openOnce .server ++ serveOnce .server ++
          serveOnce .server) = some n ∧
      (⟨2⟩ ∈ (n.peer .client).allocated ∧ ⟨2⟩ ∈ (n.peer .server).allocated) ∧
      (n.peer .server).actor.pendingStreams.get ⟨2⟩ ≠ none ∧
      (n.peer .server).actor.streams.get ⟨2⟩ ≠ none ∧ ¬ StreamIdsAgree n := by
  refine ⟨_, rfl, ⟨by decide, by decide⟩, by decide, by decide, ?_⟩
  intro agree
  exact agree.apart ⟨2⟩ ⟨by decide, by decide⟩

end Foctet.Mux
