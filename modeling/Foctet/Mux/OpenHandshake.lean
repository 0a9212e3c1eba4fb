import Foctet.Mux.Allocation
import Foctet.Mux.Handles

/-! Agreement on the open handshake when only the client opens streams. -/
namespace Foctet.Mux
open Foctet.Core Foctet.Lib
open SessionActor (arrived accepted acceptedIds resolved resolvedIds)

variable {L : Type} {K : Link L} {sessionId : SessionSide → SessionId} {labels : List Net.Label}
  {n : Net L}

/-- A server that is never asked to open hands out nothing. -/
theorem server_allocates_nothing
    (reached : run (Net.step K) (Net.spawn K sessionId) labels = some n)
    (only : opens .server labels = 0) : (n.peer .server).allocated = [] := by
  have none_handled : handledOpens (n.peer .server).inputs = 0 := by
    have := handledOpens_le reached .server
    omega
  rw [(counted_run reached .server).allocated, none_handled]
  rfl

/-- With one side opening, identifiers stay apart until the counter runs out. -/
theorem apart_of_client_opens
    (reached : run (Net.step K) (Net.spawn K sessionId) labels = some n)
    (only : opens .server labels = 0) (few : opens .client labels ≤ 2 ^ 32 - 1) : Net.Apart n := by
  have nothing := server_allocates_nothing reached only
  have bound := Nat.le_trans (handledOpens_le reached .client) few
  have first := first_toNat .client
  simp only at first
  refine ⟨?_, ?_⟩
  · intro s
    cases s with
    | client =>
        rw [(counted_run reached .client).allocated]
        exact StreamId.upTo_nodup _ _ (by omega)
    | server =>
        rw [nothing]
        exact List.nodup_nil
  · intro s i mine theirs
    cases s with
    | client =>
        rw [SessionSide.other, nothing] at theirs
        cases theirs
    | server =>
        rw [nothing] at mine
        cases mine

/-- `accept_stream` takes from one end of the accept channel what the actor puts on the other. -/
def AcceptQueue (p : Peer) : Prop := p.taken ++ p.accepts = accepted p.effects

theorem acceptQueue_advance {p : Peer} (h : AcceptQueue p) (x : SessionActor.Input)
    (a : SessionActor) (es : List Effect) : AcceptQueue (p.advance x a es) := by
  change (p.advance x a es).taken ++ (es.foldl Peer.apply p).accepts = accepted (p.effects ++ es)
  rw [Peer.advance_taken, Peer.foldl_apply_accepts, SessionActor.accepted_append,
    ← List.append_assoc, h]

theorem acceptQueue_moved {p p' : Peer} {act : Peer.Act} (m : Peer.Moved p act p')
    (h : AcceptQueue p) : AcceptQueue p' := by
  cases m with
  | @command cmd rest a es hc hs =>
      have popped : AcceptQueue { p with commands := rest, allocated := p.noteAllocated cmd } := h
      exact acceptQueue_advance popped _ _ _
  | @event i e rest a es he hs =>
      have popped : AcceptQueue { p with events := rest, sent := p.noteSent i e } := h
      exact acceptQueue_advance popped _ _ _
  | resume hok hs => exact acceptQueue_advance h _ _ _
  | cancel hs => exact acceptQueue_advance h _ _ _
  | @acceptStream s rest ha =>
      change (p.taken ++ [s]) ++ rest = accepted p.effects
      rw [List.append_assoc, List.singleton_append, ← ha]
      exact h
  | _ => exact h

structure OpenHandshake (sessionId : SessionSide → SessionId) (n : Net L) : Prop where
  /-- returned identifiers are not zero and all different -/
  nonzero : ∀ s ∈ (n.peer .client).returned, s.streamId ≠ ⟨0⟩
  nodup : ((n.peer .client).returned.map LogicalStream.streamId).Nodup
  /-- a returned stream was registered and announced, once, at the server -/
  served : ∀ s ∈ (n.peer .client).returned,
    (n.peer .server).WasRegistered .server (sessionId .server) s.streamId ∧
      (acceptedIds (n.peer .server).effects).count s.streamId = 1
  /-- streams are announced in the order of the commands to open them -/
  queue : (n.peer .server).taken ++ (n.peer .server).accepts = accepted (n.peer .server).effects
  order : acceptedIds (n.peer .server).effects <+: (n.peer .client).allocated
  once : (acceptedIds (n.peer .server).effects).Nodup
  /-- a frame the server sent on a stream arrives behind that stream's open response -/
  behind : ∀ m ∈ (n.peer .server).sent, m.place < (arrived (n.peer .client).inputs).length →
    (arrived (n.peer .client).inputs)[m.place]? = some m.frame.wire ∧
      ∃ j < m.place, (arrived (n.peer .client).inputs)[j]? = some (openResponseFrame m.stream).wire
  /-- when such a frame is the next to be read, the client has had its stream in its map -/
  expected : ∀ m ∈ (n.peer .server).sent, m.place = (arrived (n.peer .client).inputs).length →
    (n.peer .client).WasRegistered .client (sessionId .client) m.stream

section pieces
variable {fits : Frame → Prop} {sound : L → Prop}

/-- No channel is given out twice, and no reply is given or taken twice. -/
theorem claimed_run (reached : run (Net.step K) (Net.spawn K sessionId) labels = some n)
    (s : SessionSide) :
    SessionActor.Minted (n.peer s).actor (n.peer s).effects ∧ (n.peer s).Claimed := by
  refine Net.peer_run s (fun p => SessionActor.Minted p.actor p.effects ∧ p.Claimed) ?_ ?_ reached
    ⟨SessionActor.minted_spawn s (sessionId s), Peer.claimed_spawn s (sessionId s)⟩
  · rintro p f a es hs ⟨minted, claimed⟩
    have after := SessionActor.minted_step hs minted
    exact ⟨after, claimed.input hs after.resolved_nodup⟩
  · rintro p act p' moved ⟨minted, claimed⟩
    have after := minted.moved moved
    exact ⟨after, claimed.moved moved after.resolved_nodup⟩

theorem placed_run (reached : run (Net.step K) (Net.spawn K sessionId) labels = some n)
    (s : SessionSide) : (n.peer s).Known ∧ (n.peer s).Placed := by
  refine Net.peer_run s (fun p => p.Known ∧ p.Placed) ?_ ?_ reached
    ⟨Peer.known_spawn s (sessionId s), Peer.placed_spawn s (sessionId s)⟩
  · rintro p f a es hs ⟨known, placed⟩
    refine ⟨known.advance _ _ _, placed.input hs rfl (Peer.advance_sent _ _ _ _) ?_⟩
    exact fun failed => (by cases failed)
  · rintro p act p' moved ⟨known, placed⟩
    exact ⟨known.moved moved, placed.moved moved known⟩

theorem traced_run (reached : run (Net.step K) (Net.spawn K sessionId) labels = some n)
    (s : SessionSide) : (n.peer s).Traced s (sessionId s) :=
  Net.peer_run s (Peer.Traced s (sessionId s)) (fun _ _ _ _ hs traced => traced.advance hs)
    (fun _ _ _ moved traced => traced.moved moved) reached rfl

theorem acceptQueue_run (reached : run (Net.step K) (Net.spawn K sessionId) labels = some n)
    (s : SessionSide) : AcceptQueue (n.peer s) :=
  Net.peer_run s AcceptQueue (fun _ _ _ _ _ h => acceptQueue_advance h _ _ _)
    (fun _ _ _ moved h => acceptQueue_moved moved h) reached rfl

/-- The identifiers of a client that opens less often than the counter has values
start at 1 and do not come round to 0. -/
theorem client_id_nonzero (reached : run (Net.step K) (Net.spawn K sessionId) labels = some n)
    (few : opens .client labels ≤ 2 ^ 32 - 1) {i : StreamId}
    (member : i ∈ (n.peer .client).allocated) : i ≠ ⟨0⟩ := by
  have bound := Nat.le_trans (handledOpens_le reached .client) few
  have first := first_toNat .client
  simp only at first
  rw [(counted_run reached .client).allocated] at member
  obtain ⟨j, hj, rfl⟩ := StreamId.mem_upTo.mp member
  have value := (firstStreamId .client).nth_toNat j (by omega)
  have zero : (⟨0⟩ : StreamId).id.toNat = 0 := rfl
  intro wrapped
  rw [wrapped] at value
  omega

/-- What the client has had resolved, the server has announced. -/
theorem resolved_served (agree : Net.Agree K fits sound n) {i : StreamId}
    (member : i ∈ resolvedIds (n.peer .client).effects) :
    i ∈ acceptedIds (n.peer .server).effects := by
  rw [(agree.ledger .client).resolves] at member
  have answered : i ∈ responseIds ((writes (n.peer .server).effects).map Frame.wire) :=
    ((agree.arrived_read .client).filterMap _).subset member
  have announced : responseIds ((writes (n.peer .server).effects).map Frame.wire) <+:
      acceptedIds (n.peer .server).effects := ⟨_, (agree.ledger .server).responses⟩
  exact announced.subset answered

/-- A server that opens nothing writes an event's frame only behind the answer for its stream. -/
theorem answer_ahead (placed : (n.peer .server).Placed)
    (nothing : resolvedIds (n.peer .server).effects = []) {m : Sent}
    (member : m ∈ (n.peer .server).sent) :
    ∃ j < m.place, (writes (n.peer .server).effects)[j]? = some (openResponseFrame m.stream) := by
  rcases placed.answered m member with own | ahead
  · rw [nothing] at own
    cases own
  · obtain ⟨j, there⟩ := List.mem_iff_getElem?.mp ahead
    rw [List.getElem?_take] at there
    split at there
    · rename_i before
      exact ⟨j, before, there⟩
    · cases there

/-- What the server wrote at a place the client has read past is what the client read there. -/
theorem read_at (agree : Net.Agree K fits sound n) {j : Nat} {f : Frame}
    (within : j < (arrived (n.peer .client).inputs).length)
    (written : (writes (n.peer .server).effects)[j]? = some f) :
    (arrived (n.peer .client).inputs)[j]? = some f.wire := by
  obtain ⟨rest, whole⟩ := agree.arrived_read .client
  have kept : (arrived (n.peer .client).inputs ++ rest)[j]? =
      (arrived (n.peer .client).inputs)[j]? := List.getElem?_append_left within
  rw [← kept, whole, List.getElem?_map]
  simp only [SessionSide.other, written, Option.map_some]

end pieces

/-- Two sessions of which only the client opens streams agree on every open handshake,
in whatever order bytes move, actors wake and applications call. -/
theorem open_handshake (fits : Frame → Prop) (sound : L → Prop) (fifo : K.Fifo fits sound)
    (small : ∀ f : Frame, f.payload = [] → fits f)
    (reached : run (Net.step K) (Net.spawn K sessionId) labels = some n)
    (fair : ∀ l ∈ labels, l.Fair fits)
    (only : opens .server labels = 0) (few : opens .client labels ≤ 2 ^ 32 - 1) :
    OpenHandshake sessionId n := by
  have apart := apart_of_client_opens reached only few
  have agree := Net.agree_run fifo small fair reached apart
  obtain ⟨-, claimed⟩ := claimed_run reached .client
  obtain ⟨-, placed⟩ := placed_run reached .server
  have order := agree.accepted_allocated .client
  have once : (acceptedIds (n.peer .server).effects).Nodup :=
    (apart.nodup .client).sublist order.sublist
  have nothing : resolvedIds (n.peer .server).effects = [] := by
    have none_resolved := agree.resolved_allocated .server
    rw [server_allocates_nothing reached only] at none_resolved
    exact List.prefix_nil.mp none_resolved
  have returned_resolved {s : LogicalStream} (member : s ∈ (n.peer .client).returned) :
      s.streamId ∈ resolvedIds (n.peer .client).effects :=
    List.mem_map_of_mem (claimed.returned s member)
  have apart_ids : (resolvedIds (n.peer .client).effects).Nodup :=
    (apart.nodup .client).sublist (agree.resolved_allocated .client).sublist
  refine ⟨?_, claimed.ids_nodup apart_ids, ?_, acceptQueue_run reached .server, order, once, ?_, ?_⟩
  · intro s member
    exact client_id_nonzero reached few
      ((agree.resolved_allocated .client).subset (returned_resolved member))
  · intro s member
    have served := resolved_served agree (returned_resolved member)
    refine ⟨?_, List.count_eq_one_of_mem once served⟩
    obtain ⟨t, accepted, same⟩ := List.mem_map.mp served
    rw [← same]
    exact (traced_run reached .server).registered (List.mem_append_left _ accepted)
  · intro m member within
    obtain ⟨j, before, answer⟩ := answer_ahead placed nothing member
    refine ⟨?_, j, before, read_at agree (Nat.lt_trans before within) answer⟩
    rcases placed.written m member with there | ⟨last, -⟩
    · exact read_at agree within there
    · have length := (agree.arrived_read .client).length_le
      rw [List.length_map] at length
      simp only [SessionSide.other] at length
      omega
  · intro m member next
    obtain ⟨j, before, answer⟩ := answer_ahead placed nothing member
    have read := List.mem_of_getElem? (read_at agree (next ▸ before) answer)
    have resolved : m.stream ∈ resolvedIds (n.peer .client).effects := by
      rw [(agree.ledger .client).resolves]
      obtain ⟨before, after, split⟩ := List.append_of_mem read
      rw [split, ← List.singleton_append, responseIds_append, responseIds_append,
        (openResponseFrame_wire m.stream).2.1]
      exact List.mem_append_right _ (List.mem_append_left _ List.mem_cons_self)
    obtain ⟨t, known, same⟩ := List.mem_map.mp resolved
    rw [← same]
    exact (traced_run reached .client).registered (List.mem_append_right _ known)

/-- The client opens a stream, the server accepts it and answers with data. -/
def openAndAnswer : List Net.Label :=
  openOnce .client ++ serveOnce .server ++
    [.act .server .acceptStream, .act .server (.submit 0 (.bytes [7])), .act .server .event,
      .act .server .resume, .poll .client, .act .client (.openReturns 0)]

theorem open_handshake_one_stream :
    ∃ n, run (Net.step frameLink) (Net.spawn frameLink fun _ => ⟨1⟩) openAndAnswer = some n ∧
      (n.peer .client).returned.length = 1 ∧ (n.peer .server).sent.length = 1 ∧
      OpenHandshake (fun _ => ⟨1⟩) n := by
  have runs : ((run (Net.step frameLink) (Net.spawn frameLink fun _ => ⟨1⟩) openAndAnswer).map
      fun n => ((n.peer .client).returned.length, (n.peer .server).sent.length)) = some (1, 1) := rfl
  obtain ⟨n, reached, counts⟩ := Option.map_eq_some_iff.mp runs
  obtain ⟨returned, sent⟩ := Prod.mk.inj counts
  refine ⟨n, reached, returned, sent, ?_⟩
  refine open_handshake (fun _ => True) (fun _ => True) frameLink_fifo (fun _ _ => trivial)
    reached ?_ (by decide) (by decide)
  simp [openAndAnswer, openOnce, serveOnce, Net.Label.Fair, Net.Fair, Submission.toEvent,
    bytesFrame_plain]

end Foctet.Mux
