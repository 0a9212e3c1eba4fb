import Foctet.Lib.TableSize
import Foctet.Mux.OpenHandshake
import Foctet.Mux.OwnerLoop

/-! What a session can be made to hold. The other side of the connection may send any
frames at all, and its application may call in any order. -/
namespace Foctet.Mux
open Foctet.Core Foctet.Lib
open SessionActor (Input acceptedIds resolvedIds announcing)

namespace SessionActor

/-- Each request that was answered or still waits for an answer goes back to a call of
`open_stream`, and each registered stream to a request of either side. -/
structure Accounted (a : SessionActor) (inputs : List Input) (effects : List Effect) : Prop where
  asked : ∃ m, a.pendingStreams.AtMost m ∧ m + (resolved effects).length ≤ handledOpens inputs
  registered : ∀ i, a.streams.get i ≠ none →
    i ∈ acceptedIds effects ++ resolvedIds effects ++ announcing a

theorem accounted_spawn (side : SessionSide) (sessionId : SessionId) :
    Accounted (spawn side sessionId) [] [] where
  asked := ⟨0, Table.atMost_empty 0, Nat.le_refl 0⟩
  registered _ entry := absurd rfl entry

section step
variable {a a' : SessionActor} {x : Input} {es effects : List Effect} {inputs : List Input}

theorem asked_step (h : Step a x a' es)
    (asked : ∃ m, a.pendingStreams.AtMost m ∧ m + (resolved effects).length ≤ handledOpens inputs) :
    ∃ m, a'.pendingStreams.AtMost m ∧
      m + (resolved (effects ++ es)).length ≤ handledOpens (inputs ++ [x]) := by
  obtain ⟨m, pending, count⟩ := asked
  rw [resolved_append, List.length_append, handledOpens_append]
  cases h with
  | openStream top =>
      refine ⟨m + 1, pending.insert _, ?_⟩
      change m + 1 + (_ + 0) ≤ _ + 1
      omega
  | openResponse top free plain opens waits =>
      have entry : a.pendingStreams.get _ ≠ none := waits ▸ Option.some_ne_none _
      obtain ⟨k, rfl⟩ := Nat.exists_eq_add_of_le' (pending.pos entry)
      refine ⟨k, pending.remove_entry entry, ?_⟩
      change k + (_ + 1) ≤ _ + 0
      omega
  | openReset => exact ⟨m, pending.remove _, count⟩
  | _ => exact ⟨m, pending, count⟩

theorem registered_step (h : Step a x a' es)
    (registered : ∀ i, a.streams.get i ≠ none →
      i ∈ acceptedIds effects ++ resolvedIds effects ++ announcing a) :
    ∀ i, a'.streams.get i ≠ none →
      i ∈ acceptedIds (effects ++ es) ++ resolvedIds (effects ++ es) ++ announcing a' := by
  intro i entry
  simp only [acceptedIds_append, resolvedIds_append, List.mem_append] at registered ⊢
  have kept (told : i ∈ acceptedIds effects ∨ i ∈ resolvedIds effects) :
      ((i ∈ acceptedIds effects ∨ i ∈ acceptedIds es) ∨ i ∈ resolvedIds effects ∨ i ∈ resolvedIds es) ∨
        i ∈ announcing a' := .inl (told.imp .inl .inl)
  -- a stream that was in the map already, while the actor was announcing none
  have old (idle : announcing a = []) (before : a.streams.get i ≠ none) :
      i ∈ acceptedIds effects ∨ i ∈ resolvedIds effects := by
    rcases registered i before with told | announced
    · exact told
    · rw [idle] at announced
      cases announced
  have busy {w : Await} (top : a.phase = .awaiting w) (other : ∀ s, w ≠ .announce s) :
      announcing a = [] := by
    unfold announcing
    rw [top]
    cases w with
    | announce s => exact absurd rfl (other s)
    | _ => rfl
  cases h with
  | cancelled | readError | requestFailed | writeFailed => exact absurd rfl entry
  | eof top | forward top | unknown top | shutdownCommand top | eventFrame top | eventError top
    | openReset top | openStream top => exact kept <| old (announcing_select top) entry
  | eventClosed top => exact kept <| old (announcing_select top) (Table.get_ne_none_of_remove entry)
  | @openRequest frame top =>
      rcases eq_or_ne i frame.header.streamId with rfl | other
      · exact .inr List.mem_cons_self
      · exact kept <| old (announcing_select top) (by rwa [Table.get_insert_of_ne _ other] at entry)
  | @openResponse frame reply top =>
      rcases eq_or_ne i frame.header.streamId with rfl | other
      · exact .inl (.inr (.inr List.mem_cons_self))
      · exact kept <| old (announcing_select top) (by rwa [Table.get_insert_of_ne _ other] at entry)
  | forwarded top | responded top | respondFailed top | requested top | written top =>
      exact kept <| old (busy top nofun) entry
  | forwardFailed top => exact kept <| old (busy top nofun) (Table.get_ne_none_of_remove entry)
  | announced top =>
      have known := registered i entry
      simp only [announcing, top] at known
      exact known.elim kept fun announced => .inl (.inl (.inr announced))
  | @announceFailed stream top =>
      have known := registered i (Table.get_ne_none_of_remove entry)
      simp only [announcing, top] at known
      refine known.elim kept fun announced => ?_
      rw [List.mem_singleton.mp announced] at entry
      exact absurd (Table.get_remove_self _ _) entry

theorem accounted_step (h : Step a x a' es) (accounted : Accounted a inputs effects) :
    Accounted a' (inputs ++ [x]) (effects ++ es) :=
  ⟨asked_step h accounted.asked, registered_step h accounted.registered⟩

/-- An actor puts something on a channel only when a send that it waits for has ended. -/
theorem silent_step (h : Step a x a' es) (other : x ≠ .resume true) :
    accepted es = [] ∧ ∀ c, puts c es = [] := by
  cases h with
  | forwarded | announced | responded | requested | written => exact absurd rfl other
  | _ => exact ⟨rfl, fun _ => rfl⟩

end step
end SessionActor

namespace Peer

/-- What may come to a party: anything its reader yields, a write that fails, and all that the
party can do itself. -/
inductive Stimulus where
  | read (x : Input)
  | writeFails
  | act (act : Act)
  deriving DecidableEq, Repr

def respond (p : Peer) : Stimulus → Option Peer
  | .read x => if x.isRead then p.take x else none
  | .writeFails => if p.actor.phase.writes then p.take (.resume false) else none
  | .act act => p.step act

structure Bounded (p : Peer) : Prop where
  commands : p.commands.length ≤ controlCapacity
  events : p.events.length ≤ eventCapacity
  accepts : p.accepts.length ≤ acceptCapacity
  queues : ∀ c, (p.queue c).length ≤ streamCapacity
  taken : AcceptQueue p
  accounted : SessionActor.Accounted p.actor p.inputs p.effects

theorem bounded_spawn (side : SessionSide) (sessionId : SessionId) : Bounded (spawn side sessionId) where
  commands := Nat.zero_le _
  events := Nat.zero_le _
  accepts := Nat.zero_le _
  queues _ := Nat.zero_le _
  taken := rfl
  accounted := SessionActor.accounted_spawn side sessionId

variable {p p' : Peer}

/-- A send that ends well has found room. -/
theorem outcome_room (ends : p.outcome = some true) {a : SessionActor} {es : List Effect}
    (hs : SessionActor.Step p.actor (.resume true) a es) (within : Bounded p) :
    (p.accepts ++ SessionActor.accepted es).length ≤ acceptCapacity ∧
      ∀ c, (p.queue c ++ SessionActor.puts c es).length ≤ streamCapacity := by
  cases hs with
  | @forwarded i sender frame top =>
      refine ⟨by simpa [SessionActor.accepted] using within.accepts, fun c => ?_⟩
      simp only [outcome, top] at ends
      split at ends
      · split at ends
        · rename_i room
          by_cases own : sender = c
          · subst own
            simpa [SessionActor.puts] using Nat.succ_le_of_lt room
          · simpa [SessionActor.puts, own] using within.queues c
        · cases ends
      · cases ends
  | announced top =>
      refine ⟨?_, fun c => ?_⟩
      · simp only [outcome, top] at ends
        split at ends
        · rename_i room
          simpa [SessionActor.accepted] using Nat.succ_le_of_lt room
        · cases ends
      · simpa [SessionActor.puts] using within.queues c
  | responded | requested | written =>
      refine ⟨?_, fun c => ?_⟩
      · simpa [SessionActor.accepted] using within.accepts
      · simpa [SessionActor.puts] using within.queues c

theorem Bounded.advance (h : Bounded p) {x : Input} {a : SessionActor} {es : List Effect}
    (hs : SessionActor.Step p.actor x a es) (ends : x = .resume true → p.outcome = some true) :
    Bounded (p.advance x a es) := by
  have room : (p.accepts ++ SessionActor.accepted es).length ≤ acceptCapacity ∧
      ∀ c, (p.queue c ++ SessionActor.puts c es).length ≤ streamCapacity := by
    by_cases resumed : x = .resume true
    · subst resumed
      exact outcome_room (ends rfl) hs h
    · obtain ⟨none_accepted, none_put⟩ := SessionActor.silent_step hs resumed
      refine ⟨?_, fun c => ?_⟩
      · rw [none_accepted, List.append_nil]
        exact h.accepts
      · rw [none_put, List.append_nil]
        exact h.queues c
  refine ⟨?_, ?_, ?_, ?_, acceptQueue_advance h.taken _ _ _, SessionActor.accounted_step hs h.accounted⟩
  · rw [advance_commands]
    exact h.commands
  · rw [advance_events]
    exact h.events
  · change (es.foldl apply p).accepts.length ≤ _
    rw [foldl_apply_accepts]
    exact room.1
  · intro c
    rw [advance_queue]
    exact room.2 c

/-- A call that sends a command or an event found room for it. -/
theorem enqueue_bounded {i : StreamId} {e : StreamEvent} (h : Bounded p)
    (sent : p.enqueue i e = some p') : Bounded p' := by
  obtain ⟨-, room, rfl⟩ := enqueue_some sent
  refine ⟨h.commands, ?_, h.accepts, h.queues, h.taken, h.accounted⟩
  rw [queued, List.length_append]
  exact room

theorem callControl_bounded {command : ReplyId → Command} (h : Bounded p)
    (called : p.callControl command = some p') : Bounded p' := by
  unfold callControl at called
  split at called
  · rename_i room
    cases called
    refine ⟨?_, h.events, h.accepts, h.queues, h.taken, h.accounted⟩
    rw [List.length_append]
    exact room.2
  · cases called

theorem Bounded.step {act : Act} (h : Bounded p) (hstep : p.step act = some p') : Bounded p' := by
  have moved := step_moved hstep
  have taken := acceptQueue_moved moved h.taken
  cases act with
  | openStream | shutdown => exact callControl_bounded h hstep
  | submit c what =>
      obtain ⟨handle, -, sent⟩ := Option.bind_eq_some_iff.mp hstep
      unfold submit at sent
      split at sent
      · exact enqueue_bounded h sent
      · cases sent
  | push c =>
      obtain ⟨handle, -, sent⟩ := Option.bind_eq_some_iff.mp hstep
      unfold push at sent
      split at sent
      · cases sent
      · split at sent
        · cases sent
          exact ⟨h.commands, h.events, h.accepts, h.queues, h.taken, h.accounted⟩
        · obtain ⟨q, queued, rfl⟩ := Option.map_eq_some_iff.mp sent
          have room := enqueue_bounded h queued
          exact ⟨room.commands, room.events, room.accepts, room.queues, room.taken, room.accounted⟩
  | command =>
      cases moved with
      | @command cmd rest a es waiting hs =>
          have popped : Bounded { p with commands := rest, allocated := p.noteAllocated cmd } := by
            refine ⟨?_, h.events, h.accepts, h.queues, h.taken, h.accounted⟩
            have whole := h.commands
            rw [waiting, List.length_cons] at whole
            exact Nat.le_of_succ_le whole
          exact popped.advance hs fun resumed => by cases resumed
  | event =>
      cases moved with
      | @event i e rest a es waiting hs =>
          have popped : Bounded { p with events := rest, sent := p.noteSent i e } := by
            refine ⟨h.commands, ?_, h.accepts, h.queues, h.taken, h.accounted⟩
            have whole := h.events
            rw [waiting, List.length_cons] at whole
            exact Nat.le_of_succ_le whole
          exact popped.advance hs fun resumed => by cases resumed
  | resume =>
      cases moved with
      | resume ends hs =>
          refine h.advance hs fun resumed => ?_
          cases resumed
          exact ends
  | cancel =>
      cases moved with
      | cancel hs => exact h.advance hs fun resumed => by cases resumed
  | acceptStream =>
      cases moved with
      | acceptStream waiting =>
          refine ⟨h.commands, h.events, ?_, h.queues, taken, h.accounted⟩
          have whole := h.accepts
          rw [waiting, List.length_cons] at whole
          exact Nat.le_of_succ_le whole
  | recv c =>
      cases moved with
      | @recv _ handle f rest found waiting =>
          refine ⟨h.commands, h.events, h.accepts, fun d => ?_, h.taken, h.accounted⟩
          have whole := h.queues d
          by_cases own : d = c
          · subst own
            rw [waiting, List.length_cons] at whole
            simpa using Nat.le_of_succ_le whole
          · simpa [own] using whole
  | openReturns reply =>
      cases moved <;> exact ⟨h.commands, h.events, h.accepts, h.queues, h.taken, h.accounted⟩
  | split c | offer c what | close c | drop c | dropReader c =>
      cases moved
      exact ⟨h.commands, h.events, h.accepts, h.queues, h.taken, h.accounted⟩

theorem Bounded.respond {x : Stimulus} (h : Bounded p) (hstep : p.respond x = some p') :
    Bounded p' := by
  cases x with
  | read x =>
      simp only [Peer.respond] at hstep
      split at hstep
      · rename_i read
        obtain ⟨a, es, hs, rfl⟩ := take_some hstep
        refine h.advance hs fun resumed => ?_
        rw [resumed] at read
        cases read
      · cases hstep
  | writeFails =>
      simp only [Peer.respond] at hstep
      split at hstep
      · obtain ⟨a, es, hs, rfl⟩ := take_some hstep
        exact h.advance hs nofun
      · cases hstep
  | act act => exact h.step hstep

/-- No frame makes the actor handle a command to open. -/
theorem opens_respond {x : Stimulus} (hstep : p.respond x = some p') :
    handledOpens p'.inputs + queuedOpens p'.commands ≤
      handledOpens p.inputs + queuedOpens p.commands + if x = .act .openStream then 1 else 0 := by
  have fed {y : Input} (taken : p.take y = some p') (other : handledOpens [y] = 0) :
      handledOpens p'.inputs + queuedOpens p'.commands =
        handledOpens p.inputs + queuedOpens p.commands := by
    obtain ⟨a, es, -, rfl⟩ := take_some taken
    rw [advance_inputs, advance_commands, handledOpens_append, other, Nat.add_zero]
  cases x with
  | read y =>
      simp only [Peer.respond] at hstep
      split at hstep
      · rename_i read
        rw [fed hstep (by cases y <;> first | rfl | cases read)]
        exact Nat.le_add_right _ _
      · cases hstep
  | writeFails =>
      simp only [Peer.respond] at hstep
      split at hstep
      · rw [fed hstep rfl]
        exact Nat.le_add_right _ _
      · cases hstep
  | act act =>
      rw [opens_moved (step_moved hstep)]
      simp

end Peer

/-- Whatever comes in, each channel of a session stays within its capacity, and its map holds
no more than 33 streams besides those its application has accepted or asked for. -/
theorem session_bounded (side : SessionSide) (sessionId : SessionId) (stimuli : List Peer.Stimulus)
    (p : Peer) (reached : run Peer.respond (.spawn side sessionId) stimuli = some p) :
    p.commands.length ≤ controlCapacity ∧ p.events.length ≤ eventCapacity ∧
      p.accepts.length ≤ acceptCapacity ∧ (∀ c, (p.queue c).length ≤ streamCapacity) ∧
      p.actor.pendingStreams.AtMost (stimuli.count (.act .openStream)) ∧
      p.actor.streams.AtMost
        (p.taken.length + stimuli.count (.act .openStream) + acceptCapacity + 1) := by
  have bounded : p.Bounded := run_invariant (fun _ => True) Peer.Bounded
    (fun _ _ _ _ hstep within => within.respond hstep) (fun _ _ => trivial) reached
    (Peer.bounded_spawn side sessionId)
  have calls := run_countP (fun q : Peer => handledOpens q.inputs + queuedOpens q.commands)
    (· == .act .openStream) (fun _ _ _ hstep => by simpa using Peer.opens_respond hstep) reached
  have start : handledOpens (Peer.spawn side sessionId).inputs +
      queuedOpens (Peer.spawn side sessionId).commands = 0 := rfl
  rw [start, Nat.zero_add, ← List.count] at calls
  obtain ⟨m, pending, asked⟩ := bounded.accounted.asked
  refine ⟨bounded.commands, bounded.events, bounded.accepts, bounded.queues,
    pending.mono (by omega), (Table.atMost_of_covered bounded.accounted.registered).mono ?_⟩
  have accepted : (acceptedIds p.effects).length = p.taken.length + p.accepts.length := by
    rw [acceptedIds, List.length_map, ← bounded.taken, List.length_append]
  have resolved : (resolvedIds p.effects).length = (SessionActor.resolved p.effects).length :=
    List.length_map _
  have announced : (announcing p.actor).length ≤ 1 := by
    unfold announcing
    split <;> simp
  have room := bounded.accepts
  simp only [List.length_append, accepted, resolved]
  omega

/-- Requests to open, one after another, to a session whose application accepts none. -/
def flood (n : Nat) : List Peer.Stimulus :=
  (List.range n).flatMap fun k =>
    [.read (.frame (openRequestFrame ⟨.ofNat (k + 1)⟩)), .act .resume, .act .resume]

/-- The bound is met: the last of 33 requests is registered and waits to be announced. -/
theorem session_bounded_flood :
    ∃ p, run Peer.respond (.spawn .server ⟨1⟩)
        (flood 32 ++ [.read (.frame (openRequestFrame ⟨33⟩))]) = some p ∧
      (∀ k < 33, p.actor.streams.get ⟨.ofNat (k + 1)⟩ ≠ none) ∧ p.actor.streams.AtMost 33 := by
  have runs : ((run Peer.respond (.spawn .server ⟨1⟩)
      (flood 32 ++ [.read (.frame (openRequestFrame ⟨33⟩))])).map fun p =>
        (decide (∀ k < 33, p.actor.streams.get ⟨.ofNat (k + 1)⟩ ≠ none), p.taken.length)) =
      some (true, 0) := by
    decide +kernel
  obtain ⟨p, reached, values⟩ := Option.map_eq_some_iff.mp runs
  obtain ⟨full, idle⟩ := Prod.mk.inj values
  refine ⟨p, reached, of_decide_eq_true full, ?_⟩
  have bounded := (session_bounded .server ⟨1⟩ _ p reached).2.2.2.2.2
  rw [idle] at bounded
  exact bounded

end Foctet.Mux
