import Foctet.Mux.Ledger
import Foctet.Mux.Link
import Mathlib.Logic.Function.Basic

/-! Two sessions joined by one link each way. A run is any interleaving of bytes
moving, actors waking and applications calling. -/
namespace Foctet.Mux
open Foctet.Core Foctet.Lib
open SessionActor (Input Ledger Orderly arrived acceptedIds resolvedIds nextAllocated)

def SessionSide.other : SessionSide → SessionSide
  | .client => .server
  | .server => .client

@[simp] theorem SessionSide.other_other (s : SessionSide) : s.other.other = s := by
  cases s <;> rfl

theorem SessionSide.other_ne (s : SessionSide) : s.other ≠ s := by
  cases s <;> decide

theorem SessionSide.eq_or_other (s t : SessionSide) : t = s ∨ t = s.other := by
  cases s <;> cases t <;> decide

/-- `link s` is written by side `s` and read by the other. -/
structure Net (L : Type) where
  peer : SessionSide → Peer
  link : SessionSide → L

namespace Net
variable {L : Type}

inductive Label where
  | deliver (side : SessionSide) (amount : Nat)
  | poll (side : SessionSide)
  | act (side : SessionSide) (act : Peer.Act)
  deriving DecidableEq, Repr

def spawn (K : Link L) (sessionId : SessionSide → SessionId) : Net L where
  peer s := .spawn s (sessionId s)
  link _ := K.empty

/-- A party has moved on; what it has newly written goes on its link. -/
def replace (K : Link L) (n : Net L) (s : SessionSide) (p : Peer) : Net L where
  peer := Function.update n.peer s p
  link := Function.update n.link s
    (((writes p.effects).drop (writes (n.peer s).effects).length).foldl K.write (n.link s))

theorem replace_peer_self (K : Link L) (n : Net L) (s : SessionSide) (p : Peer) :
    (n.replace K s p).peer s = p := by
  simp only [replace, Function.update_self]

theorem replace_peer_other (K : Link L) (n : Net L) (s : SessionSide) (p : Peer) :
    (n.replace K s p).peer s.other = n.peer s.other := by
  simp only [replace, Function.update_of_ne s.other_ne]

theorem replace_link_other (K : Link L) (n : Net L) (s : SessionSide) (p : Peer) :
    (n.replace K s p).link s.other = n.link s.other := by
  simp only [replace, Function.update_of_ne s.other_ne]

def poll (K : Link L) (n : Net L) (s : SessionSide) : Option (Net L) :=
  if (n.peer s).actor.phase = .select then
    match K.next (n.link s.other) with
    | (none, l) => some { n with link := Function.update n.link s.other l }
    | (some f, l) =>
        ((n.peer s).take (.frame f)).map fun p =>
          { n with link := Function.update n.link s.other l }.replace K s p
  else none

def step (K : Link L) (n : Net L) : Label → Option (Net L)
  | .deliver s amount =>
      some { n with link := Function.update n.link s (K.deliver (n.link s) amount) }
  | .poll s => n.poll K s
  | .act s act => ((n.peer s).step act).map fun p => n.replace K s p

/-- What an application may submit: nothing with the OPEN bit, nothing too long. -/
def Fair (fits : Frame → Prop) : StreamEvent → Prop
  | .frame f => f.header.flags.isOpen = false ∧ fits f
  | .closed _ | .error => True

def Label.Fair (fits : Frame → Prop) : Label → Prop
  | .act _ (.submit _ what) | .act _ (.offer _ what) =>
      ∀ streamId, Net.Fair fits (what.toEvent streamId)
  | _ => True

/-- No identifier has been handed out twice, by one side or by both. -/
structure Apart (n : Net L) : Prop where
  nodup : ∀ s, (n.peer s).allocated.Nodup
  disjoint : ∀ s i, i ∈ (n.peer s).allocated → i ∉ (n.peer s.other).allocated

/-- What holds between the two parties, their links and what they still have to send. -/
structure Agree (K : Link L) (fits : Frame → Prop) (sound : L → Prop) (n : Net L) : Prop where
  ledger : ∀ s, Ledger s (n.peer s).actor (n.peer s).inputs (n.peer s).effects (n.peer s).allocated
  sound : ∀ s, sound (n.link s)
  fifo : ∀ s, (writes (n.peer s).effects).map Frame.wire =
    arrived (n.peer s.other).inputs ++ K.inFlight (n.link s)
  sends : ∀ s, (n.peer s).Sends fun _ => Fair fits
  writing : ∀ s f, (n.peer s).actor.phase = .awaiting (.write f) → fits f

theorem agree_spawn {K : Link L} {fits : Frame → Prop} {sound : L → Prop}
    (fifo : K.Fifo fits sound) (sessionId : SessionSide → SessionId) :
    Agree K fits sound (spawn K sessionId) where
  ledger s := SessionActor.ledger_spawn s (sessionId s)
  sound _ := fifo.empty.1
  fifo _ := by
    rw [spawn, fifo.empty.2]
    rfl
  sends s := Peer.sends_spawn _ s (sessionId s)
  writing s f h := by cases h

section chain
variable {K : Link L} {fits : Frame → Prop} {sound : L → Prop} {n : Net L}

/-- Whatever part of a side's writing has been read, it asks for identifiers in the
order that side handed them out. -/
theorem Agree.asked (h : Agree K fits sound n) (s : SessionSide) {fs : List Frame}
    (read : fs <+: (writes (n.peer s).effects).map Frame.wire) :
    requestIds fs <+: (n.peer s).allocated := by
  have whole := (h.ledger s).requests
  exact (read.filterMap _).trans ⟨_, whole⟩

theorem Agree.arrived_read (h : Agree K fits sound n) (s : SessionSide) :
    arrived (n.peer s).inputs <+: (writes (n.peer s.other).effects).map Frame.wire := by
  have whole := h.fifo s.other
  rw [SessionSide.other_other] at whole
  exact ⟨_, whole.symm⟩

/-- The answers a side reads come in the order it handed the identifiers out: the
other side announces what it was asked for and answers what it announced. -/
theorem Agree.answered (h : Agree K fits sound n) (s : SessionSide) {fs : List Frame}
    (read : fs <+: (writes (n.peer s.other).effects).map Frame.wire) :
    responseIds fs <+: (n.peer s).allocated := by
  have written : responseIds fs <+: acceptedIds (n.peer s.other).effects :=
    (read.filterMap _).trans ⟨_, (h.ledger s.other).responses⟩
  have announced : acceptedIds (n.peer s.other).effects <+:
      requestIds (arrived (n.peer s.other).inputs) := ⟨_, (h.ledger s.other).announces⟩
  have reached := h.arrived_read s.other
  rw [SessionSide.other_other] at reached
  exact written.trans (announced.trans (h.asked s reached))

theorem Agree.resolved_allocated (h : Agree K fits sound n) (s : SessionSide) :
    resolvedIds (n.peer s).effects <+: (n.peer s).allocated := by
  rw [(h.ledger s).resolves]
  exact h.answered s (h.arrived_read s)

theorem Agree.accepted_allocated (h : Agree K fits sound n) (s : SessionSide) :
    acceptedIds (n.peer s.other).effects <+: (n.peer s).allocated := by
  have announced : acceptedIds (n.peer s.other).effects <+:
      requestIds (arrived (n.peer s.other).inputs) := ⟨_, (h.ledger s.other).announces⟩
  have reached := h.arrived_read s.other
  rw [SessionSide.other_other] at reached
  exact announced.trans (h.asked s reached)

/-- An identifier is registered only at the side that asked for it and got an
answer, or at the side that was asked. -/
theorem Agree.registered (h : Agree K fits sound n) (s : SessionSide) {i : StreamId}
    (live : (n.peer s).actor.streams.get i ≠ none) :
    i ∈ (n.peer s.other).allocated ∧ i ∈ requestIds (arrived (n.peer s).inputs) ∨
      i ∈ (n.peer s).allocated ∧ i ∈ resolvedIds (n.peer s).effects := by
  rcases (h.ledger s).streams i live with asked | resolved
  · have reached := h.asked s.other (h.arrived_read s)
    exact .inl ⟨reached.subset asked, asked⟩
  · exact .inr ⟨(h.resolved_allocated s).subset resolved, resolved⟩

theorem mem_requestIds_single {f : Frame} (h : f.header.flags.isOpenRequest = true) :
    requestIds [f] = [f.header.streamId] := by
  simp only [requestIds, List.filterMap_cons, List.filterMap_nil, h, if_true]

theorem mem_responseIds_single {f : Frame} (h : f.header.flags.isOpenResponse = true) :
    responseIds [f] = [f.header.streamId] := by
  simp only [responseIds, List.filterMap_cons, List.filterMap_nil, h, if_true]

/-- The last of a list without repetitions is not among the others. -/
theorem fresh_last {ids all : List StreamId} {i : StreamId} (nodup : all.Nodup)
    (h : ids ++ [i] <+: all) : i ∈ all ∧ i ∉ ids := by
  have own : (ids ++ [i]).Nodup := nodup.sublist h.sublist
  refine ⟨h.subset (List.mem_append_right _ List.mem_cons_self), ?_⟩
  intro old
  exact (List.nodup_append.mp own).2.2 i old i List.mem_cons_self rfl

/-- The next frame a side reads never surprises it. -/
theorem Agree.next_orderly (h : Agree K fits sound n) (apart : Apart n) (s : SessionSide)
    {f : Frame} {rest : List Frame} (head : K.inFlight (n.link s.other) = f :: rest) :
    Orderly (n.peer s).actor (.frame f) := by
  have whole := h.fifo s.other
  rw [SessionSide.other_other, head] at whole
  have read : arrived (n.peer s).inputs ++ [f] <+:
      (writes (n.peer s.other).effects).map Frame.wire :=
    ⟨rest, by rw [whole, List.append_assoc]; rfl⟩
  refine ⟨fun g hg => (by cases hg), ?_, ?_, ?_, fun hg => (by cases hg)⟩
  · intro g hg hreq
    cases hg
    have ids := h.asked s.other read
    rw [requestIds_append, mem_requestIds_single hreq] at ids
    obtain ⟨theirs, new⟩ := fresh_last (apart.nodup s.other) ids
    by_contra live
    rcases h.registered s live with ⟨-, old⟩ | ⟨mine, -⟩
    · exact new old
    · exact apart.disjoint s _ mine theirs
  · intro g hg hresp
    cases hg
    have ids := h.answered s read
    rw [responseIds_append, mem_responseIds_single hresp] at ids
    obtain ⟨mine, new⟩ := fresh_last (apart.nodup s) ids
    rw [← (h.ledger s).resolves] at new
    refine ⟨?_, ((h.ledger s).pending _).mpr ⟨mine, new⟩⟩
    by_contra live
    rcases h.registered s live with ⟨theirs, -⟩ | ⟨-, old⟩
    · exact apart.disjoint s _ mine theirs
    · exact new old
  · intro g hg
    cases hg
    exact (h.ledger s.other).resets f (read.subset (List.mem_append_right _ List.mem_cons_self))

end chain

/-- A party either leaves its actor alone or lets it take one input, which is never
a frame, is an event only if one was queued, and fails only on a stream's channel. -/
theorem moved_account {p p' : Peer} {act : Peer.Act} (h : Peer.Moved p act p') :
    (p'.actor = p.actor ∧ p'.inputs = p.inputs ∧ p'.effects = p.effects ∧
      p'.allocated = p.allocated) ∨
    ∃ x es, SessionActor.Step p.actor x p'.actor es ∧ p'.inputs = p.inputs ++ [x] ∧
      p'.effects = p.effects ++ es ∧ p'.allocated = nextAllocated p.actor p.allocated x ∧
      (∀ f, x ≠ .frame f) ∧ (∀ e, x = .event e → ∃ i, (i, e) ∈ p.events) ∧
      (x = .resume false → ∃ i c f, p.actor.phase = .awaiting (.forward i c f)) := by
  cases h with
  | @command cmd rest a es hc hs =>
      refine .inr ⟨.command cmd, es, hs, rfl, rfl, ?_, fun f hf => (by cases hf),
        fun e he => (by cases he), fun hr => (by cases hr)⟩
      rw [Peer.advance_allocated]
      cases cmd <;> rfl
  | @event i e rest a es he hs =>
      refine .inr ⟨.event e, es, hs, rfl, rfl, Peer.advance_allocated _ _ _ _,
        fun f hf => (by cases hf), ?_, fun hr => (by cases hr)⟩
      intro e' same
      cases same
      exact ⟨i, he ▸ List.mem_cons_self⟩
  | @resume ok a es hok hs =>
      refine .inr ⟨.resume ok, es, hs, rfl, rfl, Peer.advance_allocated _ _ _ _,
        fun f hf => (by cases hf), fun e he => (by cases he), ?_⟩
      intro failed
      cases failed
      unfold Peer.outcome at hok
      split at hok
      · rename_i i c f hphase
        exact ⟨i, c, f, hphase⟩
      · split at hok <;> cases hok
      all_goals cases hok
  | @cancel a es hs =>
      exact .inr ⟨.cancelled, es, hs, rfl, rfl, Peer.advance_allocated _ _ _ _,
        fun f hf => (by cases hf), fun e he => (by cases he), fun hr => (by cases hr)⟩
  | _ => exact .inl ⟨rfl, rfl, rfl, rfl⟩

/-- What a stream's `close` sends is fair. -/
theorem closeFrom_fair {fits : Frame → Prop} (small : ∀ f : Frame, f.payload = [] → fits f)
    (streamId : StreamId) (state : StreamState) : ∀ e ∈ (closeFrom streamId state).2, Fair fits e := by
  intro e he
  rcases mem_closeFrom he with rfl | rfl
  · exact ⟨(by decide : FrameFlags.closeRequest.isOpen = false), small _ rfl⟩
  · trivial

/-- What a step writes fits: handshake frames are empty, event frames were fair. -/
theorem written_fits {fits : Frame → Prop} (small : ∀ f : Frame, f.payload = [] → fits f)
    {a a' : SessionActor} {x : Input} {es : List Effect} (h : SessionActor.Step a x a' es)
    (composed : SessionActor.Composed a.phase)
    (writing : ∀ f, a.phase = .awaiting (.write f) → fits f) : ∀ f ∈ writes es, fits f := by
  intro g hg
  cases h with
  | @responded f hphase | @requested f hphase =>
      rw [hphase] at composed
      obtain ⟨i, rfl⟩ := composed
      rw [List.mem_singleton.mp hg]
      exact small _ rfl
  | @written f hphase =>
      rw [List.mem_singleton.mp hg]
      exact writing f hphase
  | _ => cases hg

/-- The actor sets out to write an event frame only when it takes that event. -/
theorem writing_event {a a' : SessionActor} {x : Input} {es : List Effect}
    (h : SessionActor.Step a x a' es) {f : Frame} (hphase : a'.phase = .awaiting (.write f)) :
    x = .event (.frame f) := by
  cases h with
  | eventFrame top =>
      cases hphase
      rfl
  | eof top | openResponse top | openReset top | unknown top | shutdownCommand top
    | eventClosed top | eventError top =>
      rw [show _ = Phase.select from top] at hphase
      cases hphase
  | _ => cases hphase

theorem foldl_write {K : Link L} {fits : Frame → Prop} {sound : L → Prop} (fifo : K.Fifo fits sound)
    {ws : List Frame} (fit : ∀ f ∈ ws, fits f) {l : L} (ok : sound l) :
    sound (ws.foldl K.write l) ∧
      K.inFlight (ws.foldl K.write l) = K.inFlight l ++ ws.map Frame.wire := by
  induction ws generalizing l with
  | nil => exact ⟨ok, (List.append_nil _).symm⟩
  | cons w ws ih =>
      obtain ⟨ok', now⟩ := fifo.write l w ok (fit w List.mem_cons_self)
      obtain ⟨ok'', later⟩ := ih (fun f hf => fit f (List.mem_cons_of_mem w hf)) ok'
      refine ⟨ok'', ?_⟩
      rw [List.foldl_cons, later, now, List.append_assoc]
      rfl

/-- One side moves, perhaps with a frame it has just read: its own books, what it has
written and what it has read are in order again. -/
theorem Agree.replace {K : Link L} {fits : Frame → Prop} {sound : L → Prop} {n m : Net L}
    (fifo : K.Fifo fits sound) (h : Agree K fits sound n) (s : SessionSide) {p : Peer}
    (es : List Effect) (peers : m.peer = n.peer) (mine : m.link s = n.link s)
    (incoming : sound (m.link s.other))
    (ledger : Ledger s p.actor p.inputs p.effects p.allocated)
    (effects : p.effects = (n.peer s).effects ++ es) (fit : ∀ f ∈ writes es, fits f)
    (read : (writes (n.peer s.other).effects).map Frame.wire =
      arrived p.inputs ++ K.inFlight (m.link s.other))
    (sends : p.Sends fun _ => Fair fits)
    (writing : ∀ f, p.actor.phase = .awaiting (.write f) → fits f) :
    Agree K fits sound (m.replace K s p) := by
  have fresh : (writes p.effects).drop (writes (n.peer s).effects).length = writes es := by
    rw [effects, writes_append, List.drop_left]
  obtain ⟨ok, carried⟩ := foldl_write fifo fit (h.sound s)
  have own := m.replace_peer_self K s p
  have others : (m.replace K s p).peer s.other = n.peer s.other := by
    rw [replace_peer_other, peers]
  have link : (m.replace K s p).link s = (writes es).foldl K.write (n.link s) := by
    simp only [Net.replace, Function.update_self, peers, mine, fresh]
  have back := m.replace_link_other K s p
  refine ⟨?_, ?_, ?_, ?_, ?_⟩
  · intro t
    rcases s.eq_or_other t with rfl | rfl
    · rw [own]
      exact ledger
    · rw [others]
      exact h.ledger _
  · intro t
    rcases s.eq_or_other t with rfl | rfl
    · rw [link]
      exact ok
    · rw [back]
      exact incoming
  · intro t
    rcases s.eq_or_other t with rfl | rfl
    · rw [own, others, link, carried, effects, writes_append, List.map_append, h.fifo,
        List.append_assoc]
    · rw [SessionSide.other_other, own, others, back]
      exact read
  · intro t
    rcases s.eq_or_other t with rfl | rfl
    · rw [own]
      exact sends
    · rw [others]
      exact h.sends _
  · intro t
    rcases s.eq_or_other t with rfl | rfl
    · rw [own]
      exact writing
    · rw [others]
      exact h.writing _

/-- The reader has moved on along its link. -/
def consumed (K : Link L) (n : Net L) (s : SessionSide) : Net L :=
  { n with link := Function.update n.link s.other (K.next (n.link s.other)).2 }

theorem poll_some {K : Link L} {n n' : Net L} {s : SessionSide} (h : n.poll K s = some n') :
    (K.next (n.link s.other)).1 = none ∧ n' = n.consumed K s ∨
    ∃ f a es, (K.next (n.link s.other)).1 = some f ∧
      SessionActor.Step (n.peer s).actor (.frame f) a es ∧
      n' = (n.consumed K s).replace K s ((n.peer s).advance (.frame f) a es) := by
  unfold poll at h
  split at h
  · split at h
    · rename_i l hnext
      cases h
      refine .inl ⟨by rw [hnext], ?_⟩
      simp only [consumed, hnext]
    · rename_i f l hnext
      obtain ⟨p, htake, rfl⟩ := Option.map_eq_some_iff.mp h
      obtain ⟨a, es, hs, rfl⟩ := Peer.take_some htake
      refine .inr ⟨f, a, es, by rw [hnext], hs, ?_⟩
      simp only [consumed, hnext]
  · cases h

/-- What one step of the net is to one party: nothing, a frame read, or an act of its own. -/
theorem peer_step {K : Link L} {n n' : Net L} {l : Label} (h : n.step K l = some n')
    (t : SessionSide) :
    n'.peer t = n.peer t ∨
    (∃ f a es, (K.next (n.link t.other)).1 = some f ∧
      SessionActor.Step (n.peer t).actor (.frame f) a es ∧
      n'.peer t = (n.peer t).advance (.frame f) a es) ∨
    ∃ act, l = .act t act ∧ Peer.Moved (n.peer t) act (n'.peer t) := by
  cases l with
  | deliver s amount =>
      cases h
      exact .inl rfl
  | poll s =>
      rcases poll_some h with ⟨-, rfl⟩ | ⟨f, a, es, head, hs, rfl⟩
      · exact .inl rfl
      · rcases s.eq_or_other t with rfl | rfl
        · exact .inr (.inl ⟨f, a, es, head, hs, replace_peer_self _ _ _ _⟩)
        · exact .inl (replace_peer_other _ _ _ _)
  | act s act =>
      obtain ⟨p, hp, rfl⟩ := Option.map_eq_some_iff.mp h
      rcases s.eq_or_other t with rfl | rfl
      · refine .inr (.inr ⟨act, rfl, ?_⟩)
        rw [replace_peer_self]
        exact Peer.step_moved hp
      · exact .inl (replace_peer_other _ _ _ _)

/-- What a party keeps whatever it reads and does holds in every run of the net. -/
theorem peer_run {K : Link L} {sessionId : SessionSide → SessionId} {labels : List Label}
    {n : Net L} (t : SessionSide) (inv : Peer → Prop)
    (reads : ∀ p f a es, SessionActor.Step p.actor (.frame f) a es → inv p →
      inv (p.advance (.frame f) a es))
    (acts : ∀ p act p', Peer.Moved p act p' → inv p → inv p')
    (reached : run (step K) (spawn K sessionId) labels = some n)
    (start : inv (.spawn t (sessionId t))) : inv (n.peer t) := by
  refine run_invariant (fun _ => True) (fun n : Net L => inv (n.peer t)) ?_ (fun _ _ => trivial)
    reached start
  intro m l m' _ h holds
  rcases peer_step h t with same | ⟨f, a, es, -, hs, moved⟩ | ⟨act, -, moved⟩
  · rw [same]
    exact holds
  · rw [moved]
    exact reads _ f a es hs holds
  · exact acts _ act _ moved holds

/-- Identifiers are only ever added to those handed out. -/
theorem step_allocated {K : Link L} {n n' : Net L} {l : Label} (h : n.step K l = some n')
    (t : SessionSide) : (n.peer t).allocated <+: (n'.peer t).allocated := by
  rcases peer_step h t with same | ⟨f, a, es, -, -, moved⟩ | ⟨act, -, moved⟩
  · exact ⟨[], by rw [same, List.append_nil]⟩
  · exact ⟨[], by rw [moved, Peer.advance_allocated, List.append_nil]⟩
  · rcases moved_account moved with ⟨-, -, -, same⟩ | ⟨x, es, -, -, -, grown, -⟩
    · exact ⟨[], by rw [same, List.append_nil]⟩
    · rw [grown]
      unfold nextAllocated
      split
      · exact List.prefix_append _ _
      · exact List.prefix_rfl

theorem apart_back {K : Link L} {n n' : Net L} {l : Label} (h : n.step K l = some n')
    (apart : Apart n') : Apart n where
  nodup t := (apart.nodup t).sublist (step_allocated h t).sublist
  disjoint t i mine theirs :=
    apart.disjoint t i ((step_allocated h t).subset mine) ((step_allocated h t.other).subset theirs)

section steps
variable {K : Link L} {fits : Frame → Prop} {sound : L → Prop} {n n' : Net L}

theorem Agree.deliver (fifo : K.Fifo fits sound) (h : Agree K fits sound n) (s : SessionSide)
    (amount : Nat) :
    Agree K fits sound
      { n with link := Function.update n.link s (K.deliver (n.link s) amount) } := by
  obtain ⟨ok, same⟩ := fifo.deliver (n.link s) amount (h.sound s)
  refine ⟨h.ledger, ?_, ?_, h.sends, h.writing⟩
  · intro t
    rcases s.eq_or_other t with rfl | rfl
    · simp only [Function.update_self]
      exact ok
    · simp only [Function.update_of_ne s.other_ne]
      exact h.sound _
  · intro t
    rcases s.eq_or_other t with rfl | rfl
    · simp only [Function.update_self]
      rw [same]
      exact h.fifo _
    · simp only [Function.update_of_ne s.other_ne]
      exact h.fifo _

/-- The reader finds no whole frame. -/
theorem Agree.blocked (fifo : K.Fifo fits sound) (h : Agree K fits sound n) (s : SessionSide)
    (nothing : (K.next (n.link s.other)).1 = none) : Agree K fits sound (n.consumed K s) := by
  obtain ⟨ok, same⟩ := fifo.next (n.link s.other) (h.sound s.other)
  rw [nothing, Option.toList_none, List.nil_append] at same
  refine ⟨h.ledger, ?_, ?_, h.sends, h.writing⟩
  · intro t
    rcases s.other.eq_or_other t with rfl | rfl
    · simp only [consumed, Function.update_self]
      exact ok
    · simp only [consumed, Function.update_of_ne s.other.other_ne]
      exact h.sound _
  · intro t
    rcases s.other.eq_or_other t with rfl | rfl
    · simp only [consumed, Function.update_self]
      rw [← same]
      exact h.fifo _
    · simp only [consumed, Function.update_of_ne s.other.other_ne]
      exact h.fifo _

/-- The reader takes a frame and the actor handles it. -/
theorem Agree.reads (fifo : K.Fifo fits sound) (small : ∀ f : Frame, f.payload = [] → fits f)
    (h : Agree K fits sound n) (apart : Apart n) (s : SessionSide) {f : Frame} {a : SessionActor}
    {es : List Effect} (head : (K.next (n.link s.other)).1 = some f)
    (hs : SessionActor.Step (n.peer s).actor (.frame f) a es) :
    Agree K fits sound
      ((n.consumed K s).replace K s ((n.peer s).advance (.frame f) a es)) := by
  obtain ⟨ok, split⟩ := fifo.next (n.link s.other) (h.sound s.other)
  rw [head, Option.toList_some, List.singleton_append] at split
  have orderly := h.next_orderly apart s split
  have ledger := SessionActor.ledger_step hs orderly (apart.nodup s) (h.ledger s)
  have back : (n.consumed K s).link s.other = (K.next (n.link s.other)).2 := by
    simp only [consumed, Function.update_self]
  have mine : (n.consumed K s).link s = n.link s := by
    simp only [consumed, Function.update_of_ne s.other_ne.symm]
  refine h.replace fifo s es rfl mine ?_ ?_ rfl ?_ ?_ ?_ ?_
  · rw [back]
    exact ok
  · rw [Peer.advance_allocated]
    exact ledger
  · exact written_fits small hs (h.ledger s).composed (h.writing s)
  · have whole := h.fifo s.other
    rw [SessionSide.other_other, split] at whole
    rw [back, whole, Peer.advance_inputs, SessionActor.arrived_append, List.append_assoc]
    rfl
  · exact (h.sends s).advance _ _ _
  · intro g hphase
    cases writing_event hs hphase

/-- A party acts on its own. -/
theorem Agree.acts (fifo : K.Fifo fits sound) (small : ∀ f : Frame, f.payload = [] → fits f)
    (h : Agree K fits sound n) (s : SessionSide) {act : Peer.Act} {p : Peer}
    (fair : Label.Fair fits (.act s act)) (moved : Peer.Moved (n.peer s) act p)
    (apart : p.allocated.Nodup) : Agree K fits sound (n.replace K s p) := by
  have submits : ∀ what, act.Submits what → ∀ i, Fair fits (what.toEvent i) := by
    rintro what (⟨c, rfl⟩ | ⟨c, rfl⟩)
    · exact fair
    · exact fair
  have sends := (h.sends s).moved moved (closeFrom_fair small) submits
  have read := h.fifo s.other
  rw [SessionSide.other_other] at read
  rcases moved_account moved with ⟨hactor, hinputs, heffects, hallocated⟩ |
    ⟨x, es, hs, hinputs, heffects, hallocated, noFrame, queued, failed⟩
  · refine h.replace fifo s [] rfl rfl (h.sound _) ?_ ?_ ?_ ?_ sends ?_
    · rw [hactor, hinputs, heffects, hallocated]
      exact h.ledger s
    · rw [heffects, List.append_nil]
    · exact fun f hf => (by cases hf)
    · rw [hinputs]
      exact read
    · rw [hactor]
      exact h.writing s
  · have orderly : Orderly (n.peer s).actor x := by
      refine ⟨?_, ?_, ?_, ?_, failed⟩
      · rintro f rfl
        obtain ⟨i, member⟩ := queued _ rfl
        exact ((h.sends s).events _ member).1
      · exact fun f hf => absurd hf (noFrame f)
      · exact fun f hf => absurd hf (noFrame f)
      · exact fun f hf => absurd hf (noFrame f)
    rw [hallocated] at apart
    refine h.replace fifo s es rfl rfl (h.sound _) ?_ heffects ?_ ?_ sends ?_
    · rw [hinputs, heffects, hallocated]
      exact SessionActor.ledger_step hs orderly apart (h.ledger s)
    · exact written_fits small hs (h.ledger s).composed (h.writing s)
    · have nothing : arrived [x] = [] := by
        cases x with
        | frame f => exact absurd rfl (noFrame f)
        | _ => rfl
      rw [hinputs, SessionActor.arrived_append, nothing, List.append_nil]
      exact read
    · intro f hphase
      obtain ⟨i, member⟩ := queued _ (writing_event hs hphase)
      exact ((h.sends s).events _ member).2

theorem agree_step (fifo : K.Fifo fits sound) (small : ∀ f : Frame, f.payload = [] → fits f)
    {l : Label} (fair : l.Fair fits) (h : n.step K l = some n') (apart : Apart n')
    (agree : Agree K fits sound n) : Agree K fits sound n' := by
  cases l with
  | deliver s amount =>
      cases h
      exact agree.deliver fifo s amount
  | poll s =>
      have before := apart_back h apart
      rcases poll_some h with ⟨nothing, rfl⟩ | ⟨f, a, es, head, hs, rfl⟩
      · exact agree.blocked fifo s nothing
      · exact agree.reads fifo small before s head hs
  | act s act =>
      obtain ⟨p, hp, rfl⟩ := Option.map_eq_some_iff.mp h
      have nodup := apart.nodup s
      rw [replace_peer_self] at nodup
      exact agree.acts fifo small s fair (Peer.step_moved hp) nodup

/-- As long as no identifier is handed out twice, two sessions agree after every run,
and an invariant may be carried along that relies on it. -/
theorem run_agreeing (fifo : K.Fifo fits sound) (small : ∀ f : Frame, f.payload = [] → fits f)
    {sessionId : SessionSide → SessionId} {labels : List Label} (good : Label → Prop)
    (inv : Net L → Prop) (fair : ∀ l, good l → l.Fair fits)
    (kept : ∀ m l m', good l → m.step K l = some m' → Apart m' → Agree K fits sound m →
      Agree K fits sound m' → inv m → inv m')
    (all : ∀ l ∈ labels, good l)
    (reached : run (step K) (spawn K sessionId) labels = some n) (apart : Apart n)
    (start : inv (spawn K sessionId)) : Agree K fits sound n ∧ inv n := by
  refine run_invariant_back good Apart (fun m => Agree K fits sound m ∧ inv m)
    (fun _ _ _ h => apart_back h) ?_ all reached apart ⟨agree_spawn fifo sessionId, start⟩
  rintro m l m' ok h apart' ⟨agree, holds⟩
  have agree' := agree_step fifo small (fair l ok) h apart' agree
  exact ⟨agree', kept m l m' ok h apart' agree agree' holds⟩

theorem agree_run (fifo : K.Fifo fits sound) (small : ∀ f : Frame, f.payload = [] → fits f)
    {sessionId : SessionSide → SessionId} {labels : List Label}
    (fair : ∀ l ∈ labels, l.Fair fits)
    (reached : run (step K) (spawn K sessionId) labels = some n) (apart : Apart n) :
    Agree K fits sound n :=
  (run_agreeing fifo small (Label.Fair fits) (fun _ => True) (fun _ ok => ok)
    (fun _ _ _ _ _ _ _ _ _ => trivial) fair reached apart trivial).1

end steps

end Net
end Foctet.Mux
