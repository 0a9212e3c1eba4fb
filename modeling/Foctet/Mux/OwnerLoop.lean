import Foctet.Mux.PeerSteps

/-! Streams served by loops that receive one frame and then send one frame. The actor
waits for room in a stream's channel inside the loop that alone empties the event
channel, so the two bounded channels can block each other. -/
namespace Foctet.Mux
open Foctet.Core Foctet.Lib
open SessionActor (Input)

namespace SessionActor

/-- What the framed reader yields. -/
def Input.isRead : Input → Bool
  | .frame _ | .readError | .eof => true
  | _ => false

/-- The channel of the stream that an incoming frame is for, if it is registered. -/
def routeOf (a : SessionActor) : Input → Option ChannelId
  | .frame f => a.streams.get f.header.streamId
  | _ => none

/-- A frame that comes in for a registered stream is held until it is put on the
stream's channel. -/
theorem held_step {a a' : SessionActor} {x : Input} {es : List Effect} (hstep : Step a x a' es)
    (delivers : ∀ i d f, a.phase = .awaiting (.forward i d f) → x = .resume true) (c : ChannelId) :
    (puts c es).length + (held c a').length =
      (held c a).length + if a.routeOf x = some c then 1 else 0 := by
  cases hstep with
  | @forward frame sender top registered =>
      by_cases own : sender = c <;> simp [puts, held, routeOf, top, registered, own]
  | openRequest top free | openResponse top free | openReset top free | unknown top free =>
      simp [puts, held, routeOf, top, free]
  | @forwarded i sender frame waits =>
      by_cases own : sender = c <;> simp [puts, held, routeOf, waits, own]
  | forwardFailed waits => cases delivers _ _ _ waits
  | cancelled here | readError here | eof here | openStream here | shutdownCommand here
    | eventFrame here | eventClosed here | eventError here | announced here
    | announceFailed here | responded here | respondFailed here | requested here
    | requestFailed here | written here | writeFailed here =>
      simp [puts, held, routeOf, shutdown, here]

end SessionActor

/-- The steps of the actor other than taking an event, and the calls on the session. -/
def Peer.Act.ofSession : Peer.Act → Bool
  | .command | .resume | .cancel | .openStream | .shutdown | .openReturns _ | .acceptStream => true
  | _ => false

/-- The actor is in the middle of a write. -/
def Phase.writes : Phase → Bool
  | .awaiting (.respond _) | .awaiting (.request _) | .awaiting (.write _) => true
  | _ => false

/-- A session whose streams are served by loops. -/
structure Service where
  peer : Peer
  /-- what the owner of a channel is sending, between one receive and the next -/
  sending : ChannelId → Option Frame
  /-- how many frames have been taken off the reader for a registered stream -/
  routed : Nat
  /-- how many events have been taken off the event channel -/
  taken : Nat

namespace Service

def spawn (side : SessionSide) (sessionId : SessionId) : Service where
  peer := .spawn side sessionId
  sending _ := none
  routed := 0
  taken := 0

inductive Label where
  | read (x : Input)
  | event
  | act (a : Peer.Act)
  | writeFails
  /-- the owner of a stream receives a frame and turns to sending this one -/
  | recv (c : ChannelId) (reply : Frame)
  /-- the owner's send ends -/
  | send (c : ChannelId)
  deriving DecidableEq, Repr

def setSending (s : Service) (c : ChannelId) (frame : Option Frame) : ChannelId → Option Frame :=
  fun d => if d = c then frame else s.sending d

def step (s : Service) : Label → Option Service
  | .read x =>
      if x.isRead then
        (s.peer.take x).map fun p =>
          { s with peer := p, routed := s.routed + (s.peer.actor.routeOf x).toList.length }
      else none
  | .event => (s.peer.step .event).map fun p => { s with peer := p, taken := s.taken + 1 }
  | .act a => if a.ofSession then (s.peer.step a).map fun p => { s with peer := p } else none
  | .writeFails =>
      if s.peer.actor.phase.writes then
        (s.peer.take (.resume false)).map fun p => { s with peer := p }
      else none
  | .recv c reply =>
      if s.sending c = none then
        (s.peer.step (.recv c)).map fun p =>
          { s with peer := p, sending := s.setSending c (some reply) }
      else none
  | .send c =>
      (s.sending c).bind fun frame => (s.peer.step (.submit c (.frame frame))).map fun p =>
        { s with peer := p, sending := s.setSending c none }

/-- The actor waits for room in a channel whose owner waits for room in the event
channel. -/
def Deadlocked (s : Service) : Prop :=
  ∃ streamId c frame reply, s.peer.actor.phase = .awaiting (.forward streamId c frame) ∧
    streamCapacity ≤ (s.peer.queue c).length ∧ s.sending c = some reply ∧
    eventCapacity ≤ s.peer.events.length

/-- The frames routed to a channel whose answers its owner has not sent yet. -/
def load (s : Service) (c : ChannelId) : Nat :=
  (s.peer.queue c).length + (SessionActor.held c s.peer.actor).length +
    (s.sending c).toList.length

/-- In each state of the run no stream has more than `each` frames that its owner has not
answered, or there are no more than `window` frames in the session: routed to a stream, with the
answer not yet taken off the event channel. -/
def Within (each window : Nat) (start : Service) (labels : List Label) : Prop :=
  Throughout step (fun t => (∀ c, t.load c ≤ each) ∨ t.routed ≤ t.taken + window) start labels

/-- No receiver is dropped, and every frame routed is waited for by someone, in the
event channel or answered. -/
structure Balanced (s : Service) : Prop where
  alive : ∀ c, s.peer.alive c = true
  owed : ∃ owed : List ChannelId, (∀ c, owed.count c = s.load c) ∧
    s.routed = s.taken + s.peer.events.length + owed.length

theorem balanced_spawn (side : SessionSide) (sessionId : SessionId) :
    Balanced (spawn side sessionId) where
  alive _ := rfl
  owed := ⟨[], fun _ => rfl, rfl⟩

variable {s t : Service} {l : Label}

/-- A step of the actor adds to the load of the channel it routes a frame to. -/
theorem load_advance {p : Peer} {x : Input} {a : SessionActor} {es : List Effect}
    (hstep : SessionActor.Step p.actor x a es)
    (delivers : ∀ i d f, p.actor.phase = .awaiting (.forward i d f) → x = .resume true)
    (c : ChannelId) :
    ((p.advance x a es).queue c).length + (SessionActor.held c (p.advance x a es).actor).length =
      (p.queue c).length + (SessionActor.held c p.actor).length +
        if p.actor.routeOf x = some c then 1 else 0 := by
  have held := SessionActor.held_step hstep delivers c
  have actor : (p.advance x a es).actor = a := rfl
  rw [Peer.advance_queue, List.length_append, actor]
  omega

/-- The actor takes an input in a state that forwards nothing, or ends the forward. -/
theorem delivers_of_select {a a' : SessionActor} {x : Input} {es : List Effect}
    (hstep : SessionActor.Step a x a' es) (outside : ∀ ok, x ≠ .resume ok) :
    ∀ i d f, a.phase = .awaiting (.forward i d f) → x = .resume true := by
  intro i d f waits
  have taken := hstep.step_eq
  unfold SessionActor.step at taken
  rw [waits] at taken
  cases x with
  | resume ok => exact absurd rfl (outside ok)
  | _ => cases taken

theorem balanced_read {x : Input} (h : Balanced s) (hstep : s.step (.read x) = some t) :
    Balanced t := by
  obtain ⟨read, hstep⟩ := Option.ite_none_right_eq_some.mp hstep
  obtain ⟨p, htake, rfl⟩ := Option.map_eq_some_iff.mp hstep
  obtain ⟨a, es, actor_step, rfl⟩ := Peer.take_some htake
  have outside : ∀ ok, x ≠ .resume ok := by
    intro ok same
    rw [same] at read
    cases read
  have loads := load_advance actor_step (delivers_of_select actor_step outside)
  obtain ⟨owed, counts, total⟩ := h.owed
  refine ⟨?_, (s.peer.actor.routeOf x).toList ++ owed, ?_, ?_⟩
  · intro c
    rw [Peer.advance_alive]
    exact h.alive c
  · intro c
    have count := counts c
    have moved := loads c
    have one : (s.peer.actor.routeOf x).toList.count c =
        if s.peer.actor.routeOf x = some c then 1 else 0 := by
      cases s.peer.actor.routeOf x with
      | none => rfl
      | some d => simp [List.count_singleton, beq_iff_eq]
    rw [List.count_append, one]
    simp only [load] at count ⊢
    omega
  · simp only [Peer.advance_events, List.length_append]
    omega

/-- A change that neither routes a frame nor answers one. -/
theorem Balanced.same_load (h : Balanced s) (alive : t.peer.alive = s.peer.alive)
    (loads : ∀ c, t.load c = s.load c)
    (total : t.routed + (s.taken + s.peer.events.length) =
      s.routed + (t.taken + t.peer.events.length)) : Balanced t := by
  obtain ⟨owed, counts, sum⟩ := h.owed
  refine ⟨fun c => alive ▸ h.alive c, owed, fun c => (counts c).trans (loads c).symm, ?_⟩
  omega

/-- The actor takes an input that routes no frame, from a party whose channels to the
streams are as they were. -/
theorem Balanced.advance (h : Balanced s) {p : Peer} {x : Input} {a : SessionActor}
    {es : List Effect} {taken : Nat} (actor : p.actor = s.peer.actor)
    (queue : p.queue = s.peer.queue) (alive : p.alive = s.peer.alive)
    (actor_step : SessionActor.Step p.actor x a es)
    (delivers : ∀ i d f, p.actor.phase = .awaiting (.forward i d f) → x = .resume true)
    (unrouted : p.actor.routeOf x = none)
    (total : s.taken + s.peer.events.length = taken + p.events.length) :
    Balanced { s with peer := p.advance x a es, taken } := by
  apply h.same_load
  · rw [Peer.advance_alive, alive]
  · intro c
    have moved := load_advance actor_step delivers c
    rw [unrouted, if_neg nofun, actor, queue] at moved
    exact congrArg (· + (s.sending c).toList.length) moved
  · rw [Peer.advance_events, total]

theorem balanced_event (h : Balanced s) (hstep : s.step .event = some t) : Balanced t := by
  obtain ⟨p, moved, rfl⟩ := Option.map_eq_some_iff.mp hstep
  cases Peer.step_moved moved with
  | @event i e rest a es head actor_step =>
      refine h.advance rfl rfl rfl actor_step (delivers_of_select actor_step nofun) rfl ?_
      simp only [head, List.length_cons]
      omega

/-- With no receiver dropped, a forward that ends has succeeded. -/
theorem outcome_forward {p : Peer} {ok : Bool} (alive : ∀ c, p.alive c = true)
    (outcome : p.outcome = some ok) :
    ∀ i d f, p.actor.phase = .awaiting (.forward i d f) → Input.resume ok = .resume true := by
  intro i d f waits
  simp only [Peer.outcome, waits, alive d, if_true] at outcome
  split at outcome
  · cases outcome
    rfl
  · cases outcome

theorem balanced_act {a : Peer.Act} (h : Balanced s) (hstep : s.step (.act a) = some t) :
    Balanced t := by
  obtain ⟨own, hstep⟩ := Option.ite_none_right_eq_some.mp hstep
  obtain ⟨p, moved, rfl⟩ := Option.map_eq_some_iff.mp hstep
  cases Peer.step_moved moved with
  | command next actor_step =>
      exact h.advance rfl rfl rfl actor_step (delivers_of_select actor_step nofun) rfl rfl
  | resume outcome actor_step =>
      exact h.advance rfl rfl rfl actor_step (outcome_forward h.alive outcome) rfl rfl
  | cancel actor_step =>
      exact h.advance rfl rfl rfl actor_step (delivers_of_select actor_step nofun) rfl rfl
  | openStream | shutdown | openFails | openReturns | acceptStream =>
      exact h.same_load rfl (fun _ => rfl) rfl
  | event | split | submit | offer | close | pushFails | push | recv | drop | dropReader => cases own

theorem balanced_writeFails (h : Balanced s) (hstep : s.step .writeFails = some t) :
    Balanced t := by
  obtain ⟨writes, hstep⟩ := Option.ite_none_right_eq_some.mp hstep
  obtain ⟨p, htake, rfl⟩ := Option.map_eq_some_iff.mp hstep
  obtain ⟨a, es, actor_step, rfl⟩ := Peer.take_some htake
  refine h.advance rfl rfl rfl actor_step ?_ rfl rfl
  intro i d f waits
  rw [waits] at writes
  cases writes

/-- A frame that its owner receives is one less in the channel and one more to answer. -/
theorem balanced_recv {c : ChannelId} {reply : Frame} (h : Balanced s)
    (hstep : s.step (.recv c reply) = some t) : Balanced t := by
  obtain ⟨idle, hstep⟩ := Option.ite_none_right_eq_some.mp hstep
  obtain ⟨p, moved, rfl⟩ := Option.map_eq_some_iff.mp hstep
  cases Peer.step_moved moved with
  | @recv _ handle f rest found waiting =>
      refine h.same_load rfl ?_ rfl
      intro d
      by_cases own : d = c
      · subst own
        simp only [load, setSending, if_pos, waiting, idle, Option.toList_some, Option.toList_none,
          List.length_cons, List.length_nil, SessionActor.held]
        omega
      · simp only [load, setSending, if_neg own, SessionActor.held]

theorem balanced_send {c : ChannelId} (h : Balanced s) (hstep : s.step (.send c) = some t) :
    Balanced t := by
  obtain ⟨frame, busy, hstep⟩ := Option.bind_eq_some_iff.mp hstep
  obtain ⟨p, moved, rfl⟩ := Option.map_eq_some_iff.mp hstep
  obtain ⟨owed, counts, total⟩ := h.owed
  have mine : s.load c = (s.peer.queue c).length + (SessionActor.held c s.peer.actor).length + 1 := by
    rw [load, busy]
    rfl
  have member : c ∈ owed := by
    apply List.count_pos_iff.mp
    rw [counts c, mine]
    exact Nat.succ_pos _
  have shorter := List.length_erase_of_mem member
  have nonempty := List.length_pos_of_mem member
  -- one frame less is owed on the channel, and one event more waits for the actor
  cases Peer.step_moved moved with
  | submit found idle =>
      refine ⟨h.alive, owed.erase c, ?_, ?_⟩
      · intro d
        by_cases own : d = c
        · subst own
          rw [List.count_erase_self, counts d, mine]
          simp only [load, setSending, if_pos, Option.toList_none, List.length_nil,
            SessionActor.held, Peer.queued]
          omega
        · rw [List.count_erase_of_ne own, counts d]
          simp only [load, setSending, if_neg own, SessionActor.held, Peer.queued]
      · simp only [Peer.queued, List.length_append, List.length_singleton]
        omega

theorem balanced_step (h : Balanced s) (hstep : s.step l = some t) : Balanced t := by
  cases l with
  | read x => exact balanced_read h hstep
  | event => exact balanced_event h hstep
  | act a => exact balanced_act h hstep
  | writeFails => exact balanced_writeFails h hstep
  | recv c reply => exact balanced_recv h hstep
  | send c => exact balanced_send h hstep

theorem balanced_run {side : SessionSide} {sessionId : SessionId} {labels : List Label}
    (run_eq : run step (spawn side sessionId) labels = some s) : Balanced s :=
  run_invariant (fun _ => True) Balanced (fun _ _ _ _ hstep h => balanced_step h hstep)
    (fun _ _ => trivial) run_eq (balanced_spawn side sessionId)

/-- The stream's channel full, one frame in the owner's hands and one in the actor's; and with the
event channel full as well. -/
theorem Deadlocked.load (dead : s.Deadlocked) (h : Balanced s) :
    (∃ c, streamCapacity + 2 ≤ s.load c) ∧
      s.taken + (eventCapacity + streamCapacity + 2) ≤ s.routed := by
  obtain ⟨streamId, c, frame, reply, waits, full, busy, jammed⟩ := dead
  obtain ⟨owed, counts, total⟩ := h.owed
  have count := counts c
  have most := List.count_le_length (a := c) (l := owed)
  have much : streamCapacity + 2 ≤ s.load c := by
    simp only [Service.load, SessionActor.held, waits, busy, if_pos, Option.toList_some,
      List.length_singleton]
    omega
  exact ⟨⟨c, much⟩, by omega⟩

/-- Nothing that can still happen in a deadlocked session ends the deadlock: the actor
does not even see a cancellation. -/
theorem Deadlocked.step (dead : s.Deadlocked) (h : Balanced s) (hstep : s.step l = some t) :
    t.Deadlocked := by
  obtain ⟨streamId, c, frame, reply, waits, full, busy, jammed⟩ := dead
  have blocked : ∀ x a es, (∀ ok, x ≠ .resume ok) → ¬ SessionActor.Step s.peer.actor x a es := by
    intro x a es outside actor_step
    exact outside true (delivers_of_select actor_step outside streamId c frame waits)
  cases l with
  | read x =>
      obtain ⟨read, hstep⟩ := Option.ite_none_right_eq_some.mp hstep
      obtain ⟨p, htake, rfl⟩ := Option.map_eq_some_iff.mp hstep
      obtain ⟨a, es, actor_step, rfl⟩ := Peer.take_some htake
      refine absurd actor_step (blocked x a es ?_)
      intro ok same
      rw [same] at read
      cases read
  | event =>
      obtain ⟨p, moved, rfl⟩ := Option.map_eq_some_iff.mp hstep
      cases Peer.step_moved moved with
      | event head actor_step => exact absurd actor_step (blocked _ _ _ nofun)
  | act a =>
      obtain ⟨own, hstep⟩ := Option.ite_none_right_eq_some.mp hstep
      obtain ⟨p, moved, rfl⟩ := Option.map_eq_some_iff.mp hstep
      cases Peer.step_moved moved with
      | command next actor_step => exact absurd actor_step (blocked _ _ _ nofun)
      | cancel actor_step => exact absurd actor_step (blocked _ _ _ nofun)
      | resume outcome actor_step =>
          simp only [Peer.outcome, waits, h.alive c, if_true, if_neg (Nat.not_lt.mpr full)] at outcome
          cases outcome
      | openStream | shutdown | openFails | openReturns | acceptStream =>
          exact ⟨streamId, c, frame, reply, waits, full, busy, jammed⟩
      | event | split | submit | offer | close | pushFails | push | recv | drop | dropReader => cases own
  | writeFails =>
      obtain ⟨writes, -⟩ := Option.ite_none_right_eq_some.mp hstep
      rw [waits] at writes
      cases writes
  | recv d answer =>
      obtain ⟨idle, hstep⟩ := Option.ite_none_right_eq_some.mp hstep
      obtain ⟨p, moved, rfl⟩ := Option.map_eq_some_iff.mp hstep
      have other : c ≠ d := by
        intro same
        rw [← same, busy] at idle
        cases idle
      cases Peer.step_moved moved with
      | recv found waiting =>
          refine ⟨streamId, c, frame, reply, waits, ?_, ?_, jammed⟩
          · simp only [if_neg other]
            exact full
          · simp only [setSending, if_neg other]
            exact busy
  | send d =>
      obtain ⟨answer, -, hstep⟩ := Option.bind_eq_some_iff.mp hstep
      obtain ⟨p, moved, rfl⟩ := Option.map_eq_some_iff.mp hstep
      obtain ⟨handle, found, submitted⟩ := Option.bind_eq_some_iff.mp moved
      obtain ⟨-, submitted⟩ := Option.ite_none_right_eq_some.mp submitted
      exact absurd (Peer.enqueue_some submitted).2.1 (Nat.not_lt.mpr jammed)

/-- So few frames have been taken off the reader, in all and of those not answered. -/
structure Few (s : Service) : Prop where
  unanswered : s.routed ≤ s.peer.events.length + (streamCapacity + 2)
  all : s.routed ≤ eventCapacity + streamCapacity + 2

theorem Few.load (few : Few s) (h : Balanced s) (c : ChannelId) : s.load c ≤ streamCapacity + 2 := by
  obtain ⟨owed, counts, total⟩ := h.owed
  have most := List.count_le_length (a := c) (l := owed)
  have less := few.unanswered
  rw [counts c] at most
  omega

/-- Such a run is within every window that is no smaller. -/
theorem within_of_few {side : SessionSide} {sessionId : SessionId} {labels : List Label}
    {each window : Nat} (few : Throughout step Few (spawn side sessionId) labels)
    (large : streamCapacity + 2 ≤ each ∨ eventCapacity + streamCapacity + 2 ≤ window) :
    Within each window (spawn side sessionId) labels := by
  intro pre post t cut reached
  have now := few pre post t cut reached
  rcases large with many | many
  · exact .inl fun c => Nat.le_trans (now.load (balanced_run reached) c) many
  · have total := now.all
    exact .inr (by omega)

section Jam
variable {frame : Frame} {c : ChannelId} {e q n : Nat} {busy : Option Frame}

/-- One stream in service, with so many events in the event channel, so many frames in
the stream's channel, and so many frames routed. -/
structure Serving (frame : Frame) (c : ChannelId) (e q : Nat) (busy : Option Frame) (n : Nat)
    (s : Service) : Prop where
  top : s.peer.actor.phase = .select
  registered : s.peer.actor.streams.get frame.header.streamId = some c
  alive : s.peer.alive c = true
  handle : ∃ h, s.peer.handles.get c = some h ∧ h.todo = []
  events : s.peer.events.length = e
  queue : (s.peer.queue c).length = q
  sending : s.sending c = busy
  routed : s.routed = n

theorem Serving.few (h : Serving frame c e q busy n s) (unanswered : n ≤ e + (streamCapacity + 2))
    (all : n ≤ eventCapacity + streamCapacity + 2) : Few s := by
  constructor
  · rw [h.routed, h.events]
    exact unanswered
  · rw [h.routed]
    exact all

/-- The actor takes a frame for the stream off the reader. -/
def held (s : Service) (frame : Frame) (c : ChannelId) : Service :=
  { s with
    peer := s.peer.advance (.frame frame)
      { s.peer.actor with phase := .awaiting (.forward frame.header.streamId c frame) } []
    routed := s.routed + 1 }

theorem Serving.read (h : Serving frame c e q busy n s) :
    s.step (.read (.frame frame)) = some (s.held frame c) := by
  have actor_step := (SessionActor.Step.forward h.top h.registered).step_eq
  simp only [Service.step, SessionActor.Input.isRead, if_true, Peer.take, actor_step,
    SessionActor.routeOf, h.registered, Option.map_some, Option.toList_some,
    List.length_singleton]
  rfl

/-- A frame goes from the reader into the stream's channel. -/
def feed (frame : Frame) : List Label := [.read (.frame frame), .act .resume]

/-- Its owner receives it and sends it back. -/
def answer (frame : Frame) (c : ChannelId) : List Label := [.recv c frame, .send c]

theorem Serving.held_few (h : Serving frame c e q busy n s)
    (unanswered : n < e + (streamCapacity + 2)) (all : n < eventCapacity + streamCapacity + 2) :
    Few (s.held frame c) := by
  constructor
  · show s.routed + 1 ≤ s.peer.events.length + _
    rw [h.routed, h.events]
    exact unanswered
  · show s.routed + 1 ≤ _
    rw [h.routed]
    exact all

theorem Serving.feed (h : Serving frame c e q busy n s) (room : q < streamCapacity)
    (unanswered : n < e + (streamCapacity + 2)) (all : n < eventCapacity + streamCapacity + 2) :
    ∃ t, RunsThrough step Few s (Service.feed frame) t ∧
      Serving frame c e (q + 1) busy (n + 1) t := by
  have waits : (s.held frame c).peer.actor.phase =
      .awaiting (.forward frame.header.streamId c frame) := rfl
  have outcome : (s.held frame c).peer.outcome = some true := by
    have alive : (s.held frame c).peer.alive c = true := h.alive
    have queue : ((s.held frame c).peer.queue c).length < streamCapacity := by
      rw [show (s.held frame c).peer.queue c = s.peer.queue c from rfl, h.queue]
      exact room
    simp only [Peer.outcome, waits, alive, queue, if_true]
  have actor_step := (SessionActor.Step.forwarded waits).step_eq
  have resumed : (s.held frame c).step (.act .resume) = some
      { s.held frame c with
        peer := (s.held frame c).peer.advance (.resume true)
          { (s.held frame c).peer.actor with phase := .select } [.put c frame] } := by
    simp only [Service.step, Peer.Act.ofSession, if_true, Peer.step, outcome, Option.bind_some,
      Peer.take, actor_step, Option.map_some]
    rfl
  have served : Serving frame c e (q + 1) busy (n + 1)
      { s.held frame c with
        peer := (s.held frame c).peer.advance (.resume true)
          { (s.held frame c).peer.actor with phase := .select } [.put c frame] } := by
    refine ⟨rfl, h.registered, h.alive, h.handle, h.events, ?_, h.sending, congrArg (· + 1) h.routed⟩
    have now : ∀ p : Peer, ((p.advance (.resume true) { p.actor with phase := .select }
        [.put c frame]).queue c).length = (p.queue c).length + 1 := by
      intro p
      rw [Peer.advance_queue, List.length_append]
      simp [SessionActor.puts]
    exact (now _).trans (congrArg (· + 1) h.queue)
  refine ⟨_, ?_, served⟩
  exact .cons (h.few (Nat.le_of_lt unanswered) (Nat.le_of_lt all)) h.read
    (.cons (h.held_few unanswered all) resumed (.nil (served.few unanswered all)))

theorem Serving.recv (h : Serving frame c e (q + 1) none n s) (reply : Frame) :
    ∃ t, s.step (.recv c reply) = some t ∧ Serving frame c e q (some reply) n t := by
  obtain ⟨handle, found, idle⟩ := h.handle
  obtain ⟨first, rest, queue⟩ := List.exists_cons_of_length_eq_add_one h.queue
  have count := h.queue
  rw [queue, List.length_cons] at count
  simp only [Service.step, h.sending, if_true, Peer.step, found, Option.bind_some, Peer.recv, queue,
    h.alive, idle, or_true, and_self, Option.map_some]
  refine ⟨_, rfl, h.top, h.registered, h.alive, ?_, h.events, ?_, ?_, h.routed⟩
  · refine ⟨handle.afterRecv first.header.flags, Table.get_insert_self _ _ _, ?_⟩
    rw [(Peer.afterRecv_stream handle first.header.flags).2.2, idle]
  · simp only [if_true]
    omega
  · simp only [setSending, if_true]

theorem Serving.send {reply : Frame} (h : Serving frame c e q (some reply) n s)
    (room : e < eventCapacity) :
    ∃ t, s.step (.send c) = some t ∧ Serving frame c (e + 1) q none n t := by
  obtain ⟨handle, found, idle⟩ := h.handle
  have open_loop : s.peer.actor.phase ≠ .left := by
    rw [h.top]
    exact nofun
  have fits : s.peer.events.length < eventCapacity := by
    rw [h.events]
    exact room
  simp only [Service.step, h.sending, Option.bind_some, Peer.step, found, Peer.submit, idle, if_true,
    Peer.enqueue, ne_eq, open_loop, not_false_eq_true, fits, and_self, Option.map_some]
  refine ⟨_, rfl, h.top, h.registered, h.alive, ⟨handle, found, idle⟩, ?_, h.queue, ?_, h.routed⟩
  · rw [List.length_append, h.events, List.length_singleton]
  · simp only [setSending, if_true]

/-- One turn of the owner's loop. -/
def turn (frame : Frame) (c : ChannelId) : List Label := feed frame ++ answer frame c

theorem Serving.turns (h : Serving frame c n 0 none n s) (k : Nat) (room : n + k ≤ eventCapacity) :
    ∃ t, RunsThrough step Few s (List.replicate k (turn frame c)).flatten t ∧
      Serving frame c (n + k) 0 none (n + k) t := by
  induction k generalizing s n with
  | zero => exact ⟨s, .nil (h.few (Nat.le_add_right _ _) (by omega)), h⟩
  | succ k ih =>
      obtain ⟨s₁, fed, h₁⟩ := h.feed (by decide) (by omega) (by omega)
      obtain ⟨s₂, received, h₂⟩ := h₁.recv frame
      obtain ⟨s₃, sent, h₃⟩ := h₂.send (by omega)
      obtain ⟨t, rest, ht⟩ := ih h₃ (by omega)
      refine ⟨t, ?_, ?_⟩
      · rw [List.replicate_succ, List.flatten_cons, turn, List.append_assoc]
        exact fed.append (.cons (h₁.few (by omega) (by omega)) received
          (.cons (h₂.few (by omega) (by omega)) sent rest))
      · rwa [Nat.add_assoc, Nat.add_comm 1 k] at ht

theorem Serving.feeds (h : Serving frame c e q busy n s) (k : Nat) (room : q + k ≤ streamCapacity)
    (unanswered : n + k ≤ e + (streamCapacity + 2))
    (all : n + k ≤ eventCapacity + streamCapacity + 2) :
    ∃ t, RunsThrough step Few s (List.replicate k (Service.feed frame)).flatten t ∧
      Serving frame c e (q + k) busy (n + k) t := by
  induction k generalizing s q n with
  | zero => exact ⟨s, .nil (h.few unanswered all), h⟩
  | succ k ih =>
      obtain ⟨s₁, fed, h₁⟩ := h.feed (by omega) (by omega) (by omega)
      obtain ⟨t, rest, ht⟩ := ih h₁ (by omega) (by omega) (by omega)
      refine ⟨t, ?_, ?_⟩
      · rw [List.replicate_succ, List.flatten_cons]
        exact fed.append rest
      · rwa [Nat.add_assoc, Nat.add_comm 1 k, Nat.add_assoc, Nat.add_comm 1 k] at ht

end Jam

/-- The peer opens a stream, which the application accepts. -/
def opening (streamId : StreamId) : List Label :=
  [.read (.frame (openRequestFrame streamId)), .act .resume, .act .resume, .act .acceptStream]

/-- The owner answers until the event channel is full, receives one frame more, and the
peer goes on sending until the stream's channel is full, and once more. -/
def jam (frame : Frame) (c : ChannelId) : List Label :=
  (List.replicate eventCapacity (turn frame c)).flatten ++
    (feed frame ++ (.recv c frame ::
      ((List.replicate streamCapacity (feed frame)).flatten ++ [.read (.frame frame)])))

theorem Serving.jam {frame : Frame} {c : ChannelId} (h : Serving frame c 0 0 none 0 s) :
    ∃ t, RunsThrough step Few s (Service.jam frame c) t ∧ t.Deadlocked := by
  obtain ⟨s₁, answered, h₁⟩ := h.turns eventCapacity (Nat.le_of_eq (Nat.zero_add _))
  rw [Nat.zero_add] at h₁
  obtain ⟨s₂, fed, h₂⟩ := h₁.feed (by decide) (by decide) (by decide)
  obtain ⟨s₃, received, h₃⟩ := h₂.recv frame
  obtain ⟨s₄, filled, h₄⟩ := h₃.feeds streamCapacity (by decide) (by decide) (by decide)
  rw [Nat.zero_add] at h₄
  refine ⟨s₄.held frame c, ?_, ⟨frame.header.streamId, c, frame, frame, rfl, ?_, h₄.sending, ?_⟩⟩
  · refine answered.append (fed.append (.cons (h₂.few (by decide) (by decide)) received
      (filled.append ?_)))
    exact .cons (h₄.few (by decide) (by decide)) h₄.read
      (.nil (h₄.held_few (by decide) (by decide)))
  · exact Nat.le_of_eq h₄.queue.symm
  · exact Nat.le_of_eq h₄.events.symm

theorem serving_opening (side : SessionSide) (sessionId : SessionId) (frame : Frame) :
    ∃ s, RunsThrough step Few (spawn side sessionId) (opening frame.header.streamId) s ∧
      Serving frame 0 0 0 none 0 s := by
  have none_yet {t : Service} (start : t.routed = 0) : Few t := by
    constructor
    · rw [start]
      exact Nat.zero_le _
    · rw [start]
      exact Nat.zero_le _
  refine ⟨_, .cons (none_yet rfl) rfl (.cons (none_yet rfl) rfl (.cons (none_yet rfl) rfl
    (.cons (none_yet rfl) rfl (.nil (none_yet rfl))))), rfl, ?_, rfl,
    ⟨_, Table.get_insert_self _ _ _, rfl⟩, rfl, rfl, rfl, rfl⟩
  exact Table.get_insert_self _ _ _

/-- On every session the peer can jam a stream of its own. -/
theorem jam_deadlocks (side : SessionSide) (sessionId : SessionId) (frame : Frame) :
    ∃ s, RunsThrough step Few (spawn side sessionId)
      (opening frame.header.streamId ++ jam frame 0) s ∧ s.Deadlocked := by
  obtain ⟨s₀, opened, h⟩ := serving_opening side sessionId frame
  obtain ⟨s, jammed, dead⟩ := h.jam
  exact ⟨s, opened.append jammed, dead⟩

/-- Sessions in which at each moment no stream has more than so many frames unanswered, or not
more than so many are on their way in all, are free of the deadlock exactly when the first number
does not fill a stream's channel, the owner's hands and the actor's, and the second not the event
channel besides. -/
theorem deadlock_free_iff (each window : Nat) :
    (∀ side sessionId labels s, run step (spawn side sessionId) labels = some s →
      Within each window (spawn side sessionId) labels → ¬ s.Deadlocked) ↔
        each ≤ streamCapacity + 1 ∧ window ≤ eventCapacity + streamCapacity + 1 := by
  constructor
  · intro free
    by_contra more
    obtain ⟨s, jammed, dead⟩ := jam_deadlocks .server ⟨0⟩ (bytesFrame ⟨1⟩ [])
    exact free .server ⟨0⟩ _ s jammed.reaches (within_of_few jammed.throughout (by omega)) dead
  · intro small side sessionId labels s run_eq within dead
    obtain ⟨⟨c, much⟩, many⟩ := dead.load (balanced_run run_eq)
    rcases within labels [] s (List.append_nil labels).symm run_eq with few | few
    · have less := few c
      omega
    · omega

/-- The client opens stream 1 on a server and sends 66 frames on it, and the loop picks
the reader each time. The deadlock that follows stays in every continuation. -/
theorem server_deadlocks :
    ∃ s, run step (spawn .server ⟨0⟩) (opening ⟨1⟩ ++ jam (bytesFrame ⟨1⟩ []) 0) = some s ∧
      s.Deadlocked ∧ ∀ labels t, run step s labels = some t → t.Deadlocked := by
  obtain ⟨s, jammed, dead⟩ := jam_deadlocks .server ⟨0⟩ (bytesFrame ⟨1⟩ [])
  have run_eq := jammed.reaches
  refine ⟨s, run_eq, dead, ?_⟩
  intro labels t later
  have both : Balanced t ∧ t.Deadlocked :=
    run_invariant (fun _ => True) (fun u => Balanced u ∧ u.Deadlocked)
      (fun _ _ _ _ hstep before => ⟨balanced_step before.1 hstep, before.2.step before.1 hstep⟩)
      (fun _ _ => trivial) later ⟨balanced_run run_eq, dead⟩
  exact both.2

end Service
end Foctet.Mux
