import Foctet.Mux.Delivery

/-! How a stream is closed from both ends. The state of an unsplit end is a function of
the calls of `close` and the flags received, in the order in which they met. -/
namespace Foctet.Mux
open Foctet.Core Foctet.Lib
open SessionActor (Input arrived puts accepted resolved)

/-- The match on the state in `close` does not look at the identifier. -/
theorem closeFrom_state (i j : StreamId) (state : StreamState) :
    (closeFrom i state).1 = (closeFrom j state).1 := by
  cases state <;> rfl

def CloseMark.next (state : StreamState) : CloseMark → StreamState
  | .called => (closeFrom ⟨0⟩ state).1
  | .requested => .remoteClosing
  | .foreign state => state

/-- The marks of closing alone. -/
def CloseMark.Plain (mark : CloseMark) : Prop := mark = .called ∨ mark = .requested

def stateAfter (marks : List CloseMark) : StreamState := marks.foldl CloseMark.next .established

theorem stateAfter_concat (marks : List CloseMark) (last : CloseMark) :
    stateAfter (marks ++ [last]) = last.next (stateAfter marks) := by
  rw [stateAfter, List.foldl_append]
  rfl

theorem stateAfter_closing {init : List CloseMark} {last : CloseMark} (plain : last.Plain) :
    stateAfter (init ++ [last]) = .localClosing ∨ stateAfter (init ++ [last]) = .remoteClosing ∨
      stateAfter (init ++ [last]) = .closed := by
  rw [stateAfter_concat]
  rcases plain with rfl | rfl
  · cases stateAfter init
    all_goals first | exact .inl rfl | exact .inr (.inr rfl)
  · exact .inr (.inl rfl)

/-- An end that has closed and been asked to close, and received no other flag, is `Closed` if
its own call came last. -/
theorem stateAfter_closed_iff {marks : List CloseMark} (requested : .requested ∈ marks)
    (plain : ∀ m ∈ marks, m.Plain) : stateAfter marks = .closed ↔ marks.getLast? = some .called := by
  rcases List.eq_nil_or_concat marks with rfl | ⟨init, last, rfl⟩
  · cases requested
  · rw [List.concat_eq_append] at requested plain ⊢
    rw [stateAfter_concat, List.getLast?_concat]
    rcases plain last (List.mem_append_right _ List.mem_cons_self) with rfl | rfl
    · refine ⟨fun _ => rfl, fun _ => ?_⟩
      rcases List.eq_nil_or_concat init with rfl | ⟨earlier, mark, rfl⟩
      · cases List.mem_singleton.mp requested
      · rw [List.concat_eq_append] at plain ⊢
        have own : mark.Plain :=
          plain mark (List.mem_append_left _ (List.mem_append_right _ List.mem_cons_self))
        rcases stateAfter_closing own with h | h | h <;> rw [h] <;> rfl
    · exact ⟨fun h => (by cases h), fun h => (by cases h)⟩

/-- Streams come into being established, and a loop that is left has cleared its map. -/
structure Born (a : SessionActor) (effects : List Effect) : Prop where
  announce : ∀ s, a.phase = .awaiting (.announce s) → s.state = .established
  established : ∀ s ∈ known effects, s.state = .established
  left : a.phase = .left → ∀ i, a.streams.get i = none

theorem born_spawn (side : SessionSide) (sessionId : SessionId) : Born (.spawn side sessionId) [] where
  announce s h := by cases h
  established s h := by cases h
  left h := by cases h

theorem step_established {a a' : SessionActor} {x : Input} {es : List Effect}
    (h : SessionActor.Step a x a' es)
    (announce : ∀ s, a.phase = .awaiting (.announce s) → s.state = .established)
    {s : LogicalStream} (member : s ∈ known es) : s.state = .established := by
  cases h with
  | announced hphase =>
      rw [List.mem_singleton.mp member]
      exact announce _ hphase
  | openResponse => rw [List.mem_singleton.mp member]
  | _ => cases member

theorem born_step {a a' : SessionActor} {x : Input} {es effects : List Effect}
    (hs : SessionActor.Step a x a' es) (h : Born a effects) : Born a' (effects ++ es) := by
  refine ⟨?_, ?_, ?_⟩
  · intro s hphase
    cases hs with
    | openRequest =>
        cases hphase
        rfl
    | eof top | openResponse top | openReset top | unknown top | shutdownCommand top
      | eventClosed top | eventError top =>
        rw [show _ = Phase.select from top] at hphase
        cases hphase
    | _ => cases hphase
  · intro s member
    rcases mem_known_append.mp member with old | new
    · exact h.established s old
    · exact step_established hs h.announce new
  · intro hphase i
    cases hs with
    | cancelled | readError | requestFailed | writeFailed => rfl
    | eof top | openResponse top | openReset top | unknown top | shutdownCommand top
      | eventClosed top | eventError top =>
        rw [show _ = Phase.select from top] at hphase
        cases hphase
    | _ => cases hphase

/-- Streams handed to the application: each channel belongs to one of them, and those
still waiting to be taken are none of them. -/
structure Handed (p : Peer) : Prop where
  minted : SessionActor.Minted p.actor p.effects
  claimed : p.Claimed
  accepts : AcceptQueue p
  handles : ∀ c h, p.handles.get c = some h → ∃ s ∈ p.returned ++ p.taken, s.frameReceiver = c
  marked : ∀ c, p.marks c ≠ [] → ∃ s ∈ p.returned ++ p.taken, s.frameReceiver = c

theorem handed_spawn (side : SessionSide) (sessionId : SessionId) :
    Handed (.spawn side sessionId) where
  minted := SessionActor.minted_spawn side sessionId
  claimed := Peer.claimed_spawn side sessionId
  accepts := rfl
  handles c h found := by cases found
  marked _ h := absurd rfl h

section handed
variable {p : Peer}

theorem Handed.known (h : Handed p) {s : LogicalStream} (member : s ∈ p.returned ++ p.taken) :
    s ∈ Mux.known p.effects := by
  rcases List.mem_append.mp member with returned | taken
  · exact List.mem_append_right _ (h.claimed.returned s returned)
  · refine List.mem_append_left _ ?_
    rw [← h.accepts]
    exact List.mem_append_left _ taken

/-- A stream that waits in the accept channel has a channel of its own. -/
theorem Handed.accept_apart (h : Handed p) {s : LogicalStream} {rest : List LogicalStream}
    (head : p.accepts = s :: rest) :
    ¬ ∃ t ∈ p.returned ++ p.taken, t.frameReceiver = s.frameReceiver := by
  rintro ⟨t, member, same⟩
  have waiting : s ∈ accepted p.effects := by
    rw [← h.accepts, head]
    exact List.mem_append_right _ List.mem_cons_self
  have nodup := h.minted.known_nodup
  rw [channels, Mux.known, List.map_append, List.nodup_append] at nodup
  rcases List.mem_append.mp member with returned | taken
  · exact nodup.2.2 _ (List.mem_map_of_mem waiting) _
      (List.mem_map_of_mem (h.claimed.returned t returned)) same.symm
  · have own := nodup.1
    rw [← h.accepts, head, List.map_append, List.nodup_append] at own
    exact own.2.2 _ (List.mem_map_of_mem taken) _ List.mem_cons_self same

/-- So has a stream that waits as a reply. -/
theorem Handed.reply_apart (h : Handed p) {s : LogicalStream} {reply : ReplyId}
    (waits : p.replies.get reply = some (.ok s)) :
    ¬ ∃ t ∈ p.returned ++ p.taken, t.frameReceiver = s.frameReceiver := by
  rintro ⟨t, member, same⟩
  obtain ⟨there, free⟩ := h.claimed.waiting reply s waits
  have nodup := h.minted.known_nodup
  rw [channels, Mux.known, List.map_append, List.nodup_append] at nodup
  rcases List.mem_append.mp member with returned | taken
  · exact free (same ▸ List.mem_map_of_mem returned)
  · have accepted : t ∈ accepted p.effects := h.accepts ▸ List.mem_append_left _ taken
    exact nodup.2.2 _ (List.mem_map_of_mem accepted) _ (List.mem_map_of_mem there) same

/-- Nothing has happened yet on a channel that was not handed to the application. -/
theorem Handed.unmarked (h : Handed p) {c : ChannelId}
    (new : ¬ ∃ t ∈ p.returned ++ p.taken, t.frameReceiver = c) : p.marks c = [] := by
  by_contra some_mark
  exact new (h.marked c some_mark)

theorem Handed.advance (h : Handed p) {x : Input} {a : SessionActor} {es : List Effect}
    (hs : SessionActor.Step p.actor x a es) : Handed (p.advance x a es) := by
  have minted := SessionActor.minted_step hs h.minted
  refine ⟨minted, h.claimed.input hs minted.resolved_nodup, acceptQueue_advance h.accepts _ _ _,
    ?_, ?_⟩
  · rw [Peer.advance_handles, Peer.advance_returned, Peer.advance_taken]
    exact h.handles
  · rw [Peer.advance_marks, Peer.advance_returned, Peer.advance_taken]
    exact h.marked

/-- A channel with a new handle, and the others as before. -/
theorem insert_handed {handles : Table ChannelId Handle} {new : Handle} {c : ChannelId}
    {given : List LogicalStream}
    (old : ∀ d h, handles.get d = some h → ∃ s ∈ given, s.frameReceiver = d)
    (own : ∃ s ∈ given, s.frameReceiver = c) :
    ∀ d h, (handles.insert c new).get d = some h → ∃ s ∈ given, s.frameReceiver = d := by
  refine Table.forall_insert own ?_
  intro d h _ found
  exact old d h found

theorem Handed.moved {p' : Peer} {act : Peer.Act} (m : Peer.Moved p act p') (h : Handed p) :
    Handed p' := by
  have minted := h.minted.moved m
  have claimed := h.claimed.moved m minted.resolved_nodup
  have accepts := acceptQueue_moved m h.accepts
  cases m with
  | @command cmd rest a es waiting hs =>
      have popped : Handed { p with commands := rest, allocated := p.noteAllocated cmd } :=
        ⟨h.minted, ⟨h.claimed.waiting, h.claimed.distinct, h.claimed.returned, h.claimed.nodup⟩,
          h.accepts, h.handles, h.marked⟩
      exact popped.advance hs
  | @event i e rest a es waiting hs =>
      have popped : Handed { p with events := rest, sent := p.noteSent i e } :=
        ⟨h.minted, ⟨h.claimed.waiting, h.claimed.distinct, h.claimed.returned, h.claimed.nodup⟩,
          h.accepts, h.handles, h.marked⟩
      exact popped.advance hs
  | resume _ hs | cancel hs => exact h.advance hs
  | @openReturns reply s =>
      have grown {c : ChannelId} (old : ∃ t ∈ p.returned ++ p.taken, t.frameReceiver = c) :
          ∃ t ∈ (p.returned ++ [s]) ++ p.taken, t.frameReceiver = c := by
        obtain ⟨t, member, same⟩ := old
        refine ⟨t, ?_, same⟩
        simp only [List.mem_append] at member ⊢
        tauto
      refine ⟨minted, claimed, accepts, insert_handed (fun d h' found => grown (h.handles d h' found))
        ⟨s, ?_, rfl⟩, fun c some_mark => grown (h.marked c some_mark)⟩
      exact List.mem_append_left _ (List.mem_append_right _ List.mem_cons_self)
  | @acceptStream s rest =>
      have grown {c : ChannelId} (old : ∃ t ∈ p.returned ++ p.taken, t.frameReceiver = c) :
          ∃ t ∈ p.returned ++ (p.taken ++ [s]), t.frameReceiver = c := by
        obtain ⟨t, member, same⟩ := old
        exact ⟨t, by rw [← List.append_assoc]; exact List.mem_append_left _ member, same⟩
      refine ⟨minted, claimed, accepts, insert_handed (fun d h' found => grown (h.handles d h' found))
        ⟨s, ?_, rfl⟩, fun c some_mark => grown (h.marked c some_mark)⟩
      exact List.mem_append_right _ (List.mem_append_right _ List.mem_cons_self)
  | split found | offer found | pushFails found | push found =>
      exact ⟨minted, claimed, accepts, insert_handed h.handles (h.handles _ _ found), h.marked⟩
  | @close c handle found | @recv c handle _ _ found =>
      have own := h.handles _ _ found
      refine ⟨minted, claimed, accepts, insert_handed h.handles own, ?_⟩
      intro d some_mark
      by_cases same : d = c
      · exact same ▸ own
      · simp only [same, if_false] at some_mark
        exact h.marked d some_mark
  | drop found =>
      exact ⟨minted, claimed, accepts, fun d h' there => h.handles d h' (Table.get_of_get_remove there),
        h.marked⟩
  | openStream | shutdown | openFails | submit | dropReader =>
      exact ⟨minted, claimed, accepts, h.handles, h.marked⟩

end handed

/-- The state of every unsplit end is what its marks make it. -/
def StateOfMarks (p : Peer) : Prop :=
  ∀ c h, p.handles.get c = some h → h.split = false → h.stream.state = stateAfter (p.marks c)

theorem insert_state {p : Peer} (h : StateOfMarks p) {c : ChannelId} {new : Handle}
    (marks : ChannelId → List CloseMark) (others : ∀ d, d ≠ c → marks d = p.marks d)
    (own : new.split = false → new.stream.state = stateAfter (marks c)) :
    ∀ d handle, (p.handles.insert c new).get d = some handle → handle.split = false →
      handle.stream.state = stateAfter (marks d) := by
  refine Table.forall_insert own ?_
  intro d handle other found
  rw [others d other]
  exact h d handle found

/-- `recv_frame` moves the state and the marks alike. -/
theorem afterRecv_state {h : Handle} (whole : h.split = false) (flags : FrameFlags)
    {marks : List CloseMark} (before : h.stream.state = stateAfter marks) :
    (h.afterRecv flags).stream.state = stateAfter (marks ++ markRecv flags) := by
  simp only [Handle.afterRecv, whole, Bool.false_eq_true, if_false, LogicalStream.setStateFromFlags,
    markRecv]
  repeat' split
  all_goals first
    | rw [stateAfter_concat]
      rfl
    | rw [List.append_nil]
      exact before

/-- A frame that leaves no mark leaves the state, whether the stream is split or not. -/
theorem afterRecv_quiet {flags : FrameFlags} (quiet : markRecv flags = []) (h : Handle) :
    (h.afterRecv flags).stream.state = h.stream.state := by
  have unset : flags.isOpenRequest = false ∧ flags.isOpenResponse = false ∧
      flags.isOpenReset = false ∧ flags.isCloseRequest = false ∧
      flags.isCloseResponse = false := by
    unfold markRecv at quiet
    repeat' split at quiet
    all_goals simp_all
  simp only [Handle.afterRecv, LogicalStream.setStateFromFlags, readerStateFromFlags, unset,
    Bool.false_eq_true, if_false]
  split <;> rfl

/-- `close` leaves a mark that no received frame leaves. -/
theorem markRecv_cases (flags : FrameFlags) :
    markRecv flags = [] ∨ ∃ m, markRecv flags = [m] ∧ m ≠ .called := by
  unfold markRecv
  repeat' split
  all_goals first
    | exact .inl rfl
    | exact .inr ⟨_, rfl, fun h => (by cases h)⟩

theorem moved_state {p p' : Peer} {act : Peer.Act} (m : Peer.Moved p act p')
    (accept : ∀ s rest, p.accepts = s :: rest →
      p.marks s.frameReceiver = [] ∧ s.state = .established)
    (reply : ∀ r s, p.replies.get r = some (.ok s) →
      p.marks s.frameReceiver = [] ∧ s.state = .established)
    (h : StateOfMarks p) : StateOfMarks p' := by
  cases m with
  | command | event | resume | cancel =>
      intro c handle found whole
      rw [Peer.advance_handles] at found
      rw [Peer.advance_marks]
      exact h c handle found whole
  | openStream | shutdown | openFails | submit | dropReader => exact h
  | openReturns waits =>
      obtain ⟨unmarked, new⟩ := reply _ _ waits
      refine insert_state h p.marks (fun _ _ => rfl) fun _ => ?_
      rw [unmarked]
      exact new
  | acceptStream head =>
      obtain ⟨unmarked, new⟩ := accept _ _ head
      refine insert_state h p.marks (fun _ _ => rfl) fun _ => ?_
      rw [unmarked]
      exact new
  | split found => exact insert_state h p.marks (fun _ _ => rfl) fun whole => (by cases whole)
  | offer found | pushFails found | push found =>
      have kept := h _ _ found
      exact insert_state h p.marks (fun _ _ => rfl) kept
  | @close c handle found =>
      refine insert_state h _ (fun d other => if_neg other) fun whole => ?_
      simp only [if_true]
      rw [stateAfter_concat, ← h c handle found whole]
      exact closeFrom_state _ _ _
  | @recv c handle f rest found waiting =>
      refine insert_state h _ (fun d other => if_neg other) fun _ => ?_
      have whole : handle.split = false := by
        cases halved : handle.split with
        | false => rfl
        | true => simp_all [Handle.afterRecv]
      simp only [if_true]
      exact afterRecv_state whole f.header.flags (h c handle found whole)
  | drop found =>
      intro d handle there whole
      exact h d handle (Table.get_of_get_remove there) whole

/-- An end that `close` has closed has its `Closed` event on the way, or its channel is out of
the map. -/
def Gone (p : Peer) (c : ChannelId) (h : Handle) : Prop :=
  (p.marks c).getLast? = some .called → h.stream.state = .closed →
    .closed h.stream.streamId ∈ h.todo ∨
    (h.stream.streamId, .closed h.stream.streamId) ∈ p.events ∨
    p.actor.streams.get h.stream.streamId ≠ some c

def Removed (p : Peer) : Prop := ∀ c h, p.handles.get c = some h → Gone p c h

theorem Removed.input {p p' : Peer} (h : Removed p)
    (below : ∀ c handle, p.handles.get c = some handle → c < p.actor.nextChannel) {x : Input}
    {es : List Effect} (hs : SessionActor.Step p.actor x p'.actor es)
    (handles : p'.handles = p.handles) (marks : p'.marks = p.marks)
    (events : ∀ i, (i, StreamEvent.closed i) ∈ p.events →
      (i, StreamEvent.closed i) ∈ p'.events ∨ x = .event (.closed i)) : Removed p' := by
  intro c handle found last closed
  rw [handles] at found
  rw [marks] at last
  rcases h c handle found last closed with todo | queued | absent
  · exact .inl todo
  · rcases events _ queued with still | rfl
    · exact .inr (.inl still)
    · refine .inr (.inr ?_)
      generalize p'.actor = a' at hs
      cases hs with
      | eventClosed top =>
          rw [Table.get_remove_self]
          exact fun there => (by cases there)
  · exact .inr (.inr (SessionActor.step_not_entry hs (below c handle found) absent))

theorem closeFrom_closed {i : StreamId} {state : StreamState}
    (h : (closeFrom i state).1 = .closed) : .closed i ∈ (closeFrom i state).2 := by
  cases state <;> simp [closeFrom] at h ⊢

theorem insert_gone {p p' : Peer} (h : Removed p) {c : ChannelId} {new : Handle}
    (kept : ∀ d handle, d ≠ c → Gone p d handle → Gone p' d handle) (own : Gone p' c new) :
    ∀ d handle, (p.handles.insert c new).get d = some handle → Gone p' d handle := by
  refine Table.forall_insert own ?_
  intro d handle other found
  exact kept d handle other (h d handle found)

theorem Gone.queued {p : Peer} (i : StreamId) (e : StreamEvent) {c : ChannelId} {h : Handle}
    (gone : Gone p c h) : Gone (p.queued i e) c h := by
  intro last closed
  exact (gone last closed).imp id (Or.imp (List.mem_append_left _) id)

/-- Queueing the first event a closed end still has to send keeps it on its way out. -/
theorem Gone.pushed {p : Peer} {c : ChannelId} {h : Handle} {e : StreamEvent}
    {todo : List StreamEvent} (rest : h.todo = e :: todo) (gone : Gone p c h) :
    Gone (p.queued h.stream.streamId e) c { h with todo := todo } := by
  intro last closed
  rcases gone last closed with here | queued | absent
  · rw [rest] at here
    rcases List.mem_cons.mp here with now | later
    · refine .inr (.inl (List.mem_append_right _ ?_))
      rw [← now]
      exact List.mem_cons_self
    · exact .inl later
  · exact .inr (.inl (List.mem_append_left _ queued))
  · exact .inr (.inr absent)

/-- What the application does with its streams keeps every closed end on its way out. -/
theorem Removed.moved {p p' : Peer} {act : Peer.Act} (m : Peer.Moved p act p')
    (below : ∀ c handle, p.handles.get c = some handle → c < p.actor.nextChannel)
    (left : p.actor.phase = .left → ∀ i, p.actor.streams.get i = none)
    (accept : ∀ s rest, p.accepts = s :: rest → s.state = .established)
    (reply : ∀ r s, p.replies.get r = some (.ok s) → s.state = .established)
    (h : Removed p) : Removed p' := by
  have young {q : Peer} {c : ChannelId} {s : LogicalStream} (new : s.state = .established) :
      Gone q c ⟨s, false, []⟩ := by
    intro last closed
    rw [show s.state = .closed from closed] at new
    cases new
  cases m with
  | command head hs | resume _ hs | cancel hs =>
      refine h.input below hs (Peer.advance_handles _ _ _ _) (Peer.advance_marks _ _ _ _) ?_
      intro i queued
      rw [Peer.advance_events]
      exact .inl queued
  | @event j e rest a es head hs =>
      refine h.input below hs (Peer.advance_handles _ _ _ _) (Peer.advance_marks _ _ _ _) ?_
      intro i queued
      rw [head] at queued
      rw [Peer.advance_events]
      rcases List.mem_cons.mp queued with now | later
      · cases now
        exact .inr rfl
      · exact .inl later
  | openStream | shutdown | openFails | dropReader => exact h
  | openReturns waits => exact insert_gone h (fun _ _ _ gone => gone) (young (reply _ _ waits))
  | acceptStream head => exact insert_gone h (fun _ _ _ gone => gone) (young (accept _ _ head))
  | split found =>
      have own := h _ _ found
      exact insert_gone h (fun _ _ _ gone => gone) own
  | submit found => exact fun c handle there => (h c handle there).queued _ _
  | offer found idle =>
      have own := h _ _ found
      refine insert_gone h (fun _ _ _ gone => gone) fun last closed => .inr ?_
      refine (own last closed).resolve_left ?_
      rw [idle]
      exact List.not_mem_nil
  | close found =>
      refine insert_gone h ?_ ?_
      · intro d handle other gone last
        simp only [other, if_false] at last
        exact gone last
      · exact fun _ closed => .inl (closeFrom_closed closed)
  | pushFails found rest exited =>
      refine insert_gone h (fun _ _ _ gone => gone) fun _ _ => .inr (.inr ?_)
      rw [left exited]
      exact fun there => (by cases there)
  | push found rest =>
      have own := (h _ _ found).pushed rest
      exact insert_gone h (fun _ _ _ gone => gone.queued _ _) own
  | @recv c handle f rest found waiting =>
      have own := h _ _ found
      obtain ⟨same, -, kept⟩ := Peer.afterRecv_stream handle f.header.flags
      refine insert_gone h ?_ ?_
      · intro d handle other gone last
        simp only [other, if_false] at last
        exact gone last
      · intro last closed
        simp only [if_true] at last
        rw [same, kept]
        -- a frame that marks its end is not a call of `close`
        rcases markRecv_cases f.header.flags with quiet | ⟨mark, one, other⟩
        · rw [quiet, List.append_nil] at last
          rw [afterRecv_quiet quiet] at closed
          exact own last closed
        · rw [one, List.getLast?_concat] at last
          exact absurd (Option.some.inj last) other
  | drop found => exact fun c handle there => h c handle (Table.get_of_get_remove there)

/-- Every mark goes back to a call of `close` or a frame received. -/
def Marked (p : Peer) : Prop :=
  ∀ c, ∀ m ∈ p.marks c, m = .called ∨ ∃ f ∈ p.received c, m ∈ markRecv f.header.flags

theorem Marked.moved {p p' : Peer} {act : Peer.Act} (m : Peer.Moved p act p') (h : Marked p) :
    Marked p' := by
  cases m with
  | command | event | resume | cancel =>
      intro c mark member
      rw [Peer.advance_marks] at member
      rw [Peer.advance_received]
      exact h c mark member
  | @close c handle found =>
      intro d mark member
      by_cases here : d = c
      · simp only [here, if_true, List.mem_append, List.mem_singleton] at member
        rcases member with old | new
        · exact here ▸ h c mark old
        · exact .inl new
      · simp only [here, if_false] at member
        exact h d mark member
  | @recv c handle f rest found =>
      intro d mark member
      by_cases here : d = c
      · simp only [here, if_true, List.mem_append] at member ⊢
        rcases member with old | new
        · rcases h c mark old with called | ⟨g, there, made⟩
          · exact .inl called
          · exact .inr ⟨g, .inl there, made⟩
        · exact .inr ⟨f, .inr List.mem_cons_self, new⟩
      · simp only [here, if_false] at member ⊢
        exact h d mark member
  | _ => exact h

structure Closing (p : Peer) : Prop where
  known : p.Known
  handed : Handed p
  born : Born p.actor p.effects
  state : StateOfMarks p
  removed : Removed p
  marked : Marked p

theorem closing_spawn (side : SessionSide) (sessionId : SessionId) :
    Closing (.spawn side sessionId) where
  known := Peer.known_spawn side sessionId
  handed := handed_spawn side sessionId
  born := born_spawn side sessionId
  state c h found := by cases found
  removed c h found := by cases found
  marked c m member := by cases member

theorem Closing.below {p : Peer} (h : Closing p) (c : ChannelId) (handle : Handle)
    (found : p.handles.get c = some handle) : c < p.actor.nextChannel := by
  obtain ⟨-, s, member, -, rfl⟩ := h.known.handles c handle found
  exact h.handed.minted.below s (List.mem_append_right _ member)

theorem Closing.reads {p : Peer} (h : Closing p) {f : Frame} {a : SessionActor} {es : List Effect}
    (hs : SessionActor.Step p.actor (.frame f) a es) : Closing (p.advance (.frame f) a es) where
  known := h.known.advance _ _ _
  handed := h.handed.advance hs
  born := born_step hs h.born
  state c handle found whole := by
    rw [Peer.advance_handles] at found
    rw [Peer.advance_marks]
    exact h.state c handle found whole
  removed := by
    refine h.removed.input h.below hs (Peer.advance_handles _ _ _ _) (Peer.advance_marks _ _ _ _) ?_
    intro i queued
    rw [Peer.advance_events]
    exact .inl queued
  marked := by
    intro c mark member
    rw [Peer.advance_marks] at member
    rw [Peer.advance_received]
    exact h.marked c mark member

theorem Closing.acts {p p' : Peer} {act : Peer.Act} (h : Closing p) (m : Peer.Moved p act p') :
    Closing p' := by
  have accept (s : LogicalStream) (rest : List LogicalStream) (head : p.accepts = s :: rest) :
      s.state = .established :=
    h.born.established s (h.known.accepts s (head ▸ List.mem_cons_self))
  have reply (r : ReplyId) (s : LogicalStream) (waits : p.replies.get r = some (.ok s)) :
      s.state = .established := h.born.established s (h.known.replies r s waits)
  refine ⟨h.known.moved m, h.handed.moved m, ?_, ?_, ?_, h.marked.moved m⟩
  · rcases Net.moved_account m with ⟨hactor, -, heffects, -⟩ | ⟨x, es, hs, -, heffects, -⟩
    · rw [hactor, heffects]
      exact h.born
    · rw [heffects]
      exact born_step hs h.born
  · refine moved_state m ?_ ?_ h.state
    · intro s rest head
      exact ⟨h.handed.unmarked (h.handed.accept_apart head), accept s rest head⟩
    · intro r s waits
      exact ⟨h.handed.unmarked (h.handed.reply_apart waits), reply r s waits⟩
  · exact h.removed.moved m h.below h.born.left accept reply

theorem OwnEvent.wire_flags {i : StreamId} {f : Frame} (h : OwnEvent i (.frame f)) :
    f.wire.header.flags = .EMPTY ∨ f.wire.header.flags = .closeRequest := by
  cases h with
  | bytes =>
      left
      change FrameFlags.fromBitsTruncate FrameFlags.EMPTY.bits = _
      decide
  | closeRequest =>
      right
      change FrameFlags.fromBitsTruncate FrameFlags.closeRequest.bits = _
      decide

section net
variable {L : Type} {K : Link L} {fits : Frame → Prop} {sound : L → Prop} {n : Net L}

/-- A frame that the application has received is data or a close request of the other side. -/
theorem received_plain (agree : Net.Agree K fits sound n) (flows : ∀ s, Flow (n.peer s))
    (s : SessionSide) {c : ChannelId} {f : Frame} (member : f ∈ (n.peer s).received c) :
    f.header.flags = .EMPTY ∨ f.header.flags = .closeRequest := by
  obtain ⟨t, told, rfl⟩ := (flows s).received.handed c (List.ne_nil_of_mem member)
  have put : f ∈ puts t.frameReceiver (n.peer s).effects := by
    rw [← (flows s).received.order]
    exact List.mem_append_left _ member
  have read := ((flows s).incoming.past t told).subset put
  have sent : f ∈ dataOn t.streamId ((writes (n.peer s.other).effects).map Frame.wire) :=
    ((agree.arrived_read s).filter _).subset read
  have submitted : f ∈ (framesOn t.streamId (n.peer s.other).submitted).map Frame.wire := by
    rw [(flows s.other).outgoing.conserved, List.append_assoc]
    exact List.mem_append_left _ sent
  obtain ⟨g, there, rfl⟩ := List.mem_map.mp submitted
  obtain ⟨⟨j, e⟩, event, found⟩ := List.mem_filterMap.mp there
  cases e with
  | frame g' =>
      simp only [Option.ite_none_right_eq_some, Option.some.injEq] at found
      obtain ⟨-, rfl⟩ := found
      exact ((flows s.other).own.submitted _ event).wire_flags
  | closed k => cases found
  | error => cases found

theorem closing_run {sessionId : SessionSide → SessionId} {labels : List Net.Label}
    (reached : run (Net.step K) (Net.spawn K sessionId) labels = some n) (s : SessionSide) :
    Closing (n.peer s) :=
  Net.peer_run s Closing (fun _ _ _ _ hs h => h.reads hs) (fun _ _ _ moved h => h.acts moved)
    reached (closing_spawn s (sessionId s))

end net

/-- Nothing but closing has happened to the end of stream `i` on channel `c`: no frame that opens,
resets or answers was received on it, and its session's map has the identifier for no other
channel. -/
structure Undisturbed (i : StreamId) (p : Peer) (c : ChannelId) : Prop where
  plain : ∀ m ∈ p.marks c, m.Plain
  alone : ∀ d, p.actor.streams.get i = some d → d = c

/-- Without a second stream of the same identifier and without frames of the applications' own
making, every end is undisturbed. -/
theorem undisturbed_of_apart {L : Type} {K : Link L} {sound : L → Prop} {n : Net L}
    {sessionId : SessionSide → SessionId} {labels : List Net.Label}
    (fifo : K.Fifo (fun f => f.payload.length < 2 ^ 32) sound) (own : ∀ l ∈ labels, l.Own)
    (reached : run (Net.step K) (Net.spawn K sessionId) labels = some n) (apart : Net.Apart n)
    (s : SessionSide) {c : ChannelId} {h : Handle} (held : (n.peer s).handles.get c = some h) :
    Undisturbed h.stream.streamId (n.peer s) c := by
  obtain ⟨agree, flows⟩ := flow_run fifo own reached apart
  constructor
  · intro mark member
    rcases (closing_run reached s).marked c mark member with called | ⟨f, received, made⟩
    · exact .inl called
    · have quiet : markRecv .EMPTY = [] := by decide
      have asked : markRecv .closeRequest = [.requested] := by decide
      rcases received_plain agree flows s received with plain | plain
      · rw [plain, quiet] at made
        cases made
      · rw [plain, asked] at made
        exact .inr (List.mem_singleton.mp made)
  · intro d live
    obtain ⟨-, t, told, same, there⟩ := (flows s).known.handles c h held
    rw [← same] at live
    exact ((flows s).incoming.entry t told d live).trans there

/-- The actor once it has handled these events. -/
def SessionActor.handlePending (a : SessionActor) (events : List StreamEvent) : SessionActor :=
  events.foldl (fun a e => (a.handleStreamEvent e).1) a

theorem handlePending_removes {a : SessionActor} {events : List StreamEvent} {i : StreamId}
    (h : a.streams.get i = none ∨ .closed i ∈ events) :
    (a.handlePending events).streams.get i = none := by
  induction events generalizing a with
  | nil =>
      rcases h with absent | closed
      · exact absent
      · cases closed
  | cons e events ih =>
      refine ih (a := (a.handleStreamEvent e).1) ?_
      rcases h with absent | closed
      · left
        cases e with
        | frame f => exact absent
        | closed j =>
            change (a.streams.remove j).get i = none
            rw [Table.get_remove]
            split
            · rfl
            · exact absent
        | error => exact absent
      · rcases List.mem_cons.mp closed with rfl | later
        · exact .inl (Table.get_remove_self _ _)
        · exact .inr later

/-- One end of stream `i` is `Closed`, and once the events in its session's channel and
those its call of `close` has still to send are handled, the stream is out of the map. -/
def EndClosed (i : StreamId) (p : Peer) (h : Handle) : Prop :=
  h.stream.state = .closed ∧
    (p.actor.handlePending (p.events.map Prod.snd ++ h.todo)).streams.get i = none

/-- Two unsplit ends of one stream that have both been asked to close, whichever side opened it,
are closed for good exactly if at each end the last call of `close` came after the last close
request, unless an end was disturbed; and that takes a second stream of the same identifier or a
frame of the application's own making. -/
theorem close_agreement_iff (sessionId : SessionSide → SessionId) (labels : List Net.Label)
    (n : Net BytePipe)
    (reached : run (Net.step byteLink) (Net.spawn byteLink sessionId) labels = some n)
    (i : StreamId) (channel : SessionSide → ChannelId) (handle : SessionSide → Handle)
    (held : ∀ s, (n.peer s).handles.get (channel s) = some (handle s))
    (one : ∀ s, (handle s).stream.streamId = i) (whole : ∀ s, (handle s).split = false)
    (requested : ∀ s, .requested ∈ (n.peer s).marks (channel s)) :
    ((∀ s, Undisturbed i (n.peer s) (channel s)) →
      ((∀ s, EndClosed i (n.peer s) (handle s)) ↔
        ∀ s, ((n.peer s).marks (channel s)).getLast? = some .called)) ∧
    ((∀ l ∈ labels, l.Own) → Net.Apart n → ∀ s, Undisturbed i (n.peer s) (channel s)) := by
  constructor
  · intro undisturbed
    have closing := closing_run reached
    have state (s : SessionSide) : (handle s).stream.state = .closed ↔
        ((n.peer s).marks (channel s)).getLast? = some .called := by
      rw [(closing s).state _ _ (held s) (whole s)]
      exact stateAfter_closed_iff (requested s) (undisturbed s).plain
    constructor
    · intro ended s
      exact (state s).mp (ended s).1
    · intro last s
      have closed := (state s).mpr (last s)
      refine ⟨closed, handlePending_removes ?_⟩
      have gone := (closing s).removed _ _ (held s) (last s) closed
      rw [one s] at gone
      rcases gone with todo | queued | elsewhere
      · exact .inr (List.mem_append_right _ todo)
      · exact .inr (List.mem_append_left _ (List.mem_map_of_mem queued))
      · left
        by_contra live
        obtain ⟨d, there⟩ := Option.ne_none_iff_exists'.mp live
        exact elsewhere ((undisturbed s).alone d there ▸ there)
  · intro own apart s
    rw [← one s]
    exact undisturbed_of_apart byteLink_fifo own reached apart s (held s)

/-- One side calls `close` on a stream, the request is written and the other side receives it. -/
def closeOn (c : ChannelId) (s : SessionSide) (pushes : List Net.Label) : List Net.Label :=
  [.act s (.close c), .act s (.push c)] ++ pushes ++ [.act s .event, .act s .resume] ++
    handOver s 3 ++ [.poll s.other, .act s.other .resume, .act s.other (.recv c)]

theorem closeOn_own (c : ChannelId) (s : SessionSide) {pushes : List Net.Label}
    (own : ∀ l ∈ pushes, l.Own) : ∀ l ∈ closeOn c s pushes, l.Own := by
  simp only [closeOn, List.forall_mem_append]
  refine ⟨⟨⟨⟨?_, own⟩, ?_⟩, handOver_own s 3⟩, ?_⟩
  · simp [Net.Label.Own]
  · simp [Net.Label.Own]
  · simp [Net.Label.Own]

/-- What the two applications hold on a channel of each session. -/
def endsOn (c : ChannelId) (n : Net BytePipe) : List (Option Handle × List CloseMark) :=
  [((n.peer .client).handles.get c, (n.peer .client).marks c),
    ((n.peer .server).handles.get c, (n.peer .server).marks c)]

/-- Each side opens a stream. The server closes its own, the client closes in answer and the
server closes again. -/
def closeAgain : List Net.Label :=
  establish ++ establishFrom .server ++ closeOn 1 .server [] ++
    closeOn 1 .client [.act .client (.push 1)] ++
    [.act .client .event, .act .server (.close 1), .act .server (.push 1)]

theorem closeAgain_own : ∀ l ∈ closeAgain, l.Own := by
  simp only [closeAgain, List.forall_mem_append]
  refine ⟨⟨⟨⟨establish_own, establishFrom_own .server⟩, closeOn_own 1 .server ?_⟩,
    closeOn_own 1 .client ?_⟩, ?_⟩
  · exact fun l none_there => absurd none_there List.not_mem_nil
  · simp [Net.Label.Own]
  · simp [Net.Label.Own]

theorem close_agreement_iff_closed_again :
    ∃ n, run (Net.step byteLink) (Net.spawn byteLink fun _ => ⟨1⟩) closeAgain = some n ∧
      ∃ handle : SessionSide → Handle, (∀ s, (n.peer s).handles.get 1 = some (handle s)) ∧
        ∀ s, EndClosed ⟨2⟩ (n.peer s) (handle s) := by
  have runs : ((run (Net.step byteLink) (Net.spawn byteLink fun _ => ⟨1⟩) closeAgain).map fun n =>
      (endsOn 1 n, (n.peer .client).allocated, (n.peer .server).allocated)) =
      some ([(some ⟨⟨⟨1⟩, ⟨2⟩, .closed, 1⟩, false, []⟩, [.requested, .called]),
        (some ⟨⟨⟨1⟩, ⟨2⟩, .closed, 1⟩, false, [.closed ⟨2⟩]⟩, [.called, .requested, .called])],
        [⟨1⟩], [⟨2⟩]) := by
    decide +kernel
  obtain ⟨n, reached, values⟩ := Option.map_eq_some_iff.mp runs
  simp only [endsOn, List.cons.injEq, Prod.mk.injEq, and_true] at values
  obtain ⟨⟨⟨client, clientMarks⟩, server, serverMarks⟩, clientIds, serverIds⟩ := values
  let handle (s : SessionSide) : Handle :=
    ⟨⟨⟨1⟩, ⟨2⟩, .closed, 1⟩, false, if s = .server then [.closed ⟨2⟩] else []⟩
  have held (s : SessionSide) : (n.peer s).handles.get 1 = some (handle s) := by
    cases s with
    | client => exact client
    | server => exact server
  have apart : Net.Apart n := by
    constructor
    · intro s
      cases s <;> simp [clientIds, serverIds]
    · intro s i
      cases s <;> simp +contextual [SessionSide.other, clientIds, serverIds]
  have agreement := close_agreement_iff (fun _ => ⟨1⟩) closeAgain n reached ⟨2⟩ (fun _ => 1) handle
    held (fun s => (by cases s <;> rfl)) (fun s => (by cases s <;> rfl))
    (fun s => (by cases s <;> simp [clientMarks, serverMarks]))
  refine ⟨n, reached, handle, held, (agreement.1 (agreement.2 closeAgain_own apart)).mpr ?_⟩
  intro s
  cases s with
  | client => simp [clientMarks]
  | server => simp [serverMarks]

/-- The client closes, the server closes in answer. -/
def closeBoth : List Net.Label :=
  establish ++ closeOn 0 .client [] ++ closeOn 0 .server [.act .server (.push 0)] ++
    [.act .server .event]

/-- The client closed first, so the server's request overwrites `LocalClosing`: both ends
have closed and received the other's request, nothing is pending, and the client's end is
`RemoteClosing` with its stream still in the map. -/
theorem first_to_close_stays_open :
    ∃ n h, run (Net.step byteLink) (Net.spawn byteLink fun _ => ⟨1⟩) closeBoth = some n ∧
      (n.peer .client).handles.get 0 = some h ∧ h.split = false ∧ h.stream.streamId = ⟨1⟩ ∧
      (n.peer .client).marks 0 = [.called, .requested] ∧
      (n.peer .server).marks 0 = [.requested, .called] ∧
      h.stream.state = .remoteClosing ∧ h.todo = [] ∧ (n.peer .client).events = [] ∧
      (n.peer .client).actor.streams.get ⟨1⟩ = some 0 ∧ ¬ EndClosed ⟨1⟩ (n.peer .client) h := by
  have runs : ((run (Net.step byteLink) (Net.spawn byteLink fun _ => ⟨1⟩) closeBoth).map fun n =>
      (endsOn 0 n, (n.peer .client).events, (n.peer .client).actor.streams.get ⟨1⟩)) =
      some ([(some ⟨⟨⟨1⟩, ⟨1⟩, .remoteClosing, 0⟩, false, []⟩, [.called, .requested]),
        (some ⟨⟨⟨1⟩, ⟨1⟩, .closed, 0⟩, false, []⟩, [.requested, .called])], [], some 0) := by
    decide +kernel
  obtain ⟨n, reached, values⟩ := Option.map_eq_some_iff.mp runs
  simp only [endsOn, List.cons.injEq, Prod.mk.injEq, and_true] at values
  obtain ⟨⟨⟨client, clientMarks⟩, server, serverMarks⟩, events, live⟩ := values
  refine ⟨n, _, reached, client, rfl, rfl, clientMarks, serverMarks, rfl, rfl, events, live, ?_⟩
  intro ended
  cases ended.1

end Foctet.Mux
