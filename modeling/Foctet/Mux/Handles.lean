import Foctet.Mux.Net

/-! Where a party's handles come from. Every stream in the hands of an application
was announced or resolved by its actor, and so was the stream behind every event. -/
namespace Foctet.Mux
open Foctet.Core Foctet.Lib
open SessionActor (Input accepted resolved acceptedIds resolvedIds)

/-- The streams an actor has made known to its application. -/
def known (effects : List Effect) : List LogicalStream := accepted effects ++ resolved effects

theorem mem_known_append {s : LogicalStream} {es fs : List Effect} :
    s ∈ known (es ++ fs) ↔ s ∈ known es ∨ s ∈ known fs := by
  simp only [known, SessionActor.accepted_append, SessionActor.resolved_append, List.mem_append]
  tauto

theorem known_append {effects : List Effect} {s : LogicalStream} (es : List Effect)
    (h : s ∈ known effects) : s ∈ known (effects ++ es) := mem_known_append.mpr (.inl h)

theorem known_new {effects es : List Effect} {s : LogicalStream}
    (h : s ∈ accepted es ∨ s ∈ resolved es) : s ∈ known (effects ++ es) :=
  mem_known_append.mpr (.inr (List.mem_append.mpr h))

theorem known_perm (es fs : List Effect) : (known (es ++ fs)).Perm (known fs ++ known es) := by
  rw [List.perm_iff_count]
  intro s
  simp only [known, SessionActor.accepted_append, SessionActor.resolved_append, List.count_append]
  omega

/-- The channels of some streams. -/
def channels (streams : List LogicalStream) : List ChannelId :=
  streams.map LogicalStream.frameReceiver

namespace Peer

theorem foldl_apply_accepts (es : List Effect) (p : Peer) :
    (es.foldl apply p).accepts = p.accepts ++ accepted es := by
  induction es generalizing p with
  | nil => exact (List.append_nil _).symm
  | cons e es ih =>
      have now : (apply p e).accepts = p.accepts ++ accepted [e] := by
        cases e with
        | accept s => rfl
        | _ => exact (List.append_nil _).symm
      have joined : accepted (e :: es) = accepted [e] ++ accepted es := by
        rw [← SessionActor.accepted_append, List.singleton_append]
      rw [List.foldl_cons, ih, now, joined, List.append_assoc]

/-- A good reply was there before, or the actor has just given it. -/
theorem foldl_apply_replies (es : List Effect) (p : Peer) {reply : ReplyId} {s : LogicalStream}
    (h : (es.foldl apply p).replies.get reply = some (.ok s)) :
    p.replies.get reply = some (.ok s) ∨ s ∈ resolved es := by
  induction es generalizing p with
  | nil => exact .inl h
  | cons e es ih =>
      have joined : resolved (e :: es) = resolved [e] ++ resolved es := by
        rw [← SessionActor.resolved_append, List.singleton_append]
      rw [joined]
      rcases ih (apply p e) h with before | later
      · cases e with
        | resolve r result =>
            simp only [apply, Table.get_insert] at before
            split at before
            · cases before
              exact .inr (List.mem_append_left _ List.mem_cons_self)
            · exact .inl before
        | _ => exact .inl before
      · exact .inr (List.mem_append_right _ later)

/-- Every stream the application can reach, and every event, goes back to a known stream. -/
structure Known (p : Peer) : Prop where
  accepts : ∀ s ∈ p.accepts, s ∈ known p.effects
  replies : ∀ reply s, p.replies.get reply = some (.ok s) → s ∈ known p.effects
  handles : ∀ c h, p.handles.get c = some h → h.stream.frameReceiver = c ∧
    ∃ s ∈ known p.effects, s.streamId = h.stream.streamId ∧ s.frameReceiver = c
  events : ∀ ie ∈ p.events, ∃ s ∈ known p.effects, s.streamId = ie.1

theorem known_spawn (side : SessionSide) (sessionId : SessionId) : Known (spawn side sessionId) where
  accepts s h := by cases h
  replies reply s h := by cases h
  handles c h found := by cases found
  events ie h := by cases h

theorem Known.advance {p : Peer} (h : Known p) (x : Input) (a : SessionActor) (es : List Effect) :
    Known (p.advance x a es) where
  accepts s hs := by
    change s ∈ (es.foldl apply p).accepts at hs
    rw [foldl_apply_accepts] at hs
    rcases List.mem_append.mp hs with hs | hs
    · exact known_append es (h.accepts s hs)
    · exact known_new (.inl hs)
  replies reply s hr := by
    rcases foldl_apply_replies es p hr with hr | hr
    · exact known_append es (h.replies reply s hr)
    · exact known_new (.inr hr)
  handles c handle found := by
    rw [advance_handles] at found
    obtain ⟨own, s, hs, same⟩ := h.handles c handle found
    exact ⟨own, s, known_append es hs, same⟩
  events ie hie := by
    rw [advance_events] at hie
    obtain ⟨s, hs, same⟩ := h.events ie hie
    exact ⟨s, known_append es hs, same⟩

/-- A new handle for a known stream, or an old one whose stream kept its identity. -/
theorem Known.insert {p : Peer} (h : Known p) {c : ChannelId} {new : Handle}
    (own : new.stream.frameReceiver = c)
    (backed : ∃ s ∈ known p.effects, s.streamId = new.stream.streamId ∧ s.frameReceiver = c) :
    ∀ d handle, (p.handles.insert c new).get d = some handle →
      handle.stream.frameReceiver = d ∧
        ∃ s ∈ known p.effects, s.streamId = handle.stream.streamId ∧ s.frameReceiver = d := by
  refine Table.forall_insert ⟨own, backed⟩ ?_
  intro d handle _ found
  exact h.handles d handle found

theorem Known.queued {p : Peer} (h : Known p) {i : StreamId} (e : StreamEvent)
    (backed : ∃ s ∈ known p.effects, s.streamId = i) :
    ∀ ie ∈ p.events ++ [(i, e)], ∃ s ∈ known p.effects, s.streamId = ie.1 := by
  intro ie hie
  rcases List.mem_append.mp hie with hie | hie
  · exact h.events ie hie
  · rw [List.mem_singleton.mp hie]
    exact backed

theorem Known.moved {p p' : Peer} {act : Act} (m : Moved p act p') (h : Known p) : Known p' := by
  cases m with
  | @command cmd rest a es hc hs =>
      have popped : Known { p with commands := rest, allocated := p.noteAllocated cmd } :=
        ⟨h.accepts, h.replies, h.handles, h.events⟩
      exact popped.advance _ _ _
  | @event i e rest a es he hs =>
      have popped : Known { p with events := rest, sent := p.noteSent i e } :=
        ⟨h.accepts, h.replies, h.handles,
          fun ie hie => h.events ie (he ▸ List.mem_cons_of_mem _ hie)⟩
      exact popped.advance _ _ _
  | resume hok hs => exact h.advance _ _ _
  | cancel hs => exact h.advance _ _ _
  | openStream | shutdown => exact ⟨h.accepts, h.replies, h.handles, h.events⟩
  | openFails hr =>
      exact ⟨h.accepts, fun r s hrs => h.replies r s (Table.get_of_get_remove hrs), h.handles,
        h.events⟩
  | @openReturns reply s hr =>
      exact ⟨h.accepts, fun r s hrs => h.replies r s (Table.get_of_get_remove hrs),
        h.insert rfl ⟨s, h.replies reply s hr, rfl, rfl⟩, h.events⟩
  | @acceptStream s rest ha =>
      have first : s ∈ p.accepts := ha ▸ List.mem_cons_self
      exact ⟨fun t ht => h.accepts t (ha ▸ List.mem_cons_of_mem _ ht), h.replies,
        h.insert rfl ⟨s, h.accepts s first, rfl, rfl⟩, h.events⟩
  | split found idle =>
      obtain ⟨own, backed⟩ := h.handles _ _ found
      exact ⟨h.accepts, h.replies, h.insert own backed, h.events⟩
  | submit found idle =>
      obtain ⟨-, s, hs, same, -⟩ := h.handles _ _ found
      exact ⟨h.accepts, h.replies, h.handles, h.queued _ ⟨s, hs, same⟩⟩
  | offer found idle | close found idle =>
      obtain ⟨own, backed⟩ := h.handles _ _ found
      exact ⟨h.accepts, h.replies, h.insert own backed, h.events⟩
  | pushFails found rest left =>
      obtain ⟨own, backed⟩ := h.handles _ _ found
      exact ⟨h.accepts, h.replies, h.insert own backed, h.events⟩
  | push found rest =>
      obtain ⟨own, s, hs, same, there⟩ := h.handles _ _ found
      exact ⟨h.accepts, h.replies, h.insert own ⟨s, hs, same, there⟩, h.queued _ ⟨s, hs, same⟩⟩
  | @recv c handle f rest found =>
      obtain ⟨own, s, hs, same, there⟩ := h.handles _ _ found
      obtain ⟨hid, hchannel, -⟩ := afterRecv_stream handle f.header.flags
      exact ⟨h.accepts, h.replies,
        h.insert (hchannel.trans own) ⟨s, hs, same.trans hid.symm, there⟩, h.events⟩
  | drop found =>
      exact ⟨h.accepts, h.replies, fun c handle hc => h.handles c handle (Table.get_of_get_remove hc),
        h.events⟩
  | dropReader => exact ⟨h.accepts, h.replies, h.handles, h.events⟩

/-- The actor's history is a run of the actor. -/
def Traced (side : SessionSide) (sessionId : SessionId) (p : Peer) : Prop :=
  runOut SessionActor.step (.spawn side sessionId) p.inputs = some (p.actor, p.effects)

theorem traced_input {side : SessionSide} {sessionId : SessionId} {p p' : Peer} {x : Input}
    {es : List Effect} (h : Traced side sessionId p)
    (hs : p.actor.step x = some (p'.actor, es)) (inputs : p'.inputs = p.inputs ++ [x])
    (effects : p'.effects = p.effects ++ es) : Traced side sessionId p' := by
  unfold Traced
  rw [inputs, effects]
  refine runOut_append_some.mpr ⟨p.actor, p.effects, es, h, ?_, rfl⟩
  exact runOut_cons_some.mpr ⟨p'.actor, es, [], hs, rfl, (List.append_nil es).symm⟩

/-- A stream the actor announces or resolves is in its map at that moment. -/
def WasRegistered (side : SessionSide) (sessionId : SessionId) (p : Peer) (i : StreamId) : Prop :=
  ∃ pre post a es c, p.inputs = pre ++ post ∧
    runOut SessionActor.step (.spawn side sessionId) pre = some (a, es) ∧
    a.streams.get i = some c

end Peer

namespace SessionActor

/-- A stream is in the map when it is made known. -/
theorem step_known {a a' : SessionActor} {x : Input} {es : List Effect} (h : Step a x a' es)
    (w : Wired a) {s : LogicalStream} (member : s ∈ known es) :
    a'.streams.get s.streamId = some s.frameReceiver := by
  cases h with
  | @announced stream hphase =>
      rw [List.mem_singleton.mp member]
      exact w.announce stream hphase
  | openResponse =>
      rw [List.mem_singleton.mp member]
      exact Table.get_insert_self _ _ _
  | _ => cases member

/-- The stream that the actor is about to announce. -/
def upcoming (a : SessionActor) : List LogicalStream :=
  match a.phase with
  | .awaiting (.announce s) => [s]
  | _ => []

/-- Each stream that is known, or about to be, was given a channel of its own. -/
structure Minted (a : SessionActor) (effects : List Effect) : Prop where
  once : (channels (a.upcoming ++ known effects)).Nodup
  below : ∀ s ∈ a.upcoming ++ known effects, s.frameReceiver < a.nextChannel

theorem minted_spawn (side : SessionSide) (sessionId : SessionId) :
    Minted (spawn side sessionId) [] where
  once := List.nodup_nil
  below s h := by cases h

/-- What a step makes known was about to be, or has the next channel. -/
theorem step_mints {a a' : SessionActor} {x : Input} {es : List Effect} (h : Step a x a' es) :
    List.Sublist (a'.upcoming ++ known es) a.upcoming ∧ a'.nextChannel = a.nextChannel ∨
    ∃ s, a'.upcoming ++ known es = [s] ∧ s.frameReceiver = a.nextChannel ∧ a.upcoming = [] ∧
      a'.nextChannel = a.nextChannel + 1 := by
  have idle (top : a.phase = .select) : a.upcoming = [] := by
    simp only [upcoming, top]
  cases h with
  | openRequest top => exact .inr ⟨_, rfl, rfl, idle top, rfl⟩
  | @openResponse f _ top =>
      refine .inr ⟨⟨a.sessionId, f.header.streamId, .established, a.nextChannel⟩, ?_, rfl,
        idle top, rfl⟩
      simp only [upcoming, top]
      rfl
  | announced top =>
      refine .inl ⟨?_, rfl⟩
      simp only [upcoming, top]
      exact List.Sublist.refl _
  | eof top | openReset top | unknown top | shutdownCommand top | eventClosed top
    | eventError top =>
      refine .inl ⟨?_, rfl⟩
      simp only [upcoming, top]
      exact List.nil_sublist _
  | _ => exact .inl ⟨List.nil_sublist _, rfl⟩

theorem minted_step {a a' : SessionActor} {x : Input} {es effects : List Effect}
    (hs : Step a x a' es) (h : Minted a effects) : Minted a' (effects ++ es) := by
  have whole : (a'.upcoming ++ known (effects ++ es)).Perm
      ((a'.upcoming ++ known es) ++ known effects) := by
    rw [List.append_assoc]
    exact (known_perm effects es).append_left _
  rcases step_mints hs with ⟨fewer, same⟩ | ⟨s, one, new, nothing, grown⟩
  · have sub := fewer.append_right (known effects)
    refine ⟨(whole.map _).nodup_iff.mpr (h.once.sublist (sub.map _)), ?_⟩
    intro t member
    rw [same]
    exact h.below t (sub.subset (whole.subset member))
  · rw [one, List.singleton_append] at whole
    have old : ∀ t ∈ known effects, t.frameReceiver < a.nextChannel :=
      fun t member => h.below t (List.mem_append_right _ member)
    have rest := h.once
    rw [nothing, List.nil_append] at rest
    constructor
    · refine (whole.map _).nodup_iff.mpr (List.nodup_cons.mpr ⟨?_, rest⟩)
      intro taken
      obtain ⟨t, member, same⟩ := List.mem_map.mp taken
      exact Nat.ne_of_lt (old t member) (same.trans new)
    · intro t member
      rw [grown]
      rcases List.mem_cons.mp (whole.subset member) with rfl | earlier
      · rw [new]
        exact Nat.lt_succ_self _
      · exact Nat.lt_succ_of_lt (old t earlier)

section minted
variable {a : SessionActor} {effects : List Effect}

theorem Minted.known_nodup (h : Minted a effects) : (channels (known effects)).Nodup :=
  h.once.sublist ((List.sublist_append_right _ _).map _)

theorem Minted.resolved_nodup (h : Minted a effects) : (channels (resolved effects)).Nodup :=
  h.known_nodup.sublist ((List.sublist_append_right _ _).map _)

end minted

/-- Somewhere along its run the actor had each known stream in its map. -/
theorem run_known {a b : SessionActor} {inputs : List Input} {es : List Effect}
    (h : runOut step a inputs = some (b, es)) (w : Wired a) {s : LogicalStream}
    (member : s ∈ known es) :
    ∃ pre post m fs, inputs = pre ++ post ∧ runOut step a pre = some (m, fs) ∧
      m.streams.get s.streamId = some s.frameReceiver := by
  induction inputs generalizing a es with
  | nil =>
      cases h
      cases member
  | cons x inputs ih =>
      obtain ⟨a', e, rest, hstep, hrest, rfl⟩ := runOut_cons_some.mp h
      rcases mem_known_append.mp member with now | later
      · exact ⟨[x], inputs, a', e, rfl, runOut_cons_some.mpr ⟨a', e, [], hstep, rfl,
          (List.append_nil e).symm⟩, step_known (step_cases hstep) w now⟩
      · obtain ⟨pre, post, m, fs, rfl, hpre, live⟩ :=
          ih hrest (wired_step (step_cases hstep) w) later
        exact ⟨x :: pre, post, m, e ++ fs, rfl,
          runOut_cons_some.mpr ⟨a', e, fs, hstep, hpre, rfl⟩, live⟩

end SessionActor

namespace Peer

theorem Traced.registered {side : SessionSide} {sessionId : SessionId} {p : Peer}
    (h : Traced side sessionId p) {s : LogicalStream} (member : s ∈ known p.effects) :
    WasRegistered side sessionId p s.streamId := by
  obtain ⟨pre, post, a, es, split, hpre, live⟩ :=
    SessionActor.run_known h (SessionActor.wired_spawn side sessionId) member
  exact ⟨pre, post, a, es, s.frameReceiver, split, hpre, live⟩

theorem Traced.advance {side : SessionSide} {sessionId : SessionId} {p : Peer}
    (h : Traced side sessionId p) {x : Input} {a : SessionActor} {es : List Effect}
    (hs : SessionActor.Step p.actor x a es) : Traced side sessionId (p.advance x a es) :=
  traced_input h hs.step_eq rfl rfl

theorem Traced.moved {side : SessionSide} {sessionId : SessionId} {p p' : Peer} {act : Act}
    (m : Moved p act p') (h : Traced side sessionId p) : Traced side sessionId p' := by
  rcases Net.moved_account m with ⟨hactor, hinputs, heffects, -⟩ | ⟨x, es, hs, hinputs, heffects, -⟩
  · unfold Traced
    rw [hactor, hinputs, heffects]
    exact h
  · exact traced_input h hs.step_eq hinputs heffects

/-- Each event frame taken up is where its note says, or about to be written there;
and its stream's open response was written before it, unless the stream is one this
side asked for itself. -/
structure Placed (p : Peer) : Prop where
  answers : ∀ i ∈ acceptedIds p.effects, openResponseFrame i ∈ writes p.effects ∨
    p.actor.phase = .awaiting (.respond (openResponseFrame i))
  written : ∀ m ∈ p.sent, (writes p.effects)[m.place]? = some m.frame ∨
    m.place = (writes p.effects).length ∧ p.actor.phase = .awaiting (.write m.frame)
  answered : ∀ m ∈ p.sent, m.stream ∈ resolvedIds p.effects ∨
    openResponseFrame m.stream ∈ (writes p.effects).take m.place

theorem placed_spawn (side : SessionSide) (sessionId : SessionId) : Placed (spawn side sessionId) where
  answers i h := by cases h
  written m h := by cases h
  answered m h := by cases h

theorem Placed.place_le {p : Peer} (h : Placed p) {m : Sent} (member : m ∈ p.sent) :
    m.place ≤ (writes p.effects).length := by
  rcases h.written m member with there | ⟨next, -⟩
  · obtain ⟨within, -⟩ := List.getElem?_eq_some_iff.mp there
    exact Nat.le_of_lt within
  · exact Nat.le_of_eq next

/-- Writing more moves nothing that was written. -/
theorem Placed.answered_append {p : Peer} (h : Placed p) (es : List Effect) :
    ∀ m ∈ p.sent, m.stream ∈ resolvedIds (p.effects ++ es) ∨
      openResponseFrame m.stream ∈ (writes (p.effects ++ es)).take m.place := by
  intro m member
  rw [SessionActor.resolvedIds_append, writes_append,
    List.take_append_of_le_length (h.place_le member)]
  exact (h.answered m member).imp (List.mem_append_left _) id

/-- What one step of the actor does to an answer that is due. -/
theorem step_answers {a a' : SessionActor} {x : Input} {es : List Effect}
    (h : SessionActor.Step a x a' es)
    (smooth : x = .resume false → ∃ i c f, a.phase = .awaiting (.forward i c f)) :
    (∀ f, a.phase = .awaiting (.respond f) → f ∈ writes es) ∧
      ∀ i ∈ acceptedIds es, a'.phase = .awaiting (.respond (openResponseFrame i)) := by
  have busy {w : Await} (hphase : a.phase = .awaiting w) (failed : x = .resume false)
      (other : ∀ i c f, w ≠ .forward i c f) : False := by
    obtain ⟨i, c, f, hforward⟩ := smooth failed
    rw [hphase] at hforward
    cases hforward
    exact other i c f rfl
  cases h with
  | responded hphase =>
      refine ⟨?_, fun i hi => (by cases hi)⟩
      intro f due
      rw [hphase] at due
      cases due
      exact List.mem_cons_self
  | announced hphase =>
      refine ⟨fun f due => (by rw [hphase] at due; cases due), ?_⟩
      intro i hi
      rw [List.mem_singleton.mp hi]
  | respondFailed hphase => exact (busy hphase rfl (fun i c f hw => by cases hw)).elim
  | announceFailed hphase => exact (busy hphase rfl (fun i c f hw => by cases hw)).elim
  | cancelled top | readError top | eof top | forward top | openRequest top | openResponse top
    | openReset top | unknown top | openStream top | shutdownCommand top | eventFrame top
    | eventClosed top | eventError top | forwarded top | forwardFailed top | requested top
    | requestFailed top | written top | writeFailed top =>
      exact ⟨fun f due => (by rw [top] at due; cases due), fun i hi => (by cases hi)⟩

/-- What one step of the actor does to a frame it set out to write. -/
theorem step_writes {a a' : SessionActor} {x : Input} {es : List Effect}
    (h : SessionActor.Step a x a' es)
    (smooth : x = .resume false → ∃ i c f, a.phase = .awaiting (.forward i c f)) {f : Frame}
    (due : a.phase = .awaiting (.write f)) : writes es = [f] := by
  cases h with
  | written hphase =>
      rw [hphase] at due
      cases due
      rfl
  | writeFailed hphase =>
      obtain ⟨i, c, g, hforward⟩ := smooth rfl
      rw [hphase] at hforward
      cases hforward
  | cancelled top | readError top | eof top | forward top | openRequest top | openResponse top
    | openReset top | unknown top | openStream top | shutdownCommand top | eventFrame top
    | eventClosed top | eventError top | forwarded top | forwardFailed top | requested top
    | requestFailed top | announced top | announceFailed top | responded top | respondFailed top =>
      rw [top] at due
      cases due

/-- One input, with the notes as they were. -/
theorem Placed.input {p p' : Peer} (h : Placed p) {x : Input} {es : List Effect}
    (hs : SessionActor.Step p.actor x p'.actor es) (effects : p'.effects = p.effects ++ es)
    (sent : p'.sent = p.sent)
    (smooth : x = .resume false → ∃ i c f, p.actor.phase = .awaiting (.forward i c f)) :
    Placed p' := by
  obtain ⟨due, begun⟩ := step_answers hs smooth
  refine ⟨?_, ?_, ?_⟩
  · intro i hi
    rw [effects, SessionActor.acceptedIds_append] at hi
    rw [effects, writes_append]
    rcases List.mem_append.mp hi with old | new
    · rcases h.answers i old with done | waiting
      · exact .inl (List.mem_append_left _ done)
      · exact .inl (List.mem_append_right _ (due _ waiting))
    · exact .inr (begun i new)
  · intro m member
    rw [sent] at member
    rw [effects, writes_append]
    left
    rcases h.written m member with there | ⟨next, waiting⟩
    · obtain ⟨within, -⟩ := List.getElem?_eq_some_iff.mp there
      rw [List.getElem?_append_left within]
      exact there
    · rw [next, step_writes hs smooth waiting, List.getElem?_append_right (Nat.le_refl _),
        Nat.sub_self]
      rfl
  · rw [sent, effects]
    exact h.answered_append es

/-- An event is taken up: its frame goes behind everything written, which by then
includes the open response of its stream. -/
theorem Placed.event {p : Peer} (h : Placed p) (known : Known p) {i : StreamId} {e : StreamEvent}
    {rest : List (StreamId × StreamEvent)} {a : SessionActor} {es : List Effect}
    (head : p.events = (i, e) :: rest) (hs : SessionActor.Step p.actor (.event e) a es) :
    Placed ({ p with events := rest, sent := p.noteSent i e }.advance (.event e) a es) := by
  cases hs with
  | @eventFrame f top =>
      have backed : i ∈ resolvedIds p.effects ∨ openResponseFrame i ∈ writes p.effects := by
        obtain ⟨s, member, rfl⟩ := known.events (i, .frame f) (head ▸ List.mem_cons_self)
        rcases List.mem_append.mp member with accepted | resolved
        · rcases h.answers _ (List.mem_map_of_mem accepted) with done | waiting
          · exact .inr done
          · rw [top] at waiting
            cases waiting
        · exact .inl (List.mem_map_of_mem resolved)
      have split {m : Sent} (member : m ∈ p.sent ++ [⟨i, (writes p.effects).length, f⟩]) :
          m ∈ p.sent ∨ m = ⟨i, (writes p.effects).length, f⟩ :=
        (List.mem_append.mp member).imp id List.mem_singleton.mp
      refine ⟨?_, ?_, ?_⟩
      · intro j hj
        rw [advance_effects, List.append_nil] at hj ⊢
        rcases h.answers j hj with done | waiting
        · exact .inl done
        · rw [top] at waiting
          cases waiting
      · intro m member
        rw [advance_sent] at member
        rw [advance_effects, List.append_nil]
        rcases split member with old | rfl
        · rcases h.written m old with there | ⟨-, waiting⟩
          · exact .inl there
          · rw [top] at waiting
            cases waiting
        · exact .inr ⟨rfl, rfl⟩
      · intro m member
        rw [advance_sent] at member
        rw [advance_effects, List.append_nil]
        rcases split member with old | rfl
        · exact h.answered m old
        · rw [List.take_length]
          exact backed
  | eventClosed top =>
      refine Placed.input (p := p) h (x := .event (.closed _)) (.eventClosed top) rfl ?_
        (fun hr => (by cases hr))
      exact advance_sent _ _ _ _
  | eventError top =>
      refine Placed.input (p := p) h (x := .event .error) (.eventError top) rfl ?_
        (fun hr => (by cases hr))
      exact advance_sent _ _ _ _

theorem Placed.moved {p p' : Peer} {act : Act} (m : Moved p act p') (known : Known p)
    (h : Placed p) : Placed p' := by
  have account := Net.moved_account m
  cases m with
  | event head hs => exact h.event known head hs
  | command | resume | cancel =>
      rcases account with ⟨-, same, -, -⟩ | ⟨x, es, hs, -, heffects, -, -, -, smooth⟩
      · simp at same
      · exact h.input hs heffects (advance_sent _ _ _ _) smooth
  | _ => exact ⟨h.answers, h.written, h.answered⟩

/-- Each reply is given once and taken once. -/
structure Claimed (p : Peer) : Prop where
  waiting : ∀ reply s, p.replies.get reply = some (.ok s) →
    s ∈ resolved p.effects ∧ s.frameReceiver ∉ channels p.returned
  distinct : ∀ r r' s s', p.replies.get r = some (.ok s) → p.replies.get r' = some (.ok s') →
    s.frameReceiver = s'.frameReceiver → r = r'
  returned : ∀ s ∈ p.returned, s ∈ resolved p.effects
  nodup : (channels p.returned).Nodup

theorem claimed_spawn (side : SessionSide) (sessionId : SessionId) :
    Claimed (spawn side sessionId) where
  waiting reply s h := by cases h
  distinct r r' s s' h := by cases h
  returned s h := by cases h
  nodup := List.nodup_nil

/-- The replies are as before, or the one effect of the step has added one. -/
theorem step_replies {a a' : SessionActor} {x : Input} {es : List Effect}
    (h : SessionActor.Step a x a' es) (p : Peer) :
    resolved es = [] ∧ (∀ r s, (es.foldl apply p).replies.get r = some (.ok s) →
      p.replies.get r = some (.ok s)) ∨
    ∃ reply s, resolved es = [s] ∧
      (es.foldl apply p).replies = p.replies.insert reply (.ok s) := by
  cases h with
  | openResponse => exact .inr ⟨_, _, rfl, rfl⟩
  | openReset =>
      refine .inl ⟨rfl, ?_⟩
      intro r s hr
      simp only [List.foldl_cons, List.foldl_nil, apply, Table.get_insert] at hr
      split at hr
      · cases hr
      · exact hr
  | _ => exact .inl ⟨rfl, fun r s hr => hr⟩

theorem Claimed.input {p : Peer} (h : Claimed p) {x : Input} {a : SessionActor} {es : List Effect}
    (hs : SessionActor.Step p.actor x a es) (once : (channels (resolved (p.effects ++ es))).Nodup) :
    Claimed (p.advance x a es) := by
  have grows {s : LogicalStream} (hm : s ∈ resolved p.effects) : s ∈ resolved (p.effects ++ es) := by
    rw [SessionActor.resolved_append]
    exact List.mem_append_left _ hm
  have returned : ∀ t ∈ (p.advance x a es).returned, t ∈ resolved (p.advance x a es).effects := by
    intro t ht
    rw [advance_returned] at ht
    exact grows (h.returned t ht)
  have nodup : (channels (p.advance x a es).returned).Nodup := by
    rw [advance_returned]
    exact h.nodup
  rcases step_replies hs p with ⟨-, same⟩ | ⟨reply, s, new, replies⟩
  · refine ⟨?_, ?_, returned, nodup⟩
    · intro r t hr
      obtain ⟨there, free⟩ := h.waiting r t (same r t hr)
      rw [advance_returned, advance_effects]
      exact ⟨grows there, free⟩
    · intro r r' t t' hr hr'
      exact h.distinct r r' t t' (same r t hr) (same r' t' hr')
  · -- the new channel is not among those resolved before
    have fresh : s.frameReceiver ∉ channels (resolved p.effects) := by
      rw [SessionActor.resolved_append, new, channels, List.map_append] at once
      intro old
      exact (List.nodup_append.mp once).2.2 _ old _ List.mem_cons_self rfl
    have table (r : ReplyId) : (p.advance x a es).replies.get r =
        if r = reply then some (.ok s) else p.replies.get r := by
      change (es.foldl apply p).replies.get r = _
      rw [replies, Table.get_insert]
    refine ⟨?_, ?_, returned, nodup⟩
    · intro r t hr
      rw [table] at hr
      rw [advance_returned, advance_effects]
      split at hr
      · cases hr
        refine ⟨?_, ?_⟩
        · rw [SessionActor.resolved_append, new]
          exact List.mem_append_right _ List.mem_cons_self
        · intro taken
          obtain ⟨u, hu, same⟩ := List.mem_map.mp taken
          exact fresh (same ▸ List.mem_map_of_mem (h.returned u hu))
      · obtain ⟨there, free⟩ := h.waiting r t hr
        exact ⟨grows there, free⟩
    · intro r r' t t' hr hr' same
      rw [table] at hr hr'
      split at hr <;> split at hr'
      · rename_i e e'
        rw [e, e']
      · cases hr
        exact absurd (same ▸ List.mem_map_of_mem (h.waiting r' t' hr').1) fresh
      · cases hr'
        exact absurd (same ▸ List.mem_map_of_mem (h.waiting r t hr).1) fresh
      · exact h.distinct r r' t t' hr hr' same

theorem Claimed.moved {p p' : Peer} {act : Act} (m : Moved p act p')
    (once : (channels (resolved p'.effects)).Nodup) (h : Claimed p) : Claimed p' := by
  cases m with
  | @command cmd rest a es hc hs =>
      have popped : Claimed { p with commands := rest, allocated := p.noteAllocated cmd } :=
        ⟨h.waiting, h.distinct, h.returned, h.nodup⟩
      exact popped.input hs once
  | @event i e rest a es he hs =>
      have popped : Claimed { p with events := rest, sent := p.noteSent i e } :=
        ⟨h.waiting, h.distinct, h.returned, h.nodup⟩
      exact popped.input hs once
  | resume hok hs => exact h.input hs once
  | cancel hs => exact h.input hs once
  | openFails hr =>
      exact ⟨fun r s hs => h.waiting r s (Table.get_of_get_remove hs),
        fun r r' s s' hs hs' => h.distinct r r' s s' (Table.get_of_get_remove hs)
          (Table.get_of_get_remove hs'), h.returned, h.nodup⟩
  | @openReturns reply s hr =>
      obtain ⟨there, free⟩ := h.waiting reply s hr
      refine ⟨?_, ?_, ?_, ?_⟩
      · intro r t ht
        have old := Table.get_of_get_remove ht
        obtain ⟨there', free'⟩ := h.waiting r t old
        refine ⟨there', ?_⟩
        rw [channels, List.map_append, List.mem_append]
        rintro (taken | last)
        · exact free' taken
        · -- the reply just taken is gone from the table
          have same := h.distinct r reply t s old hr (List.mem_singleton.mp last)
          subst same
          rw [Table.get_remove_self] at ht
          cases ht
      · intro r r' t t' ht ht'
        exact h.distinct r r' t t' (Table.get_of_get_remove ht) (Table.get_of_get_remove ht')
      · intro t ht
        rcases List.mem_append.mp ht with old | last
        · exact h.returned t old
        · rw [List.mem_singleton.mp last]
          exact there
      · rw [channels, List.map_append]
        refine List.nodup_append.mpr ⟨h.nodup, List.nodup_singleton _, ?_⟩
        intro i hi j hj same
        subst same
        rw [List.map_singleton, List.mem_singleton] at hj
        exact free (hj ▸ hi)
  | _ => exact ⟨h.waiting, h.distinct, h.returned, h.nodup⟩

/-- Streams that have been returned differ in their identifiers if all those resolved do. -/
theorem Claimed.ids_nodup {p : Peer} (h : Claimed p) (apart : (resolvedIds p.effects).Nodup) :
    (p.returned.map LogicalStream.streamId).Nodup := by
  refine h.nodup.of_map.map_on ?_
  intro s hs t ht same
  exact List.inj_on_of_nodup_map apart (h.returned s hs) (h.returned t ht) same

end Peer

theorem SessionActor.Minted.moved {p p' : Peer} {act : Peer.Act}
    (h : SessionActor.Minted p.actor p.effects) (m : Peer.Moved p act p') :
    SessionActor.Minted p'.actor p'.effects := by
  rcases Net.moved_account m with ⟨hactor, -, heffects, -⟩ | ⟨x, es, hs, -, heffects, -⟩
  · rw [hactor, heffects]
    exact h
  · rw [heffects]
    exact minted_step hs h

end Foctet.Mux
