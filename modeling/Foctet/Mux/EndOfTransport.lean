import Foctet.Mux.SessionSteps

/-! The clean end of the transport. `framed_reader.next()` returning `None` matches
no pattern of the select loop, so the loop neither ends nor clears its streams. -/
namespace Foctet.Mux
open Foctet.Core Foctet.Lib

namespace SessionActor

/-- An iteration that handles a command or a stream event. -/
def Input.handles : Input → Bool
  | .command _ | .event _ => true
  | _ => false

/-- No stream is registered, so every stream's channel has lost its sender. -/
def AllDisconnected (a : SessionActor) : Prop := ∀ i, a.streams.get i = none

/-- After `None` from the reader, no iteration of the run handles a command or an
event while a stream is registered. -/
def QuietAfterEof (start : SessionActor) (inputs : List Input) : Prop :=
  ∀ pre mid x post a es, inputs = pre ++ .eof :: (mid ++ x :: post) → x.handles = true →
    runOut step start (pre ++ .eof :: mid) = some (a, es) → a.AllDisconnected

/-- After `None` from the reader the loop is left and every channel is disconnected. -/
def LeftAtEof (start : SessionActor) (inputs : List Input) : Prop :=
  ∀ pre post a es, inputs = pre ++ .eof :: post →
    runOut step start (pre ++ [.eof]) = some (a, es) → a.phase = .left ∧ a.AllDisconnected

/-- A reader that has come to the end of its transport yields nothing more. -/
def ReaderEnds (inputs : List Input) : Prop :=
  ∀ pre post f, inputs = pre ++ .eof :: post → .frame f ∉ post

/-- Without an incoming frame no stream gets registered. -/
theorem step_disconnected {a a' : SessionActor} {x : Input} {es : List Effect}
    (h : Step a x a' es) (no_frame : ∀ f, x ≠ .frame f) (empty : a.AllDisconnected) :
    a'.AllDisconnected := by
  intro i
  cases h with
  | forward | openRequest | openResponse | openReset | unknown => exact absurd rfl (no_frame _)
  | cancelled | readError | requestFailed | writeFailed => rfl
  | eventClosed | forwardFailed | announceFailed =>
      rw [Table.get_remove]
      split
      · rfl
      · exact empty i
  | _ => exact empty i

theorem run_disconnected {a b : SessionActor} {inputs : List Input} {es : List Effect}
    (h : runOut step a inputs = some (b, es)) (no_frame : ∀ f, .frame f ∉ inputs)
    (empty : a.AllDisconnected) : b.AllDisconnected := by
  induction inputs generalizing a es with
  | nil =>
      cases h
      exact empty
  | cons x inputs ih =>
      obtain ⟨a', e, rest, hstep, hrest, -⟩ := runOut_cons_some.mp h
      have mine : ∀ f, x ≠ .frame f := fun f hf => no_frame f (hf ▸ List.mem_cons_self)
      exact ih hrest (fun f hf => no_frame f (List.mem_cons_of_mem x hf))
        (step_disconnected (step_cases hstep) mine empty)

/-- From the top of the loop, inputs that neither bring a frame nor are handled
leave the actor where it was, or leave the loop. -/
theorem run_idle {a b : SessionActor} {inputs : List Input} {es : List Effect}
    (h : runOut step a inputs = some (b, es)) (top : a.phase = .select)
    (no_frame : ∀ f, .frame f ∉ inputs) (unhandled : ∀ x ∈ inputs, x.handles = false) :
    b.phase = .left ∨ b = a := by
  induction inputs generalizing a es with
  | nil =>
      cases h
      exact .inr rfl
  | cons x inputs ih =>
      obtain ⟨a', e, rest, hstep, hrest, -⟩ := runOut_cons_some.mp h
      have hx := unhandled x List.mem_cons_self
      have stopped (hleft : a'.phase = .left) : b.phase = .left := by
        cases inputs with
        | nil =>
            cases hrest
            exact hleft
        | cons y ys =>
            obtain ⟨a'', e', rest', hstep', -, -⟩ := runOut_cons_some.mp hrest
            simp only [step, hleft, reduceCtorEq] at hstep'
      cases step_cases hstep with
      | forward | openRequest | openResponse | openReset | unknown =>
          exact absurd List.mem_cons_self (no_frame _)
      | openStream | shutdownCommand | eventFrame | eventClosed | eventError => cases hx
      | cancelled | readError => exact .inl (stopped rfl)
      | eof hphase =>
          exact ih hrest top (fun f hf => no_frame f (List.mem_cons_of_mem _ hf))
            (fun y hy => unhandled y (List.mem_cons_of_mem _ hy))
      | forwarded hphase | forwardFailed hphase | announced hphase | announceFailed hphase
        | responded hphase | respondFailed hphase | requested hphase | requestFailed hphase
        | written hphase | writeFailed hphase =>
          rw [top] at hphase
          cases hphase

theorem step_eof {a a' : SessionActor} {es : List Effect} (h : a.step .eof = some (a', es)) :
    a' = a ∧ a.phase = .select := by
  cases step_cases h with
  | eof hphase => exact ⟨rfl, hphase⟩

/-- If nothing is registered at the end of the transport, nothing ever is. -/
theorem disconnected_after_eof {start a b : SessionActor} {pre mid : List Input}
    {bs es : List Effect} (before : runOut step start pre = some (b, bs))
    (after : runOut step start (pre ++ Input.eof :: mid) = some (a, es))
    (no_frame : ∀ f, .frame f ∉ mid) (empty : b.AllDisconnected) : a.AllDisconnected := by
  obtain ⟨m, o₁, o₂, hpre, hrest, -⟩ := runOut_append_some.mp after
  rw [before] at hpre
  cases hpre
  refine run_disconnected hrest (fun f hf => ?_) empty
  rcases List.mem_cons.mp hf with hf | hf
  · cases hf
  · exact no_frame f hf

/-- The first command or event handled after the end of the transport finds the
actor as it was at the end. -/
theorem first_handled_after_eof {start a : SessionActor} {pre post : List Input}
    {es : List Effect} (run_eq : runOut step start (pre ++ Input.eof :: post) = some (a, es))
    (no_frame : ∀ f, .frame f ∉ post) {x : Input} (member : x ∈ post)
    (handled : x.handles = true) :
    ∃ mid y rest b bs cs, post = mid ++ y :: rest ∧ y.handles = true ∧
      runOut step start pre = some (b, bs) ∧
      runOut step start (pre ++ Input.eof :: mid) = some (b, cs) := by
  -- cut the rest of the run at its first handled input
  obtain ⟨y, found⟩ := Option.isSome_iff_exists.mp
    (List.find?_isSome.mpr ⟨x, member, handled⟩ : (post.find? Input.handles).isSome)
  obtain ⟨hy, mid, rest, rfl, unhandled⟩ := List.find?_eq_some_iff_append.mp found
  obtain ⟨b, bs, o, hpre, hrest, -⟩ := runOut_append_some.mp run_eq
  obtain ⟨b', e, os, heof, htail, -⟩ := runOut_cons_some.mp hrest
  obtain ⟨rfl, top⟩ := step_eof heof
  obtain ⟨m, os₁, os₂, hmid, hlast, -⟩ := runOut_append_some.mp htail
  have idle := run_idle hmid top (fun f hf => no_frame f (List.mem_append_left _ hf))
    (fun z hz => by simpa using unhandled z hz)
  rcases idle with hleft | rfl
  · -- an actor past its loop handles nothing
    obtain ⟨_, _, _, hstep, -, -⟩ := runOut_cons_some.mp hlast
    simp only [step, hleft, reduceCtorEq] at hstep
  · exact ⟨mid, y, rest, m, bs, bs ++ (e ++ os₁), rfl, hy, hpre, runOut_append_some.mpr
      ⟨m, bs, e ++ os₁, hpre, runOut_cons_some.mpr ⟨m, e, os₁, heof, hmid, rfl⟩, rfl⟩⟩

/-- When a clean end of the transport ends the session: nothing is handled with
streams registered exactly when each end finds no stream registered or is followed
by no command and no event; and the loop is left at no end at all. -/
theorem eof_ends_session_iff (side : SessionSide) (sessionId : SessionId) (inputs : List Input)
    (a : SessionActor) (es : List Effect)
    (run_eq : runOut step (spawn side sessionId) inputs = some (a, es))
    (ended : ReaderEnds inputs) :
    (QuietAfterEof (spawn side sessionId) inputs ↔
      ∀ pre post b bs, inputs = pre ++ .eof :: post →
        runOut step (spawn side sessionId) pre = some (b, bs) →
          b.AllDisconnected ∨ ∀ x ∈ post, x.handles = false) ∧
    (LeftAtEof (spawn side sessionId) inputs ↔ .eof ∉ inputs) := by
  refine ⟨⟨?_, ?_⟩, ?_, ?_⟩
  · intro quiet pre post b bs split before
    subst split
    by_cases busy : ∃ x ∈ post, x.handles = true
    · obtain ⟨x, member, handled⟩ := busy
      obtain ⟨mid, y, rest, c, _, cs, rfl, hy, hpre, hmid⟩ :=
        first_handled_after_eof run_eq (fun f => ended pre _ f rfl) member handled
      rw [before] at hpre
      cases hpre
      exact .inl (quiet pre mid y rest b cs rfl hy hmid)
    · exact .inr (fun x hx => Bool.eq_false_iff.mpr (fun h => busy ⟨x, hx, h⟩))
  · intro condition pre mid x post c cs split handled reached
    have member : x ∈ mid ++ x :: post := List.mem_append_right _ List.mem_cons_self
    obtain ⟨b, bs, o, before, -, -⟩ := runOut_append_some.mp reached
    rcases condition pre _ b bs split before with empty | unhandled
    · exact disconnected_after_eof before reached
        (fun f hf => ended pre _ f split (List.mem_append_left _ hf)) empty
    · exact absurd handled (by simp [unhandled x member])
  · intro left member
    obtain ⟨pre, post, rfl⟩ := List.append_of_mem member
    obtain ⟨b, bs, o, before, hrest, -⟩ := runOut_append_some.mp run_eq
    obtain ⟨b', e, os, heof, -, -⟩ := runOut_cons_some.mp hrest
    have reached : runOut step (spawn side sessionId) (pre ++ [Input.eof]) = some (b', bs ++ (e ++ [])) :=
      runOut_append_some.mpr
        ⟨b, bs, e ++ [], before, runOut_cons_some.mpr ⟨b', e, [], heof, rfl, rfl⟩, rfl⟩
    have hleft := (left pre post b' _ rfl reached).1
    obtain ⟨rfl, top⟩ := step_eof heof
    rw [top] at hleft
    cases hleft
  · intro absent pre post b bs split
    exact absurd (split ▸ List.mem_append_right _ List.mem_cons_self) absent

/-- The server side of a session, up to where the peer's stream 5 is served. -/
def servedStream : List Input :=
  [.frame (openRequestFrame ⟨5⟩), .resume true, .resume true]

/-- A stream closed before the transport ends leaves nothing registered. -/
theorem eof_ends_session_iff_closed_stream :
    QuietAfterEof (spawn .server ⟨1⟩)
      (servedStream ++ [.event (.closed ⟨5⟩), .eof, .command (.openStream 0)]) := by
  have once : ∀ pre post,
      servedStream ++ [Input.event (.closed ⟨5⟩), .eof, .command (.openStream 0)] = pre ++ Input.eof :: post →
        servedStream ++ [Input.event (.closed ⟨5⟩)] = pre ∧ [Input.command (.openStream 0)] = post := by
    intro pre post split
    change (servedStream ++ [Input.event (.closed ⟨5⟩)]) ++ Input.eof :: [Input.command (.openStream 0)] =
      pre ++ Input.eof :: post at split
    obtain ⟨hpre, -, hpost⟩ :=
      (List.append_cons_inj_of_notMem (by decide) (by decide)).mp split
    exact ⟨hpre, hpost⟩
  refine ((eof_ends_session_iff .server ⟨1⟩ _ _ _ rfl ?_).1).mpr ?_
  · intro pre post f split
    obtain ⟨rfl, rfl⟩ := once pre post split
    simp
  · intro pre post b bs split before
    obtain ⟨rfl, rfl⟩ := once pre post split
    left
    cases before
    intro i
    change (((Table.empty : Table StreamId ChannelId).insert ⟨5⟩ 0).remove ⟨5⟩).get i = none
    rw [Table.get_remove, Table.get_insert, Table.get_empty]
    split <;> rfl

/-- With stream 5 still registered, the command that comes after the end of the
transport is handled as before, and the loop is not left. -/
theorem command_handled_after_eof :
    (runOut step (spawn .server ⟨1⟩)
        (servedStream ++ [.eof, .command (.openStream 0)])).isSome = true ∧
      ReaderEnds (servedStream ++ [.eof, .command (.openStream 0)]) ∧
      ¬ QuietAfterEof (spawn .server ⟨1⟩) (servedStream ++ [.eof, .command (.openStream 0)]) ∧
      ¬ LeftAtEof (spawn .server ⟨1⟩) (servedStream ++ [.eof, .command (.openStream 0)]) := by
  refine ⟨rfl, ?_, ?_, ?_⟩
  · intro pre post f split
    obtain ⟨-, -, rfl⟩ :=
      (List.append_cons_inj_of_notMem (by decide) (by decide)).mp split
    simp
  · intro quiet
    have gone := quiet servedStream [] (.command (.openStream 0)) [] _ _ rfl rfl rfl ⟨5⟩
    cases gone
  · intro left
    have gone := (left servedStream [.command (.openStream 0)] _ _ rfl rfl).1
    cases gone

end SessionActor
end Foctet.Mux
