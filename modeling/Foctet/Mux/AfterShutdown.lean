import Foctet.Mux.SessionSteps
import Mathlib.Data.List.Induction

/-! What an actor does after `Command::Shutdown`. The command sets `local_closed`, and
no handler reads it: until the cancellation is picked, streams are opened as before. -/
namespace Foctet.Mux
open Foctet.Core Foctet.Lib

/-- The flags of the two frames by which a stream comes into being. -/
def opensStream (flags : FrameFlags) : Prop :=
  flags.isOpenRequest = true ∨ flags.isOpenResponse = true

/-- The handler is between two awaits of opening a stream. -/
def Phase.opening : Phase → Bool
  | .awaiting (.announce _) | .awaiting (.respond _) | .awaiting (.request _) => true
  | _ => false

namespace SessionActor

/-- What holds for every input that a run takes after a shutdown command, with the
state it is taken in and the inputs that follow. -/
def AfterShutdown (holds : SessionActor → Input → List Input → Prop) (start : SessionActor)
    (inputs : List Input) : Prop :=
  ∀ pre reply mid x post a es,
    inputs = pre ++ .command (.shutdown reply) :: (mid ++ x :: post) →
      runOut step start (pre ++ .command (.shutdown reply) :: mid) = some (a, es) → holds a x post

/-- A step that registers a stream or an opener, or writes one of the two frames. -/
def Opens (a a' : SessionActor) (es : List Effect) : Prop :=
  a.streams.Adds a'.streams ∨ a.pendingStreams.Adds a'.pendingStreams ∨
    ∃ f, .write f ∈ es ∧ opensStream f.header.flags

/-- Once shutdown has been handled, no step opens a stream. -/
def ShutdownStops (start : SessionActor) (inputs : List Input) : Prop :=
  AfterShutdown (fun a x _ => ∀ a' es, a.step x = some (a', es) → ¬ Opens a a' es) start inputs

/-- The inputs that open a stream: a command to open, an open request for an identifier
that is not registered, the response to a waiting opener, and an event frame with the
flags of one of them that is then written. -/
def Reopens (a : SessionActor) : Input → List Input → Prop
  | .command (.openStream _), _ => True
  | .frame f, _ => a.streams.get f.header.streamId = none ∧
      (f.header.flags.isOpenRequest = true ∨ f.header.flags.isOpenResponse = true ∧
        a.pendingStreams.get f.header.streamId ≠ none)
  | .event (.frame f), .resume true :: _ => opensStream f.header.flags
  | _, _ => False

/-- The `oneshot` senders that a run's commands to open carry. -/
def openReplies (inputs : List Input) : List ReplyId :=
  inputs.filterMap fun
    | .command (.openStream reply) => some reply
    | _ => none

variable {side : SessionSide} {sessionId : SessionId} {start a a' : SessionActor}
  {inputs : List Input} {es : List Effect}

theorem run_pending_reply (run_eq : runOut step (spawn side sessionId) inputs = some (a, es))
    {streamId : StreamId} {reply : ReplyId}
    (waiting : a.pendingStreams.get streamId = some reply) : reply ∈ openReplies inputs := by
  induction inputs using List.reverseRecOn generalizing a es with
  | nil =>
      cases run_eq
      cases waiting
  | append_singleton inputs x ih =>
      obtain ⟨b, o, o', hrun, hstep, -⟩ := runOut_concat_some.mp run_eq
      rw [openReplies, List.filterMap_append]
      apply List.mem_append.mpr
      cases step_cases hstep with
      | @openStream own top =>
          by_cases due : streamId = b.nextStreamId
          · rw [due, Table.get_insert_self] at waiting
            cases waiting
            exact .inr (List.mem_singleton_self _)
          · rw [Table.get_insert_of_ne _ due] at waiting
            exact .inl (ih hrun waiting)
      | openResponse | openReset => exact .inl (ih hrun (Table.get_of_get_remove waiting))
      | _ => exact .inl (ih hrun waiting)

/-- The actor is not inside a handler that opens a stream, and it writes an event frame
only right after it has taken it. -/
structure Quiet (phase : Phase) (taken : List Input) : Prop where
  not_opening : phase.opening = false
  writing : ∀ f, phase = .awaiting (.write f) → ∃ earlier, taken = earlier ++ [.event (.frame f)]

theorem quiet_of_select {phase : Phase} {taken : List Input} (top : phase = .select) :
    Quiet phase taken := by
  subst top
  exact ⟨rfl, nofun⟩

/-- After a shutdown, while nothing opens a stream, the actor stays quiet. -/
theorem quiet_after_shutdown {pre mid post : List Input} {reply : ReplyId}
    (shut : AfterShutdown (fun a x post => ¬ Reopens a x post) start inputs)
    (cut : inputs = pre ++ Input.command (.shutdown reply) :: (mid ++ post))
    (run_eq : runOut step start (pre ++ Input.command (.shutdown reply) :: mid) = some (a, es)) :
    Quiet a.phase mid := by
  induction mid using List.reverseRecOn generalizing a es post with
  | nil =>
      obtain ⟨b, o, o', -, hstep, -⟩ := runOut_concat_some.mp run_eq
      cases step_cases hstep with
      | shutdownCommand top => exact quiet_of_select top
  | append_singleton mid x ih =>
      rw [← List.cons_append, ← List.append_assoc] at run_eq
      obtain ⟨b, o, o', hrun, hstep, -⟩ := runOut_concat_some.mp run_eq
      rw [List.append_assoc, List.singleton_append] at cut
      have quiet := (ih cut hrun).not_opening
      have closed := shut pre reply mid x post b o cut hrun
      cases step_cases hstep with
      | openStream top => exact absurd trivial closed
      | openRequest top free request => exact absurd ⟨free, .inl request⟩ closed
      | eventFrame top =>
          refine ⟨rfl, ?_⟩
          intro f writing
          cases writing
          exact ⟨mid, rfl⟩
      | announced opening | announceFailed opening | responded opening | respondFailed opening
        | requested opening | requestFailed opening =>
          rw [opening] at quiet
          cases quiet
      | eof top | openResponse top | openReset top | unknown top | shutdownCommand top
        | eventClosed top | eventError top => exact quiet_of_select top
      | _ => exact ⟨rfl, nofun⟩

/-- A step that opens a stream takes an input that does, or ends the write of a frame
that does. -/
theorem Opens.cause {x : Input} (hstep : Step a x a' es) (opened : Opens a a' es) :
    Reopens a x [] ∨ a.phase.opening = true ∧ x = .resume true ∨
      ∃ f, a.phase = .awaiting (.write f) ∧ x = .resume true ∧ opensStream f.header.flags := by
  rcases opened with registered | waiting | ⟨f, written, flags⟩
  · cases hstep with
    | openRequest top free request => exact .inl ⟨free, .inl request⟩
    | openResponse top free request response pending =>
        exact .inl ⟨free, .inr ⟨response, by rw [pending]; exact Option.some_ne_none _⟩⟩
    | cancelled | readError | requestFailed | writeFailed =>
        exact absurd registered (Table.not_adds_empty _)
    | eventClosed | forwardFailed | announceFailed =>
        exact absurd registered (Table.not_adds_remove _ _)
    | _ => exact absurd registered (Table.not_adds_self _)
  · cases hstep with
    | openStream top => exact .inl trivial
    | openResponse | openReset => exact absurd waiting (Table.not_adds_remove _ _)
    | _ => exact absurd waiting (Table.not_adds_self _)
  · cases hstep with
    | responded opening | requested opening => exact .inr (.inl ⟨by rw [opening]; rfl, rfl⟩)
    | written writing =>
        cases List.mem_singleton.mp written
        exact .inr (.inr ⟨f, writing, rfl, flags⟩)
    | _ => simp at written

theorem Reopens.followed {x : Input} (alone : Reopens a x []) (post : List Input) :
    Reopens a x post := by
  cases x with
  | frame f => exact alone
  | command command =>
      cases command with
      | openStream reply => trivial
      | shutdown reply => exact alone
  | event event => cases event <;> exact alone.elim
  | _ => exact alone

/-- An input that opens a stream does so in its step, or hands the frame that does to
the write that the next input ends. -/
theorem Reopens.effect {x : Input} {post : List Input} (reopens : Reopens a x post)
    (hstep : Step a x a' es)
    (own_sender : ∀ sender i, x = .command (.openStream sender) →
      a.pendingStreams.get i ≠ some sender) :
    Opens a a' es ∨ ∃ f later, x = .event (.frame f) ∧ post = .resume true :: later ∧
      opensStream f.header.flags := by
  cases hstep with
  | openStream => exact .inl (.inr (.inl (Table.adds_insert (own_sender _ _ rfl))))
  | openRequest top free => exact .inl (.inl (Table.adds_insert (by rw [free]; exact nofun)))
  | openResponse top free => exact .inl (.inl (Table.adds_insert (by rw [free]; exact nofun)))
  | forward top registered => exact absurd reopens.1 (by rw [registered]; exact nofun)
  | openReset top free reset =>
      have others := FrameFlags.openReset_only reset
      rcases reopens.2 with request | ⟨response, -⟩
      · exact absurd request (by rw [others.1]; exact nofun)
      · exact absurd response (by rw [others.2]; exact nofun)
  | unknown top free request response =>
      rcases reopens.2 with requested | ⟨responded, waiting⟩
      · exact absurd requested (by rw [request]; exact nofun)
      · exact absurd (response responded) waiting
  | @eventFrame f top =>
      cases post with
      | nil => exact reopens.elim
      | cons y later =>
          cases y with
          | resume ok =>
              cases ok with
              | false => exact reopens.elim
              | true => exact .inr ⟨f, later, rfl, rfl, reopens⟩
          | _ => exact reopens.elim
  | _ => exact reopens.elim

/-- The run goes on from where it has been cut. -/
theorem runOut_cut {pre mid post : List Input} {x y : Input} {b : SessionActor} {os : List Effect}
    (run_eq : runOut step start (pre ++ x :: (mid ++ y :: post)) = some (b, os))
    (reached : runOut step start (pre ++ x :: mid) = some (a, es)) :
    ∃ c o, a.step y = some (c, o) ∧
      runOut step start (pre ++ x :: (mid ++ [y])) = some (c, es ++ o) ∧
        ∃ o', runOut step c post = some (b, o') := by
  rw [← List.cons_append, ← List.append_assoc] at run_eq
  obtain ⟨a₁, o₁, o₂, first, rest, -⟩ := runOut_append_some.mp run_eq
  rw [reached] at first
  cases first
  obtain ⟨c, o, o', hstep, further, -⟩ := runOut_cons_some.mp rest
  refine ⟨c, o, hstep, ?_, o', further⟩
  rw [← List.cons_append, ← List.append_assoc]
  exact runOut_concat_some.mpr ⟨a, es, o, reached, hstep, rfl⟩

/-- Each command to open carries a sender of its own. Then shutdown stops new streams in
exactly those runs in which nothing asks for one any more. -/
theorem shutdown_stops_iff (run_eq : runOut step (spawn side sessionId) inputs = some (a, es))
    (own_sender : (openReplies inputs).Nodup) :
    ShutdownStops (spawn side sessionId) inputs ↔
      AfterShutdown (fun a x post => ¬ Reopens a x post) (spawn side sessionId) inputs := by
  constructor
  · intro stops pre reply mid x post b os cut reached reopens
    rw [cut] at run_eq
    obtain ⟨c, o, hstep, next, o', rest⟩ := runOut_cut run_eq reached
    have new_sender : ∀ sender i, x = .command (.openStream sender) →
        b.pendingStreams.get i ≠ some sender := by
      rintro sender i rfl taken
      have again := run_pending_reply reached taken
      rw [cut, ← List.cons_append, ← List.append_assoc, openReplies, List.filterMap_append,
        List.filterMap_cons] at own_sender
      exact (List.nodup_append.mp own_sender).2.2 sender again sender List.mem_cons_self rfl
    rcases reopens.effect (step_cases hstep) new_sender with opened | ⟨f, later, rfl, rfl, flags⟩
    · exact stops pre reply mid x post b os cut reached c o hstep opened
    · cases step_cases hstep with
      | eventFrame top =>
          refine stops pre reply (mid ++ [Input.event (.frame f)]) (.resume true) later _ _
            ?_ next _ _ rfl (.inr (.inr ⟨f, List.mem_singleton_self _, flags⟩))
          rw [cut, List.append_assoc, List.singleton_append]
  · intro shut pre reply mid x post b os cut reached c o hstep opened
    have quiet := quiet_after_shutdown shut cut reached
    rcases opened.cause (step_cases hstep) with reopens | ⟨opening, -⟩ | ⟨f, writing, rfl, flags⟩
    · exact shut pre reply mid x post b os cut reached (reopens.followed post)
    · rw [quiet.not_opening] at opening
      cases opening
    · -- the frame that is being written was taken after the shutdown as well
      obtain ⟨mid', rfl⟩ := quiet.writing f writing
      rw [← List.cons_append, ← List.append_assoc] at reached
      obtain ⟨b', o₁, o₂, before, -, -⟩ := runOut_concat_some.mp reached
      rw [List.append_assoc, List.singleton_append] at cut
      exact shut pre reply mid' (.event (.frame f)) (.resume true :: post) b' o₁ cut before flags

/-- A caller's stream is opened. -/
def openedBefore : List Input :=
  [.command (.openStream 0), .resume true, .frame (openResponseFrame ⟨1⟩)]

/-- A frame comes for the stream and one is sent on it, and the task is cancelled. -/
def usedAfter : List Input :=
  [.frame (bytesFrame ⟨1⟩ [7]), .resume true, .event (.frame (bytesFrame ⟨1⟩ [8])), .resume true, .cancelled]

theorem used_after_shutdown : ShutdownStops (spawn .client ⟨0⟩)
    (openedBefore ++ .command (.shutdown 1) :: usedAfter) := by
  have own_sender : (openReplies (openedBefore ++ .command (.shutdown 1) :: usedAfter)).Nodup := by
    decide
  refine (shutdown_stops_iff rfl own_sender).mpr ?_
  intro pre reply mid x post a es cut reached reopens
  obtain ⟨-, -, rest⟩ := (List.append_cons_inj_of_notMem (by simp [openedBefore])
    (by simp [usedAfter])).mp cut
  have taken : x ∈ usedAfter := by
    rw [rest]
    simp
  simp only [usedAfter, List.mem_cons, List.not_mem_nil, or_false] at taken
  have plain : ∀ bytes, ¬ opensStream (bytesFrame ⟨1⟩ bytes).header.flags := by
    rintro bytes (request | response)
    · exact Bool.false_ne_true request
    · exact Bool.false_ne_true response
  rcases taken with rfl | rfl | rfl | rfl | rfl
  · rcases reopens.2 with request | ⟨response, -⟩
    · exact plain _ (.inl request)
    · exact plain _ (.inr response)
  · exact reopens
  · cases post with
    | nil => exact reopens
    | cons y later =>
        cases y with
        | resume ok =>
            cases ok with
            | false => exact reopens
            | true => exact plain _ reopens
        | _ => exact reopens
  · exact reopens
  · exact reopens

/-- A request of the peer is accepted after the shutdown, and a caller's stream is
requested from the peer. -/
theorem opened_after_shutdown :
    let accepted := [.command (.shutdown 0), .frame (openRequestFrame ⟨1⟩)]
    let requested := [.command (.shutdown 0), .command (.openStream 1), .resume true]
    (∃ a es, runOut step (spawn .server ⟨0⟩) accepted = some (a, es)) ∧
      ¬ ShutdownStops (spawn .server ⟨0⟩) accepted ∧
    (∃ a es, runOut step (spawn .server ⟨0⟩) requested = some (a, es)) ∧
      ¬ ShutdownStops (spawn .server ⟨0⟩) requested := by
  intro accepted requested
  refine ⟨⟨_, _, rfl⟩, ?_, ⟨_, _, rfl⟩, ?_⟩
  · intro stops
    refine stops [] 0 [] (.frame (openRequestFrame ⟨1⟩)) [] _ _ rfl rfl _ _ rfl (.inl ?_)
    exact ⟨⟨1⟩, 0, rfl, nofun⟩
  · intro stops
    refine stops [] 0 [.command (.openStream 1)] (.resume true) [] _ _ rfl rfl _ _ rfl ?_
    exact .inr (.inr ⟨openRequestFrame ⟨2⟩, List.mem_singleton_self _, .inl rfl⟩)

end SessionActor
end Foctet.Mux
