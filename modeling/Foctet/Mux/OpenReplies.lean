import Foctet.Mux.OpenCalls
import Mathlib.Data.List.Induction

/-! Which answer a caller of `open_stream` gets: at most one, from the frame that answers
its own request, or an error when its sender is dropped. -/
namespace Foctet.Mux
open Foctet.Core Foctet.Lib

namespace Openers

/-- In how many places a caller is. -/
def places (s : Openers) (r : ReplyId) : Nat :=
  s.sending.count r + (callers s.commands).count r + (s.handling.toList.map Prod.snd).count r +
    (s.tasks.map Prod.snd).count r + (s.answers.map Prod.fst).count r

/-- Every caller is in exactly one place, and every forwarding task waits for a sender
that the actor still holds. -/
structure Owned (s : Openers) : Prop where
  once : s.called.Nodup
  places : ∀ r, s.places r = s.called.count r
  registered : ∀ t ∈ s.tasks, s.actor.pendingStreams.get t.1 = some t.2
  handled : ∀ h ∈ s.handling, s.actor.pendingStreams.get h.1 = some h.2
  idle : s.actor.phase.asking = false → s.handling = none
  ended : s.finished = true → s.sending = [] ∧ s.commands = [] ∧ s.handling = none ∧ s.tasks = []

theorem owned_spawn (side : SessionSide) (sessionId : SessionId) :
    Owned (spawn side sessionId) where
  once := List.nodup_nil
  places _ := rfl
  registered := nofun
  handled := nofun
  idle _ := rfl
  ended := nofun

/-- A task that replies leaves the tasks and joins the answered callers. -/
theorem count_wake (s : Openers) (whose : StreamId × ReplyId → Bool)
    (result : Except OpenError LogicalStream) (r : ReplyId) :
    ((s.wake whose result).tasks.map Prod.snd).count r +
        ((s.wake whose result).answers.map Prod.fst).count r =
      (s.tasks.map Prod.snd).count r + (s.answers.map Prod.fst).count r := by
  have parts := ((List.filter_append_perm whose s.tasks).map Prod.snd).count_eq r
  rw [List.map_append, List.count_append] at parts
  have woken : ((s.tasks.filter whose).map fun t => (t.2, result)).map Prod.fst =
      (s.tasks.filter whose).map Prod.snd := by
    rw [List.map_map]
    rfl
  simp only [wake, List.map_append, List.count_append, woken]
  omega

theorem callers_append (cs ds : List Command) : callers (cs ++ ds) = callers cs ++ callers ds :=
  List.filterMap_append

theorem map_fst_const {α β : Type} (l : List α) (b : β) : (l.map fun r => (r, b)).map Prod.fst = l := by
  rw [List.map_map]
  exact List.map_id l

variable {s t : Openers} {l : Label}

theorem called_step (happens : Happens s l t) :
    t.called = s.called ∨ ∃ reply, l = .call reply ∧ reply ∉ s.called ∧
      t.called = s.called ++ [reply] := by
  cases happens with
  | call new | callLate new => exact .inr ⟨_, rfl, new, rfl⟩
  | _ => exact .inl rfl

/-- Between its call and its answer a caller moves from one place to the next. -/
theorem places_step (happens : Happens s l t) (h : Owned s) (r : ReplyId) :
    t.places r + s.called.count r = s.places r + t.called.count r := by
  cases happens with
  | call =>
      simp only [Openers.places, List.count_append]
      omega
  | callLate =>
      simp only [Openers.places, List.map_append, List.count_append, List.map_cons, List.map_nil]
      omega
  | @enqueue reply waits room =>
      have moved : (s.sending.erase reply).count r + (callers [.openStream reply]).count r =
          s.sending.count r := by
        have perm := (List.perm_cons_erase waits).count_eq r
        have one : callers [.openStream reply] = [reply] := rfl
        rw [perm, one, List.count_cons, List.count_cons, List.count_nil, Nat.zero_add]
      simp only [Openers.places, callers_append, List.count_append]
      omega
  | @requestShutdown reply room =>
      have none_more : callers [.shutdown reply] = [] := rfl
      simp only [Openers.places, callers_append, none_more, List.append_nil]
  | @opened reply rest a' next top pending asking =>
      have unheld : s.handling = none := h.idle (by rw [top]; rfl)
      have first : callers s.commands = [reply] ++ callers rest := by
        rw [next]
        rfl
      have woken := count_wake s
        (fun t => s.actor.pendingStreams.get s.actor.nextStreamId = some t.2)
        (.error (.failed noResponse)) r
      simp only [Openers.places, replace, first, unheld, Option.toList_some, Option.toList_none,
        List.map_cons, List.map_nil, List.count_append, List.count_nil]
      simp only [wake] at woken ⊢
      omega
  | @shut reply rest a' next top =>
      have first : callers s.commands = callers rest := by
        rw [next]
        rfl
      simp only [Openers.places, first]
  | @resolved frame reply result a' top =>
      have woken := count_wake s (fun t => t.2 = reply) result r
      simp only [Openers.places]
      simp only [wake] at woken ⊢
      omega
  | requested =>
      simp only [Openers.places, List.map_append, List.count_append, Option.toList_none,
        List.map_nil, List.count_nil]
      omega
  | requestFailed =>
      have dropped : (s.handling.toList.map fun h =>
          ((h.2, .error .dropped) : ReplyId × Except OpenError LogicalStream)).map Prod.fst =
            s.handling.toList.map Prod.snd := by
        rw [List.map_map]
        rfl
      simp only [Openers.places, List.map_append, List.count_append, dropped, Option.toList_none,
        List.map_nil, List.count_nil]
      omega
  | other => rfl
  | finish =>
      have woken := count_wake s (fun t => s.actor.pendingStreams.get t.1 = some t.2)
        (.error (.failed noResponse)) r
      have empty : callers [] = [] := rfl
      simp only [Openers.places, Openers.finish, List.map_append, map_fst_const, List.count_append,
        empty, Option.toList_none, List.map_nil, List.count_nil]
      simp only [wake] at woken ⊢
      omega

/-- Using or dropping what one identifier holds leaves the other tasks their senders. -/
theorem registered_step (happens : Happens s l t) (h : Owned s) :
    ∀ task ∈ t.tasks, t.actor.pendingStreams.get task.1 = some task.2 := by
  intro task member
  cases happens with
  | call | callLate | enqueue | requestShutdown => exact h.registered task member
  | @opened reply rest a' next top pending asking =>
      -- a task that waited under the same identifier has just been woken
      obtain ⟨member, other⟩ := List.mem_filter.mp member
      simp only [Bool.not_eq_true', decide_eq_false_iff_not] at other
      have kept := h.registered task member
      have elsewhere : task.1 ≠ s.actor.nextStreamId := fun same => other (same ▸ kept)
      rw [pending, Table.get_insert_of_ne _ elsewhere]
      exact kept
  | @resolved frame reply result a' top free waiting kind pending elsewhere =>
      obtain ⟨member, other⟩ := List.mem_filter.mp member
      simp only [Bool.not_eq_true', decide_eq_false_iff_not] at other
      have kept := h.registered task member
      have apart : task.1 ≠ frame.header.streamId := by
        intro same
        rw [same, waiting] at kept
        exact other (Option.some.inj kept).symm
      rw [pending, Table.get_remove_of_ne _ apart]
      exact kept
  | requested asking pending elsewhere =>
      rw [pending]
      rcases List.mem_append.mp member with old | own
      · exact h.registered task old
      · exact h.handled task (Option.mem_toList.mp own)
  | shut next top pending | requestFailed asking pending | other elsewhere pending =>
      rw [pending]
      exact h.registered task member
  | finish =>
      obtain ⟨member, other⟩ := List.mem_filter.mp member
      simp only [Bool.not_eq_true', decide_eq_false_iff_not] at other
      exact absurd (h.registered task member) other

theorem handled_step (happens : Happens s l t) (h : Owned s) :
    ∀ held ∈ t.handling, t.actor.pendingStreams.get held.1 = some held.2 := by
  intro held here
  cases happens with
  | call | callLate | enqueue | requestShutdown => exact h.handled held here
  | opened next top pending asking =>
      cases here
      rw [pending, Table.get_insert_self]
  | resolved top =>
      have unheld : s.handling = none := h.idle (by rw [top]; rfl)
      have here : held ∈ s.handling := here
      rw [unheld] at here
      cases here
  | requested | requestFailed | finish => cases here
  | shut next top pending | other elsewhere pending =>
      rw [pending]
      exact h.handled held here

theorem idle_step (happens : Happens s l t) (h : Owned s)
    (elsewhere : t.actor.phase.asking = false) : t.handling = none := by
  cases happens with
  | call | callLate | enqueue | requestShutdown => exact h.idle elsewhere
  | opened next top pending asking =>
      rw [asking] at elsewhere
      cases elsewhere
  | shut next top | resolved top => exact h.idle (by rw [top]; rfl)
  | other before => exact h.idle before
  | requested | requestFailed | finish => rfl

theorem ended_step (happens : Happens s l t) (h : Owned s) (finished : t.finished = true) :
    t.sending = [] ∧ t.commands = [] ∧ t.handling = none ∧ t.tasks = [] := by
  cases happens with
  | call new running => exact absurd finished (by rw [running]; exact Bool.false_ne_true)
  | enqueue waits room => exact absurd finished (by rw [room.1]; exact Bool.false_ne_true)
  | requestShutdown room => exact absurd finished (by rw [room.1]; exact Bool.false_ne_true)
  | opened next | shut next =>
      have no_commands := (h.ended finished).2.1
      rw [next] at no_commands
      cases no_commands
  | callLate | other => exact h.ended finished
  | resolved =>
      obtain ⟨no_sending, no_commands, no_handling, no_tasks⟩ := h.ended finished
      refine ⟨no_sending, no_commands, no_handling, ?_⟩
      rw [wake, no_tasks, List.filter_nil]
  | requested =>
      obtain ⟨no_sending, no_commands, no_handling, no_tasks⟩ := h.ended finished
      refine ⟨no_sending, no_commands, rfl, ?_⟩
      rw [no_tasks, no_handling, Option.toList_none, List.append_nil]
  | requestFailed =>
      obtain ⟨no_sending, no_commands, -, no_tasks⟩ := h.ended finished
      exact ⟨no_sending, no_commands, rfl, no_tasks⟩
  | finish =>
      refine ⟨rfl, rfl, rfl, ?_⟩
      apply List.filter_eq_nil_iff.mpr
      intro task member
      simp only [h.registered task member, decide_true, Bool.not_true]
      exact Bool.false_ne_true

theorem owned_step (happens : Happens s l t) (h : Owned s) : Owned t where
  once := by
    rcases called_step happens with same | ⟨reply, -, new, more⟩
    · rw [same]
      exact h.once
    · rw [more, List.nodup_append]
      refine ⟨h.once, List.nodup_singleton reply, ?_⟩
      intro r old q fresh same
      rw [List.mem_singleton.mp fresh] at same
      exact new (same ▸ old)
  places r := by
    have moved := places_step happens h r
    rw [h.places r] at moved
    omega
  registered := registered_step happens h
  handled := handled_step happens h
  idle := idle_step happens h
  ended := ended_step happens h

theorem owned_run {side : SessionSide} {sessionId : SessionId} {labels : List Label}
    (run_eq : run step (spawn side sessionId) labels = some s) : Owned s :=
  run_invariant (fun _ => True) Owned (fun _ _ _ _ h => owned_step (step_happens h))
    (fun _ _ => trivial) run_eq (owned_spawn side sessionId)

/-- A caller that is in another place has not been answered. -/
theorem Owned.unanswered (h : Owned s) {r : ReplyId} (elsewhere : r ∈ s.tasks.map Prod.snd) :
    r ∉ s.answers.map Prod.fst := by
  intro answered
  have here := List.count_pos_iff.mpr elsewhere
  have there := List.count_pos_iff.mpr answered
  have one := List.nodup_iff_count_le_one.mp h.once r
  have count := h.places r
  rw [Openers.places] at count
  omega

theorem Owned.answers_nodup (h : Owned s) : (s.answers.map Prod.fst).Nodup := by
  apply List.nodup_iff_count_le_one.mpr
  intro r
  have one := List.nodup_iff_count_le_one.mp h.once r
  have count := h.places r
  rw [Openers.places] at count
  omega

/-- When the actor is dropped, every caller that has no answer gets an error. -/
theorem Owned.finish_answers (h : Owned s) {r : ReplyId} (called : r ∈ s.called)
    (unanswered : r ∉ s.answers.map Prod.fst) : ∃ e, (r, .error e) ∈ s.finish.answers := by
  have some_place : 0 < s.places r := by
    rw [h.places r]
    exact List.count_pos_iff.mpr called
  have no_answer := List.count_eq_zero.mpr unanswered
  simp only [Openers.finish, wake, List.mem_append, List.mem_map]
  by_cases waits : r ∈ s.sending
  · exact ⟨.notSent, .inl (.inr ⟨r, waits, rfl⟩)⟩
  · by_cases runs : r ∈ s.tasks.map Prod.snd
    · obtain ⟨task, member, rfl⟩ := List.mem_map.mp runs
      refine ⟨.failed noResponse, .inl (.inl (.inr ⟨task, ?_, rfl⟩))⟩
      exact List.mem_filter.mpr ⟨member, decide_eq_true (h.registered task member)⟩
    · refine ⟨.dropped, .inr ⟨r, ?_, rfl⟩⟩
      -- in none of the five places the caller would not have been counted at all
      by_contra nowhere
      rw [not_or] at nowhere
      rw [Openers.places, List.count_eq_zero.mpr waits, List.count_eq_zero.mpr runs, no_answer,
        List.count_eq_zero.mpr nowhere.1, List.count_eq_zero.mpr (by simpa using nowhere.2)] at some_place
      exact Nat.lt_irrefl 0 some_place

/-- After these labels the actor takes the caller's command, and allocates the
identifier to it. -/
def Allocated (start : Openers) (labels : List Label) (reply : ReplyId) (streamId : StreamId) :
    Prop :=
  ∃ b, run step start labels = some b ∧ b.commands.head? = some (.openStream reply) ∧
    (b.actor.nextStreamId.fetchAdd 1).1 = streamId

/-- After the caller's command a frame of this kind came for the identifier allocated to
it, while the identifier was not registered, and gave the caller its first answer. -/
def AnsweredBy (kind : FrameFlags → Bool) (start : Openers) (labels : List Label)
    (reply : ReplyId) (streamId : StreamId) (result : Except OpenError LogicalStream) : Prop :=
  ∃ pre mid frame post c d,
    labels = pre ++ .command :: (mid ++ .input (.frame frame) :: post) ∧
    Allocated start pre reply streamId ∧
    kind frame.header.flags = true ∧ frame.header.streamId = streamId ∧
    run step start (pre ++ .command :: mid) = some c ∧ c.actor.streams.get streamId = none ∧
    reply ∉ c.answers.map Prod.fst ∧
    c.step (.input (.frame frame)) = some d ∧ (reply, result) ∈ d.answers

theorem AnsweredBy.later {kind : FrameFlags → Bool} {start : Openers} {labels : List Label}
    {reply : ReplyId} {streamId : StreamId} {result : Except OpenError LogicalStream}
    (h : AnsweredBy kind start labels reply streamId result) (more : List Label) :
    AnsweredBy kind start (labels ++ more) reply streamId result := by
  obtain ⟨pre, mid, frame, post, c, d, rfl, rest⟩ := h
  refine ⟨pre, mid, frame, post ++ more, c, d, ?_, rest⟩
  simp only [List.append_assoc, List.cons_append]

/-- The sender under an identifier belongs to the caller it was allocated to. -/
theorem pending_allocated {start : Openers} (empty : ∀ i, start.actor.pendingStreams.get i = none)
    {labels : List Label} (run_eq : run step start labels = some s) {streamId : StreamId}
    {reply : ReplyId} (waiting : s.actor.pendingStreams.get streamId = some reply) :
    ∃ pre mid, labels = pre ++ Label.command :: mid ∧ Allocated start pre reply streamId := by
  induction labels using List.reverseRecOn generalizing s with
  | nil =>
      cases run_eq
      rw [empty] at waiting
      cases waiting
  | append_singleton labels l ih =>
      obtain ⟨b, hrun, hstep⟩ := run_concat_some.mp run_eq
      have earlier : b.actor.pendingStreams.get streamId = some reply →
          ∃ pre mid, labels ++ [l] = pre ++ Label.command :: mid ∧
            Allocated start pre reply streamId := by
        intro before
        obtain ⟨pre, mid, rfl, own⟩ := ih hrun before
        exact ⟨pre, mid ++ [l], by rw [List.append_assoc, List.cons_append], own⟩
      cases step_happens hstep with
      | call | callLate | enqueue | requestShutdown | finish => exact earlier waiting
      | @opened other rest a' next top pending asking =>
          rw [pending] at waiting
          by_cases due : streamId = b.actor.nextStreamId
          · rw [due, Table.get_insert_self] at waiting
            cases waiting
            refine ⟨labels, [], rfl, b, hrun, ?_, due.symm⟩
            rw [next, List.head?_cons]
          · rw [Table.get_insert_of_ne _ due] at waiting
            exact earlier waiting
      | resolved top free found kind pending =>
          rw [pending] at waiting
          exact earlier (Table.get_of_get_remove waiting)
      | shut next top pending | requested asking pending | requestFailed asking pending
        | other elsewhere pending =>
          rw [pending] at waiting
          exact earlier waiting

/-- An answer other than the errors of a lost sender comes from a frame. -/
theorem answer_step (happens : Happens s l t) {reply : ReplyId}
    {result : Except OpenError LogicalStream} (answered : (reply, result) ∈ t.answers) :
    (reply, result) ∈ s.answers ∨ result = .error .notSent ∨ result = .error .dropped ∨
      result = .error (.failed noResponse) ∨
      ∃ frame, l = .input (.frame frame) ∧ reply ∈ s.tasks.map Prod.snd ∧
        s.actor.streams.get frame.header.streamId = none ∧
        s.actor.pendingStreams.get frame.header.streamId = some reply ∧
        (frame.header.flags.isOpenResponse = true ∧
            (∃ c, result = .ok ⟨s.actor.sessionId, frame.header.streamId, .established, c⟩) ∨
          frame.header.flags.isOpenReset = true ∧
            result = .error (.failed (rejection frame.header.streamId))) := by
  cases happens with
  | call | enqueue | requestShutdown | shut | requested | other => exact .inl answered
  | callLate =>
      rcases List.mem_append.mp answered with old | new
      · exact .inl old
      · cases List.mem_singleton.mp new
        exact .inr (.inl rfl)
  | opened =>
      rcases List.mem_append.mp answered with old | new
      · exact .inl old
      · obtain ⟨task, -, same⟩ := List.mem_map.mp new
        cases same
        exact .inr (.inr (.inr (.inl rfl)))
  | @resolved frame caller value a' top free waiting kind =>
      rcases List.mem_append.mp answered with old | new
      · exact .inl old
      · obtain ⟨task, woken, same⟩ := List.mem_map.mp new
        obtain ⟨member, own⟩ := List.mem_filter.mp woken
        cases same
        cases of_decide_eq_true own
        exact .inr (.inr (.inr (.inr
          ⟨frame, rfl, List.mem_map_of_mem member, free, waiting, kind⟩)))
  | requestFailed =>
      rcases List.mem_append.mp answered with old | new
      · exact .inl old
      · obtain ⟨held, -, same⟩ := List.mem_map.mp new
        cases same
        exact .inr (.inr (.inl rfl))
  | finish =>
      simp only [Openers.finish, wake, List.mem_append, List.mem_map] at answered
      rcases answered with ((old | ⟨task, -, same⟩) | ⟨r, -, same⟩) | ⟨r, -, same⟩
      · exact .inl old
      · cases same
        exact .inr (.inr (.inr (.inl rfl)))
      · cases same
        exact .inr (.inl rfl)
      · cases same
        exact .inr (.inr (.inl rfl))

section Run
variable {side : SessionSide} {sessionId : SessionId} {labels : List Label}

/-- What a frame answers goes to the caller the frame's identifier was allocated to. -/
theorem answer_run (run_eq : run step (spawn side sessionId) labels = some s) {reply : ReplyId}
    {result : Except OpenError LogicalStream} (answered : (reply, result) ∈ s.answers) :
    result = .error .notSent ∨ result = .error .dropped ∨ result = .error (.failed noResponse) ∨
      ∃ streamId,
        (AnsweredBy FrameFlags.isOpenResponse (spawn side sessionId) labels reply streamId result ∧
            ∃ stream : LogicalStream, result = .ok stream ∧ stream.streamId = streamId) ∨
          AnsweredBy FrameFlags.isOpenReset (spawn side sessionId) labels reply streamId result ∧
            result = .error (.failed (rejection streamId)) := by
  induction labels using List.reverseRecOn generalizing s with
  | nil =>
      cases run_eq
      cases answered
  | append_singleton labels l ih =>
      -- the answer was there before the last label, or that label is the frame
      obtain ⟨b, hrun, hstep⟩ := run_concat_some.mp run_eq
      rcases answer_step (step_happens hstep) answered with
        old | lost | lost | lost | ⟨frame, rfl, runs, free, waiting, kind⟩
      · rcases ih hrun old with lost | lost | lost | ⟨streamId, ok | rejected⟩
        · exact .inl lost
        · exact .inr (.inl lost)
        · exact .inr (.inr (.inl lost))
        · exact .inr (.inr (.inr ⟨streamId, .inl ⟨ok.1.later [l], ok.2⟩⟩))
        · exact .inr (.inr (.inr ⟨streamId, .inr ⟨rejected.1.later [l], rejected.2⟩⟩))
      · exact .inl lost
      · exact .inr (.inl lost)
      · exact .inr (.inr (.inl lost))
      · obtain ⟨pre, mid, rfl, own⟩ := pending_allocated (fun _ => rfl) hrun waiting
        have by_frame : ∀ test : FrameFlags → Bool, test frame.header.flags = true →
            AnsweredBy test (spawn side sessionId)
              (pre ++ Label.command :: mid ++ [Label.input (.frame frame)]) reply frame.header.streamId
              result := by
          intro test flags
          refine ⟨pre, mid, frame, [], b, s, ?_, own, flags, rfl, hrun, free,
            (owned_run hrun).unanswered runs, hstep, answered⟩
          rw [List.append_assoc, List.cons_append]
        refine .inr (.inr (.inr ⟨frame.header.streamId, ?_⟩))
        rcases kind with ⟨response, c, ok⟩ | ⟨reset, rejected⟩
        · exact .inl ⟨by_frame _ response, _, ok, rfl⟩
        · exact .inr ⟨by_frame _ reset, rejected⟩

/-- A response or a rejection for an identifier that is neither registered nor waited
for is only logged. -/
theorem unknown_answer_ignored {frame : Frame}
    (kind : frame.header.flags.isOpenResponse = true ∨ frame.header.flags.isOpenReset = true)
    (free : s.actor.streams.get frame.header.streamId = none)
    (unknown : s.actor.pendingStreams.get frame.header.streamId = none)
    (hstep : s.step (.input (.frame frame)) = some t) : t = s := by
  obtain ⟨⟨a', es⟩, actor_step, rfl⟩ := Option.map_eq_some_iff.mp hstep
  cases SessionActor.step_cases actor_step with
  | forward top found =>
      rw [free] at found
      cases found
  | openRequest top _ request =>
      have others := FrameFlags.openRequest_only request
      rw [others.1, others.2] at kind
      simp at kind
  | openResponse top _ request response found =>
      rw [unknown] at found
      cases found
  | openReset top _ reset found =>
      rw [unknown] at found
      cases found
  | unknown top =>
      rw [handler_eq (by rw [top]; rfl)]
      rfl

/-- The answers of every run: at most one for a caller; a stream only from the response to
the caller's own request, a rejection only from the reset of it; no change by answers nobody
waits for; and an error for everyone left when the actor ends. -/
theorem open_replies_matched (run_eq : run step (spawn side sessionId) labels = some s) :
    (s.answers.map Prod.fst).Nodup ∧
    (∀ reply stream, (reply, .ok stream) ∈ s.answers →
      AnsweredBy FrameFlags.isOpenResponse (spawn side sessionId) labels reply stream.streamId
        (.ok stream)) ∧
    (∀ reply streamId, (reply, .error (.failed (rejection streamId))) ∈ s.answers →
      ∃ own, rejection own = rejection streamId ∧
        AnsweredBy FrameFlags.isOpenReset (spawn side sessionId) labels reply own
          (.error (.failed (rejection own)))) ∧
    (∀ frame t, frame.header.flags.isOpenResponse = true ∨ frame.header.flags.isOpenReset = true →
      s.actor.streams.get frame.header.streamId = none →
      s.actor.pendingStreams.get frame.header.streamId = none →
      s.step (.input (.frame frame)) = some t → t = s) ∧
    (s.actor.phase = .left → s.finished = false →
      ∃ t, s.step .finish = some t ∧ ∀ reply ∈ s.called, reply ∉ s.answers.map Prod.fst →
        ∃ e, (reply, .error e) ∈ t.answers) ∧
    (s.finished = true → ∀ reply ∈ s.called, reply ∈ s.answers.map Prod.fst) := by
  have owned := owned_run run_eq
  refine ⟨owned.answers_nodup, ?_, ?_, fun _ _ => unknown_answer_ignored, ?_, ?_⟩
  · intro reply stream answered
    rcases answer_run run_eq answered with lost | lost | lost | ⟨streamId, ok | rejected⟩
    · cases lost
    · cases lost
    · cases lost
    · obtain ⟨by_frame, own, same, rfl⟩ := ok
      cases same
      exact by_frame
    · cases rejected.2
  · intro reply streamId answered
    rcases answer_run run_eq answered with lost | lost | lost | ⟨own, ok | rejected⟩
    · cases lost
    · cases lost
    · have same : rejection streamId = noResponse := OpenError.failed.inj (Except.error.inj lost)
      exact absurd same (rejection_ne_noResponse streamId)
    · obtain ⟨-, stream, same, -⟩ := ok
      cases same
    · obtain ⟨by_frame, text⟩ := rejected
      have same := OpenError.failed.inj (Except.error.inj text)
      exact ⟨own, same.symm, same ▸ by_frame⟩
  · intro left running
    refine ⟨s.finish, if_pos ⟨left, running⟩, ?_⟩
    intro reply called unanswered
    exact owned.finish_answers called unanswered
  · intro finished reply called
    obtain ⟨no_sending, no_commands, no_handling, no_tasks⟩ := owned.ended finished
    have count := owned.places reply
    have there := List.count_pos_iff.mpr called
    rw [Openers.places, no_sending, no_commands, no_handling, no_tasks] at count
    apply List.count_pos_iff.mp
    simp only [callers, List.filterMap_nil, Option.toList_none, List.map_nil, List.count_nil] at count
    omega

/-- One call answered by a stream and one rejected. -/
theorem open_replies_matched_two_calls :
    let labels := [.call 0, .call 1, .enqueue 0, .enqueue 1, .command, .input (.resume true),
      .command, .input (.resume true),
      .input (.frame ((Frame.builder.withStreamId ⟨2⟩).withFlags .openReset).build),
      .input (.frame (openResponseFrame ⟨1⟩))]
    ∃ s, run step (spawn .client ⟨0⟩) labels = some s ∧
      s.answers.map Prod.fst = [1, 0] ∧ (s.answers.map Prod.fst).Nodup := by
  intro labels
  have answers : (run step (spawn .client ⟨0⟩) labels).map (fun s => s.answers.map Prod.fst) =
      some [1, 0] := rfl
  obtain ⟨s, run_eq, both⟩ := Option.map_eq_some_iff.mp answers
  exact ⟨s, run_eq, both, (open_replies_matched run_eq).1⟩

end Run

end Openers
end Foctet.Mux
