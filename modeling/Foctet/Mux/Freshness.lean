import Foctet.Mux.Allocation
import Mathlib.Data.List.Induction

/-! Whether an identifier that `OpenStream` allocates is new. The counter restarts at
the reserved identifier after the last one, and an identifier that the peer has chosen
for a stream of its own is not skipped. -/
namespace Foctet.Mux
open Foctet.Core Foctet.Lib

/-- The identifier that stands for the session itself. -/
def reservedStreamId : StreamId := ⟨0⟩

/-- After its last identifier an allocator hands out zero. -/
theorem nth_exhausted (first : StreamId) :
    first.nth (2 ^ 32 - first.id.toNat) = reservedStreamId := by
  have bound : first.id.toNat < 2 ^ 32 := first.id.toNat_lt
  have last : 2 ^ 32 - first.id.toNat = 2 ^ 32 - 1 - first.id.toNat + 1 := by omega
  have top : (first.nth (2 ^ 32 - 1 - first.id.toNat)).id.toNat = 2 ^ 32 - 1 := by
    rw [first.nth_toNat _ (by omega)]
    omega
  have full : ¬ (first.nth (2 ^ 32 - 1 - first.id.toNat)).id.toNat + (1 : UInt32).toNat < 2 ^ 32 := by
    rw [top]
    decide
  rw [last, StreamId.nth, StreamId.fetchAdd, checkedAddOrZero, if_neg full, reservedStreamId]

theorem nth_ne_reserved (first : StreamId) {k : Nat} (positive : 0 < first.id.toNat)
    (fits : first.id.toNat + k < 2 ^ 32) : first.nth k ≠ reservedStreamId := by
  intro zero
  have value := first.nth_toNat k fits
  rw [zero] at value
  have none_left : (0 : UInt32).toNat = first.id.toNat + k := value
  rw [UInt32.toNat_zero] at none_left
  omega

theorem firstStreamId_pos (side : SessionSide) : 0 < (firstStreamId side).id.toNat := by
  cases side <;> decide

/-- A run that has handled more than `n` commands to open has come to the one after
the first `n`. -/
theorem exists_open_at {inputs : List SessionActor.Input} {n : Nat}
    (more : n < handledOpens inputs) :
    ∃ pre reply post, inputs = pre ++ SessionActor.Input.command (.openStream reply) :: post ∧
      handledOpens pre = n := by
  induction inputs using List.reverseRecOn with
  | nil => exact absurd more (Nat.not_lt_zero n)
  | append_singleton inputs x ih =>
      by_cases earlier : n < handledOpens inputs
      · obtain ⟨pre, reply, post, rfl, count⟩ := ih earlier
        exact ⟨pre, reply, post ++ [x], by rw [List.append_assoc, List.cons_append], count⟩
      · rw [handledOpens_append] at more
        cases x with
        | command command =>
            cases command with
            | openStream reply =>
                have one : handledOpens [.command (.openStream reply)] = 1 := rfl
                exact ⟨inputs, reply, [], rfl, by omega⟩
            | shutdown reply => exact absurd more earlier
        | _ => exact absurd more earlier

/-- What has been handed out stays handed out. -/
theorem mem_upTo_append {first streamId : StreamId} {xs : List SessionActor.Input}
    (old : streamId ∈ first.upTo (handledOpens xs)) (ys : List SessionActor.Input) :
    streamId ∈ first.upTo (handledOpens (xs ++ ys)) := by
  obtain ⟨k, low, rfl⟩ := StreamId.mem_upTo.mp old
  rw [handledOpens_append]
  exact StreamId.mem_upTo.mpr ⟨k, Nat.lt_add_right _ low, rfl⟩

/-- An identifier that is due is not among those handed out before the counter has
run out. -/
theorem nth_not_mem_upTo {first : StreamId} {n : Nat} (fits : first.id.toNat + n < 2 ^ 32) :
    first.nth n ∉ first.upTo n := by
  intro old
  obtain ⟨k, low, same⟩ := StreamId.mem_upTo.mp old
  exact Nat.ne_of_lt low (first.nth_injective (by omega) fits same)

namespace SessionActor

/-- The identifier `OpenStream` is about to allocate is not the reserved one and is
neither registered nor waiting for a response. -/
def NewId (a : SessionActor) : Prop :=
  let streamId := (a.nextStreamId.fetchAdd 1).1
  streamId ≠ reservedStreamId ∧ a.streams.get streamId = none ∧
    a.pendingStreams.get streamId = none

/-- Every `OpenStream` of a run allocates a new identifier. -/
def AllocatesFresh (start : SessionActor) (inputs : List Input) : Prop :=
  ∀ pre reply post a es, inputs = pre ++ .command (.openStream reply) :: post →
    runOut step start pre = some (a, es) → a.NewId

/-- The peer has registered the identifier by an open request, and it has been
registered since. -/
def PeerHolds (start : SessionActor) (inputs : List Input) (streamId : StreamId) : Prop :=
  ∃ pre frame post, inputs = pre ++ .frame frame :: post ∧
    frame.header.flags.isOpenRequest = true ∧ frame.header.streamId = streamId ∧
    (∀ a es, runOut step start pre = some (a, es) → a.streams.get streamId = none) ∧
    ∀ held later, post = held ++ later → ∀ a es,
      runOut step start (pre ++ .frame frame :: held) = some (a, es) →
        a.streams.get streamId ≠ none

/-- At every `OpenStream` of a run the counter has not gone past its last value, and
the identifier that is due is not held by the peer. -/
def CounterClear (side : SessionSide) (start : SessionActor) (inputs : List Input) : Prop :=
  ∀ pre reply post, inputs = pre ++ .command (.openStream reply) :: post →
    (firstStreamId side).id.toNat + handledOpens pre < 2 ^ 32 ∧
      ¬ PeerHolds start pre ((firstStreamId side).nth (handledOpens pre))

variable {side : SessionSide} {sessionId : SessionId} {inputs : List Input} {a : SessionActor}
  {es : List Effect}

theorem run_nextStreamId (run_eq : runOut step (spawn side sessionId) inputs = some (a, es)) :
    a.nextStreamId = (firstStreamId side).nth (handledOpens inputs) := by
  induction inputs using List.reverseRecOn generalizing a es with
  | nil =>
      cases run_eq
      rfl
  | append_singleton inputs x ih =>
      obtain ⟨b, o, o', hrun, hstep, -⟩ := runOut_concat_some.mp run_eq
      rw [handledOpens_append]
      rcases step_nextStreamId (step_cases hstep) with ⟨-, next, one⟩ | ⟨-, next, zero⟩
      · rw [next, one, ih hrun, StreamId.nth]
      · rw [next, zero, ih hrun, Nat.add_zero]

/-- What is waiting for a response was allocated earlier in the run. -/
theorem run_pending_allocated
    (run_eq : runOut step (spawn side sessionId) inputs = some (a, es)) {streamId : StreamId}
    (waiting : a.pendingStreams.get streamId ≠ none) :
    streamId ∈ (firstStreamId side).upTo (handledOpens inputs) := by
  induction inputs using List.reverseRecOn generalizing a es with
  | nil =>
      cases run_eq
      exact absurd rfl waiting
  | append_singleton inputs x ih =>
      obtain ⟨b, o, o', hrun, hstep, -⟩ := runOut_concat_some.mp run_eq
      have earlier : b.pendingStreams.get streamId ≠ none →
          streamId ∈ (firstStreamId side).upTo (handledOpens (inputs ++ [x])) :=
        fun before => mem_upTo_append (ih hrun before) [x]
      cases step_cases hstep with
      | openStream top =>
          by_cases own : streamId = b.nextStreamId
          · rw [own, run_nextStreamId hrun]
            refine StreamId.mem_upTo.mpr ⟨handledOpens inputs, ?_, rfl⟩
            rw [handledOpens_append]
            exact Nat.lt_succ_self _
          · exact earlier (by rwa [Table.get_insert_of_ne _ own] at waiting)
      | openResponse | openReset => exact earlier (Table.get_ne_none_of_remove waiting)
      | _ => exact earlier waiting

theorem PeerHolds.snoc {start : SessionActor} {streamId : StreamId} {x : Input}
    (held : PeerHolds start inputs streamId)
    (run_eq : runOut step start (inputs ++ [x]) = some (a, es))
    (registered : a.streams.get streamId ≠ none) : PeerHolds start (inputs ++ [x]) streamId := by
  obtain ⟨pre, frame, post, rfl, request, own, free, since⟩ := held
  refine ⟨pre, frame, post ++ [x], by simp, request, own, free, ?_⟩
  intro reached later cut b os run_b
  -- a cut before the new input is one of the old cuts
  rcases List.eq_nil_or_concat later with rfl | ⟨later, y, rfl⟩
  · rw [List.append_nil] at cut
    subst cut
    rw [List.append_assoc, List.cons_append, run_b] at run_eq
    cases run_eq
    exact registered
  · rw [List.concat_eq_append, ← List.append_assoc] at cut
    exact since reached later (List.append_inj_left' cut rfl) b os run_b

/-- A registered identifier was allocated earlier in the run or is the peer's. -/
theorem run_registered (run_eq : runOut step (spawn side sessionId) inputs = some (a, es))
    {streamId : StreamId} (registered : a.streams.get streamId ≠ none) :
    streamId ∈ (firstStreamId side).upTo (handledOpens inputs) ∨
      PeerHolds (spawn side sessionId) inputs streamId := by
  induction inputs using List.reverseRecOn generalizing a es with
  | nil =>
      cases run_eq
      exact absurd rfl registered
  | append_singleton inputs x ih =>
      obtain ⟨b, o, o', hrun, hstep, -⟩ := runOut_concat_some.mp run_eq
      have earlier : b.streams.get streamId ≠ none →
          streamId ∈ (firstStreamId side).upTo (handledOpens (inputs ++ [x])) ∨
            PeerHolds (spawn side sessionId) (inputs ++ [x]) streamId := by
        intro before
        rcases ih hrun before with old | held
        · exact .inl (mem_upTo_append old [x])
        · exact .inr (held.snoc run_eq registered)
      cases step_cases hstep with
      | @openRequest frame top free request =>
          by_cases own : streamId = frame.header.streamId
          · subst own
            refine .inr ⟨inputs, frame, [], rfl, request, rfl, ?_, ?_⟩
            · intro c os run_c
              rw [hrun] at run_c
              cases run_c
              exact free
            · intro reached later cut c os run_c
              rw [(List.append_eq_nil_iff.mp cut.symm).1, run_eq] at run_c
              cases run_c
              exact registered
          · exact earlier (by rwa [Table.get_insert_of_ne _ own] at registered)
      | @openResponse frame reply top free request response waiting =>
          by_cases own : streamId = frame.header.streamId
          · subst own
            have asked := run_pending_allocated hrun
              (by rw [waiting]; exact Option.some_ne_none reply)
            exact .inl (mem_upTo_append asked [.frame frame])
          · exact earlier (by rwa [Table.get_insert_of_ne _ own] at registered)
      | cancelled | readError | requestFailed | writeFailed => exact absurd rfl registered
      | eventClosed | forwardFailed | announceFailed =>
          exact earlier (Table.get_ne_none_of_remove registered)
      | _ => exact earlier registered

theorem PeerHolds.registered {start : SessionActor} {streamId : StreamId}
    (held : PeerHolds start inputs streamId) (run_eq : runOut step start inputs = some (a, es)) :
    a.streams.get streamId ≠ none := by
  obtain ⟨pre, frame, post, rfl, -, -, -, since⟩ := held
  exact since post [] (List.append_nil post).symm a es run_eq

/-- With the counter run out, an earlier `OpenStream` was given the reserved identifier. -/
theorem AllocatesFresh.counter_fits (fresh : AllocatesFresh (spawn side sessionId) inputs)
    (run_eq : runOut step (spawn side sessionId) inputs = some (a, es)) {pre post : List Input}
    {reply : ReplyId} (cut : inputs = pre ++ Input.command (.openStream reply) :: post) :
    (firstStreamId side).id.toNat + handledOpens pre < 2 ^ 32 := by
  by_contra out
  have handled : 2 ^ 32 - (firstStreamId side).id.toNat <
      handledOpens (pre ++ [Input.command (.openStream reply)]) := by
    have one : handledOpens [.command (.openStream reply)] = 1 := rfl
    rw [handledOpens_append]
    omega
  -- the counter came to zero when exactly this many had been handled
  obtain ⟨pre', reply', post', cut', count⟩ := exists_open_at handled
  have whole : inputs = pre' ++ Input.command (.openStream reply') :: (post' ++ post) := by
    rw [cut, ← List.cons_append, ← List.append_assoc, ← cut', List.append_assoc,
      List.singleton_append]
  rw [whole] at run_eq
  obtain ⟨c, os, -, run_c, -⟩ := runOut_append_some.mp run_eq
  apply (fresh pre' reply' _ c os whole run_c).1
  rw [StreamId.fetchAdd, run_nextStreamId run_c, count, nth_exhausted]

/-- The identifiers of a run are fresh exactly as long as the counter has not run out
and never comes to an identifier that the peer holds. -/
theorem allocated_fresh_iff
    (run_eq : runOut step (spawn side sessionId) inputs = some (a, es)) :
    AllocatesFresh (spawn side sessionId) inputs ↔
      CounterClear side (spawn side sessionId) inputs := by
  constructor
  · intro fresh pre reply post cut
    refine ⟨fresh.counter_fits run_eq cut, ?_⟩
    intro held
    rw [cut] at run_eq
    obtain ⟨b, os, -, run_b, -⟩ := runOut_append_some.mp run_eq
    rw [← run_nextStreamId run_b] at held
    exact held.registered run_b (fresh pre reply post b os cut run_b).2.1
  · intro clear pre reply post b os cut run_b
    obtain ⟨fits, unheld⟩ := clear pre reply post cut
    have due : (b.nextStreamId.fetchAdd 1).1 = (firstStreamId side).nth (handledOpens pre) :=
      run_nextStreamId run_b
    rw [NewId, due]
    refine ⟨nth_ne_reserved _ (firstStreamId_pos side) fits, ?_, ?_⟩
    · by_contra registered
      rcases run_registered run_b registered with old | held
      · exact nth_not_mem_upTo fits old
      · exact unheld held
    · by_contra waiting
      exact nth_not_mem_upTo fits (run_pending_allocated run_b waiting)

/-- The peer opens stream 9, and then a caller opens two streams. -/
def opensBesidePeer : List Input :=
  [.frame (openRequestFrame ⟨9⟩), .resume true, .resume true, .command (.openStream 0), .resume true,
    .frame (openResponseFrame ⟨1⟩), .command (.openStream 1), .resume true]

theorem opens_beside_peer_fresh : AllocatesFresh (spawn .client ⟨0⟩) opensBesidePeer := by
  refine (allocated_fresh_iff rfl).mpr ?_
  intro pre reply post cut
  have few : handledOpens pre < 2 := by
    have both : handledOpens opensBesidePeer = 2 := rfl
    have this_one : handledOpens (.command (.openStream reply) :: post) = handledOpens post + 1 :=
      List.countP_cons_of_pos rfl
    rw [cut, handledOpens_append, this_one] at both
    omega
  have first : (firstStreamId .client).id.toNat = 1 := rfl
  refine ⟨by omega, ?_⟩
  rintro ⟨earlier, frame, later, taken, request, own, -⟩
  have arrived : Input.frame frame ∈ opensBesidePeer := by
    rw [cut, taken]
    simp
  obtain rfl | rfl : frame = openRequestFrame ⟨9⟩ ∨ frame = openResponseFrame ⟨1⟩ := by
    simpa [opensBesidePeer] using arrived
  · -- the two identifiers of the caller are 1 and 2
    obtain none_before | one_before : handledOpens pre = 0 ∨ handledOpens pre = 1 := by omega
    · rw [none_before] at own
      exact absurd own (by decide)
    · rw [one_before] at own
      exact absurd own (by decide)
  · exact absurd request (by decide)

/-- The peer opens stream 1, and the client then allocates 1 to its own caller. -/
theorem open_takes_peer_id :
    let inputs := [.frame (openRequestFrame ⟨1⟩), .resume true, .resume true,
      .command (.openStream 0)]
    (∃ a es, runOut step (spawn .client ⟨0⟩) inputs = some (a, es)) ∧
      ¬ AllocatesFresh (spawn .client ⟨0⟩) inputs := by
  intro inputs
  refine ⟨⟨_, _, rfl⟩, ?_⟩
  intro fresh
  have new := fresh [.frame (openRequestFrame ⟨1⟩), .resume true, .resume true] 0 [] _ _ rfl rfl
  exact absurd new.2.1 (by decide)

end SessionActor
end Foctet.Mux
