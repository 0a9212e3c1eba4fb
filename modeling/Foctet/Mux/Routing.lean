import Foctet.Mux.SessionSteps

/-! Routing by one session actor, whatever the peer sends. Each registration of an
identifier owns its channel from the step that inserts it to the step that removes
it, and gets exactly the frames that arrive in between. -/
namespace Foctet.Mux
open Foctet.Core Foctet.Lib

namespace SessionActor

/-- The incoming frames for one identifier, in order. -/
def arrivals (i : StreamId) (inputs : List Input) : List Frame :=
  inputs.filterMap fun
    | .frame f => if f.header.streamId = i then some f else none
    | _ => none

/-- The frames put on one channel, in order. -/
def puts (c : ChannelId) (effects : List Effect) : List Frame :=
  effects.filterMap fun
    | .put c' f => if c' = c then some f else none
    | _ => none

theorem puts_append (c : ChannelId) (es fs : List Effect) :
    puts c (es ++ fs) = puts c es ++ puts c fs := List.filterMap_append

/-- The frame taken off the reader whose send to the channel has not ended yet. -/
def held (c : ChannelId) (a : SessionActor) : List Frame :=
  match a.phase with
  | .awaiting (.forward _ c' f) => if c' = c then [f] else []
  | _ => []

/-- Channels are given out once, each live entry has its own, and a suspended
handler still finds the entry it works on. -/
structure Wired (a : SessionActor) : Prop where
  fresh : ∀ i c, a.streams.get i = some c → c < a.nextChannel
  distinct : ∀ i j c, a.streams.get i = some c → a.streams.get j = some c → i = j
  forward : ∀ i c f, a.phase = .awaiting (.forward i c f) →
    a.streams.get i = some c ∧ f.header.streamId = i
  announce : ∀ s, a.phase = .awaiting (.announce s) →
    a.streams.get s.streamId = some s.frameReceiver

theorem wired_spawn (side : SessionSide) (sessionId : SessionId) : Wired (spawn side sessionId) where
  fresh i c h := by cases h
  distinct i j c h := by cases h
  forward i c f h := by cases h
  announce s h := by cases h

/-- Inserting a new channel under an absent identifier keeps the wiring. -/
theorem insert_distinct {a : SessionActor} (h : Wired a) (k : StreamId) :
    (∀ i c, (a.streams.insert k a.nextChannel).get i = some c → c < a.nextChannel + 1) ∧
    (∀ i j c, (a.streams.insert k a.nextChannel).get i = some c →
      (a.streams.insert k a.nextChannel).get j = some c → i = j) := by
  constructor
  · refine Table.forall_insert (Nat.lt_succ_self _) ?_
    intro i c _ hi
    exact Nat.lt_succ_of_lt (h.fresh i c hi)
  · intro i j c hi hj
    rw [Table.get_insert] at hi hj
    split at hi <;> split at hj
    · rename_i ei ej
      rw [ei, ej]
    · cases hi
      exact absurd (h.fresh j _ hj) (Nat.lt_irrefl _)
    · cases hj
      exact absurd (h.fresh i _ hi) (Nat.lt_irrefl _)
    · exact h.distinct i j c hi hj

theorem wired_step {a a' : SessionActor} {x : Input} {es : List Effect} (h : Step a x a' es)
    (w : Wired a) : Wired a' := by
  cases h with
  | cancelled hphase | readError hphase | requestFailed hphase | writeFailed hphase =>
      exact ⟨fun i c hi => (by cases hi), fun i j c hi => (by cases hi), fun i c f hi => (by cases hi),
        fun s hi => (by cases hi)⟩
  | eof hphase | unknown hphase | eventError hphase => exact w
  | forward hphase hs =>
      refine ⟨w.fresh, w.distinct, ?_, fun s hi => (by cases hi)⟩
      intro i c f hi
      cases hi
      exact ⟨hs, rfl⟩
  | openRequest hphase hs hreq =>
      obtain ⟨fresh, distinct⟩ := insert_distinct w _
      refine ⟨fresh, distinct, fun i c f hi => (by cases hi), ?_⟩
      intro s hi
      cases hi
      exact Table.get_insert_self _ _ _
  | openResponse hphase hs hreq hresp hp =>
      obtain ⟨fresh, distinct⟩ := insert_distinct w _
      refine ⟨fresh, distinct, ?_, ?_⟩
      · intro i c f hi
        rw [hphase] at hi
        cases hi
      · intro s hi
        rw [hphase] at hi
        cases hi
  | openReset hphase hs hreset hp | shutdownCommand hphase =>
      exact ⟨w.fresh, w.distinct, w.forward, w.announce⟩
  | openStream hphase | eventFrame hphase =>
      exact ⟨w.fresh, w.distinct, fun i c f hi => (by cases hi), fun s hi => (by cases hi)⟩
  | eventClosed hphase =>
      refine ⟨fun i c hi => w.fresh i c (Table.get_of_get_remove hi),
        fun i j c hi hj => w.distinct i j c (Table.get_of_get_remove hi)
          (Table.get_of_get_remove hj), ?_, ?_⟩
      · intro i c f hi
        rw [hphase] at hi
        cases hi
      · intro s hi
        rw [hphase] at hi
        cases hi
  | forwardFailed hphase | announceFailed hphase =>
      exact ⟨fun i c hi => w.fresh i c (Table.get_of_get_remove hi),
        fun i j c hi hj => w.distinct i j c (Table.get_of_get_remove hi)
          (Table.get_of_get_remove hj),
        fun i c f hi => (by cases hi), fun s hi => (by cases hi)⟩
  | forwarded hphase | announced hphase | responded hphase | respondFailed hphase
    | requested hphase | written hphase =>
      exact ⟨w.fresh, w.distinct, fun i c f hi => (by cases hi), fun s hi => (by cases hi)⟩

/-- Channel numbers only grow, and an entry only ever changes from absent to the
next number, or to absent. -/
theorem step_entry {a a' : SessionActor} {x : Input} {es : List Effect} (h : Step a x a' es)
    (i : StreamId) :
    a.nextChannel ≤ a'.nextChannel ∧
    (a'.streams.get i = a.streams.get i ∨ a'.streams.get i = none ∨
      a.streams.get i = none ∧ a'.streams.get i = some a.nextChannel ∧
        a'.nextChannel = a.nextChannel + 1) := by
  cases h with
  | cancelled | readError | requestFailed | writeFailed => exact ⟨Nat.le_refl _, .inr (.inl rfl)⟩
  | eof | forward | openReset | unknown | openStream | shutdownCommand | eventFrame
    | eventError | forwarded | announced | responded | respondFailed | requested | written =>
      exact ⟨Nat.le_refl _, .inl rfl⟩
  | openRequest hphase hs | openResponse hphase hs =>
      refine ⟨Nat.le_succ _, ?_⟩
      rw [Table.get_insert]
      split
      · rename_i same
        exact .inr (.inr ⟨same ▸ hs, rfl, rfl⟩)
      · exact .inl rfl
  | eventClosed | forwardFailed | announceFailed =>
      refine ⟨Nat.le_refl _, ?_⟩
      rw [Table.get_remove]
      split
      · exact .inr (.inl rfl)
      · exact .inl rfl

/-- An insert never overwrites: an entry present before and after a step is the same entry. -/
theorem step_keeps_entry {a a' : SessionActor} {x : Input} {es : List Effect}
    (h : Step a x a' es) {i : StreamId} {c c' : ChannelId} (before : a.streams.get i = some c)
    (after : a'.streams.get i = some c') : c' = c := by
  rcases (step_entry h i).2 with same | gone | ⟨absent, -, -⟩
  · rw [same, before] at after
    exact (Option.some.inj after).symm
  · rw [gone] at after
    cases after
  · rw [absent] at before
    cases before

/-- A channel that has been given out is never given out again. -/
theorem step_not_entry {a a' : SessionActor} {x : Input} {es : List Effect} (h : Step a x a' es)
    {i : StreamId} {c : ChannelId} (old : c < a.nextChannel) (out : a.streams.get i ≠ some c) :
    a'.streams.get i ≠ some c := by
  rcases (step_entry h i).2 with same | gone | ⟨-, new, -⟩
  · rw [same]
    exact out
  · rw [gone]
    exact fun h => by cases h
  · rw [new]
    intro hc
    exact absurd (Option.some.inj hc) (Nat.ne_of_gt old)

theorem run_not_entry {a b : SessionActor} {inputs : List Input} {es : List Effect}
    (h : runOut step a inputs = some (b, es)) {i : StreamId} {c : ChannelId}
    (old : c < a.nextChannel) (out : a.streams.get i ≠ some c) : b.streams.get i ≠ some c := by
  have kept := runOut_invariant (fun s => c < s.nextChannel ∧ s.streams.get i ≠ some c)
    (fun s l s' o hstep hs => ⟨Nat.lt_of_lt_of_le hs.1 (step_entry (step_cases hstep) i).1,
      step_not_entry (step_cases hstep) hs.1 hs.2⟩) h ⟨old, out⟩
  exact kept.2

/-- A step that keeps the entry adds to the channel exactly the frame that arrived;
a frame passes through `held` while its send is pending. -/
theorem step_live {a a' : SessionActor} {x : Input} {es : List Effect} (h : Step a x a' es)
    (w : Wired a) {i : StreamId} {c : ChannelId} (before : a.streams.get i = some c)
    (after : a'.streams.get i = some c) :
    puts c es ++ held c a' = held c a ++ arrivals i [x] := by
  cases h with
  | cancelled | readError | requestFailed | writeFailed => cases after
  | eof hphase | openStream hphase | shutdownCommand hphase | eventFrame hphase
    | eventClosed hphase | eventError hphase =>
      simp [puts, held, arrivals, hphase]
  | @forward frame sender hphase hs =>
      by_cases mine : frame.header.streamId = i
      · have : sender = c := Option.some.inj (hs.symm.trans (mine ▸ before))
        simp [puts, held, arrivals, hphase, mine, this]
      · have : sender ≠ c := by
          rintro rfl
          exact mine (w.distinct _ _ _ hs before)
        simp [puts, held, arrivals, hphase, mine, this]
  | @openRequest frame hphase hs | @openResponse frame _ hphase hs
    | @openReset frame _ hphase hs | @unknown frame hphase hs =>
      have : frame.header.streamId ≠ i := by
        rintro rfl
        rw [before] at hs
        cases hs
      simp [puts, held, arrivals, hphase, this]
  | @forwarded streamId sender frame hphase =>
      by_cases mine : sender = c <;> simp [puts, held, arrivals, hphase, mine]
  | @forwardFailed streamId sender frame hphase =>
      have other : streamId ≠ i := by
        rintro rfl
        rw [Table.get_remove_self] at after
        cases after
      have : sender ≠ c := by
        rintro rfl
        exact other (w.distinct _ _ _ (w.forward _ _ _ hphase).1 before)
      simp [puts, held, arrivals, hphase, this]
  | announced hphase | announceFailed hphase | responded hphase | respondFailed hphase
    | requested hphase | written hphase =>
      simp [puts, held, arrivals, hphase]

theorem run_live {a b : SessionActor} {inputs : List Input} {es : List Effect}
    (h : runOut step a inputs = some (b, es)) (w : Wired a) {i : StreamId} {c : ChannelId}
    (before : a.streams.get i = some c) (after : b.streams.get i = some c) :
    puts c es ++ held c b = held c a ++ arrivals i inputs := by
  induction inputs generalizing a es with
  | nil =>
      cases h
      simp [puts, arrivals]
  | cons x inputs ih =>
      obtain ⟨a', e, rest, hstep, hrest, rfl⟩ := runOut_cons_some.mp h
      have hs := step_cases hstep
      have old := Nat.lt_of_lt_of_le (w.fresh i c before) (step_entry hs i).1
      have still : a'.streams.get i = some c := by
        by_contra out
        exact run_not_entry hrest old out after
      have now := step_live hs w before still
      have later := ih hrest (wired_step hs w) still
      have split : arrivals i (x :: inputs) = arrivals i [x] ++ arrivals i inputs := by
        simp only [arrivals, ← List.filterMap_append, List.singleton_append]
      rw [puts_append, split, List.append_assoc, later, ← List.append_assoc, now, List.append_assoc]

/-- A channel that no entry holds gets nothing. -/
theorem step_dead {a a' : SessionActor} {x : Input} {es : List Effect} (h : Step a x a' es)
    (w : Wired a) {c : ChannelId} (out : ∀ j, a.streams.get j ≠ some c) : puts c es = [] := by
  cases h with
  | @forwarded streamId sender frame hphase =>
      have : sender ≠ c := by
        rintro rfl
        exact out streamId (w.forward _ _ _ hphase).1
      simp [puts, this]
  | _ => simp [puts]

theorem run_dead {a b : SessionActor} {inputs : List Input} {es : List Effect}
    (h : runOut step a inputs = some (b, es)) (w : Wired a) {c : ChannelId}
    (old : c < a.nextChannel) (out : ∀ j, a.streams.get j ≠ some c) : puts c es = [] := by
  induction inputs generalizing a es with
  | nil => cases h; rfl
  | cons x inputs ih =>
      obtain ⟨a', e, rest, hstep, hrest, rfl⟩ := runOut_cons_some.mp h
      have hs := step_cases hstep
      have later := ih hrest (wired_step hs w)
        (Nat.lt_of_lt_of_le old (step_entry hs ⟨0⟩).1) (fun j => step_not_entry hs old (out j))
      rw [puts_append, step_dead hs w out, later]
      rfl

/-- A channel that has not been given out yet has got nothing. -/
theorem run_unborn {a b : SessionActor} {inputs : List Input} {es : List Effect}
    (h : runOut step a inputs = some (b, es)) (w : Wired a) {c : ChannelId}
    (unborn : b.nextChannel ≤ c) : puts c es = [] := by
  induction inputs generalizing a es with
  | nil => cases h; rfl
  | cons x inputs ih =>
      obtain ⟨a', e, rest, hstep, hrest, rfl⟩ := runOut_cons_some.mp h
      have hs := step_cases hstep
      have grows : a'.nextChannel ≤ b.nextChannel :=
        runOut_invariant (fun s => a'.nextChannel ≤ s.nextChannel)
          (fun s l s' o hl hle => Nat.le_trans hle (step_entry (step_cases hl) ⟨0⟩).1) hrest
          (Nat.le_refl _)
      have out : ∀ j, a.streams.get j ≠ some c := by
        intro j hj
        have born := Nat.lt_of_lt_of_le (w.fresh j c hj) (step_entry hs j).1
        exact absurd (Nat.le_trans grows unborn) (Nat.not_le.mpr born)
      rw [puts_append, step_dead hs w out, ih hrest (wired_step hs w)]
      rfl

/-- A registering step takes the next channel and puts nothing on it: the frame
that opened the stream is consumed. -/
theorem step_registers {a a' : SessionActor} {x : Input} {es : List Effect} (h : Step a x a' es)
    {i : StreamId} {c : ChannelId} (absent : a.streams.get i = none)
    (present : a'.streams.get i = some c) :
    c = a.nextChannel ∧ puts c es = [] ∧ held c a' = [] := by
  have hc : c = a.nextChannel := by
    rcases (step_entry h i).2 with same | gone | ⟨-, new, -⟩
    · rw [same, absent] at present
      cases present
    · rw [gone] at present
      cases present
    · exact Option.some.inj (present.symm.trans new)
  cases h with
  | openRequest hphase hs | openResponse hphase hs => simp [puts, held, hphase, hc]
  | cancelled | readError | requestFailed | writeFailed => cases present
  | eventClosed hphase | forwardFailed hphase | announceFailed hphase =>
      rw [Table.get_of_get_remove present] at absent
      cases absent
  | _ => exact absurd (absent.symm.trans present) (by simp)

/-- The step that removes an entry puts nothing on its channel. -/
theorem step_removes {a a' : SessionActor} {x : Input} {es : List Effect} (h : Step a x a' es)
    {i : StreamId} {c : ChannelId} (live : a.streams.get i = some c)
    (gone : a'.streams.get i ≠ some c) : puts c es = [] := by
  cases h with
  | forwarded hphase => exact absurd live gone
  | _ => simp [puts]

/-- The handler of a frame for `j` is suspended, if at all, on something of `j`. -/
def Serving (j : StreamId) (a : SessionActor) : Prop :=
  a.phase = .select ∨ (∃ c f, a.phase = .awaiting (.forward j c f)) ∨
    (∃ s, a.phase = .awaiting (.announce s) ∧ s.streamId = j) ∨ ∃ f, a.phase = .awaiting (.respond f)

/-- Two actors agree on everything that belongs to an identifier other than `j`,
and no channel of another identifier got a frame. -/
def SameOff (j : StreamId) (a a' : SessionActor) (es : List Effect) : Prop :=
  ∀ i, i ≠ j → a'.streams.get i = a.streams.get i ∧
    a'.pendingStreams.get i = a.pendingStreams.get i ∧
    ∀ c, a.streams.get i = some c → puts c es = []

theorem frame_serving {a a' : SessionActor} {f : Frame} {es : List Effect}
    (h : Step a (.frame f) a' es) :
    Serving f.header.streamId a' ∧ SameOff f.header.streamId a a' es := by
  cases h with
  | @forward _ sender hphase hs =>
      exact ⟨.inr (.inl ⟨sender, f, rfl⟩), fun i _ => ⟨rfl, rfl, fun _ _ => rfl⟩⟩
  | openRequest hphase hs hreq =>
      exact ⟨.inr (.inr (.inl ⟨_, rfl, rfl⟩)),
        fun i other => ⟨Table.get_insert_of_ne _ other _, rfl, fun _ _ => rfl⟩⟩
  | openResponse hphase hs hreq hresp hp =>
      exact ⟨.inl hphase, fun i other => ⟨Table.get_insert_of_ne _ other _,
        Table.get_remove_of_ne _ other, fun _ _ => rfl⟩⟩
  | openReset hphase hs hreset hp =>
      exact ⟨.inl hphase, fun i other => ⟨rfl, Table.get_remove_of_ne _ other, fun _ _ => rfl⟩⟩
  | unknown hphase => exact ⟨.inl hphase, fun i _ => ⟨rfl, rfl, fun _ _ => rfl⟩⟩

theorem resume_serving {a a' : SessionActor} {ok : Bool} {es : List Effect} {j : StreamId}
    (h : Step a (.resume ok) a' es) (w : Wired a) (hj : Serving j a) :
    Serving j a' ∧ SameOff j a a' es := by
  cases h with
  | @forwarded streamId sender frame hphase =>
      simp only [Serving, hphase, reduceCtorEq, Phase.awaiting.injEq, Await.forward.injEq,
        false_and, exists_false, or_false, false_or] at hj
      obtain ⟨c, f, rfl, rfl, rfl⟩ := hj
      refine ⟨.inl rfl, fun i other => ⟨rfl, rfl, ?_⟩⟩
      intro c hc
      have : sender ≠ c := by
        rintro rfl
        exact other (w.distinct _ _ _ hc (w.forward _ _ _ hphase).1)
      simp [puts, this]
  | @forwardFailed streamId sender frame hphase =>
      simp only [Serving, hphase, reduceCtorEq, Phase.awaiting.injEq, Await.forward.injEq,
        false_and, exists_false, or_false, false_or] at hj
      obtain ⟨c, f, rfl, rfl, rfl⟩ := hj
      exact ⟨.inl rfl, fun i other => ⟨Table.get_remove_of_ne _ other, rfl, fun _ _ => rfl⟩⟩
  | @announced stream hphase =>
      exact ⟨.inr (.inr (.inr ⟨_, rfl⟩)), fun i _ => ⟨rfl, rfl, fun _ _ => rfl⟩⟩
  | @announceFailed stream hphase =>
      simp only [Serving, hphase, reduceCtorEq, Phase.awaiting.injEq, Await.announce.injEq,
        exists_false, or_false, false_or] at hj
      obtain ⟨s, rfl, rfl⟩ := hj
      exact ⟨.inr (.inr (.inr ⟨_, rfl⟩)),
        fun i other => ⟨Table.get_remove_of_ne _ other, rfl, fun _ _ => rfl⟩⟩
  | responded hphase => exact ⟨.inl rfl, fun i _ => ⟨rfl, rfl, fun _ _ => rfl⟩⟩
  | respondFailed hphase => exact ⟨.inl rfl, fun i _ => ⟨rfl, rfl, fun _ _ => rfl⟩⟩
  | requested hphase | requestFailed hphase | written hphase | writeFailed hphase =>
      simp [Serving, hphase] at hj

theorem SameOff.trans {j : StreamId} {a b c : SessionActor} {es fs : List Effect}
    (hab : SameOff j a b es) (hbc : SameOff j b c fs) : SameOff j a c (es ++ fs) := by
  intro i other
  obtain ⟨s₁, p₁, q₁⟩ := hab i other
  obtain ⟨s₂, p₂, q₂⟩ := hbc i other
  refine ⟨s₂.trans s₁, p₂.trans p₁, fun ch hch => ?_⟩
  rw [puts_append, q₁ ch hch, q₂ ch (s₁.trans hch)]
  rfl

theorem resumes_serving {a b : SessionActor} {oks : List Bool} {es : List Effect} {j : StreamId}
    (h : runOut step a (oks.map Input.resume) = some (b, es)) (w : Wired a) (hj : Serving j a) :
    SameOff j a b es := by
  induction oks generalizing a es with
  | nil =>
      cases h
      exact fun i _ => ⟨rfl, rfl, fun _ _ => rfl⟩
  | cons ok oks ih =>
      obtain ⟨a', e, rest, hstep, hrest, rfl⟩ := runOut_cons_some.mp h
      have hs := step_cases hstep
      obtain ⟨hj', now⟩ := resume_serving hs w hj
      exact now.trans (ih hrest (wired_step hs w) hj')

/-- What happens to a frame whose send is pending: it is put, or the failed send
removes the entry and puts nothing. -/
theorem held_resume {a : SessionActor} {i : StreamId} {c : ChannelId} {f : Frame} (w : Wired a)
    (live : a.streams.get i = some c) (h : held c a = [f]) :
    (∃ b, a.step (.resume true) = some (b, [.put c f])) ∧
      ∃ b, a.step (.resume false) = some (b, []) ∧ b.streams.get i = none := by
  unfold held at h
  split at h
  · rename_i k c' g hphase
    split at h
    · rename_i same
      cases h
      subst same
      have hk := w.distinct _ _ _ (w.forward _ _ _ hphase).1 live
      subst hk
      refine ⟨⟨{ a with phase := .select }, ?_⟩,
        ⟨{ a with streams := a.streams.remove k, phase := .select }, ?_,
          Table.get_remove_self _ _⟩⟩
      · simp only [step, hphase, resume]
      · simp only [step, hphase, resume]
    · cases h
  · cases h

/-- A channel whose entry a step takes out gets nothing more and is never put back. -/
theorem run_removed {a b d : SessionActor} {i : StreamId} {c : ChannelId} {x : Input}
    {post : List Input} {es fs : List Effect} (w : Wired a) (live : a.streams.get i = some c)
    (hstep : a.step x = some (b, es)) (gone : b.streams.get i ≠ some c)
    (hpost : runOut step b post = some (d, fs)) :
    puts c (es ++ fs) = [] ∧ d.streams.get i ≠ some c := by
  have hs := step_cases hstep
  have old := Nat.lt_of_lt_of_le (w.fresh i c live) (step_entry hs i).1
  have out : ∀ j, b.streams.get j ≠ some c := by
    intro j hj
    by_cases same : j = i
    · exact gone (same ▸ hj)
    · refine step_not_entry hs (w.fresh i c live) ?_ hj
      intro before
      exact same (w.distinct j i c before live)
  refine ⟨?_, run_not_entry hpost old gone⟩
  rw [puts_append, run_dead hpost (wired_step hs w) old out, List.append_nil]
  exact step_removes hs live gone

/-- Against any peer: an insert never overwrites a live entry; the channel of each
registration gets exactly the frames for its identifier that arrive while the
entry lives, in order, up to the one whose send is still pending, and nothing
before or after; a pending send either puts its frame or removes the entry;
handling a frame touches nothing of another identifier. -/
theorem routing_isolation (side : SessionSide) (sessionId : SessionId) (inputs : List Input)
    (a : SessionActor) (es : List Effect)
    (reached : runOut step (spawn side sessionId) inputs = some (a, es)) :
    (∀ x a₁ es₁, a.step x = some (a₁, es₁) → ∀ i c c', a.streams.get i = some c →
      a₁.streams.get i = some c' → c' = c) ∧
    (∀ x a₁ es₁ i c, a.step x = some (a₁, es₁) → a.streams.get i = none →
      a₁.streams.get i = some c →
      puts c (es ++ es₁) = [] ∧
      ∀ mid a₂ es₂, runOut step a₁ mid = some (a₂, es₂) → a₂.streams.get i = some c →
        puts c es₂ ++ held c a₂ = arrivals i mid ∧
        (∀ f, held c a₂ = [f] →
          (∃ b, a₂.step (.resume true) = some (b, [.put c f])) ∧
          ∃ b, a₂.step (.resume false) = some (b, []) ∧ b.streams.get i = none) ∧
        ∀ y a₃ es₃ post a₄ es₄, a₂.step y = some (a₃, es₃) → a₃.streams.get i ≠ some c →
          runOut step a₃ post = some (a₄, es₄) →
          puts c (es₃ ++ es₄) = [] ∧ a₄.streams.get i ≠ some c) ∧
    (∀ (f : Frame) (oks : List Bool) b es', runOut step a (.frame f :: oks.map Input.resume) = some (b, es') →
      SameOff f.header.streamId a b es') := by
  have w : Wired a := runOut_invariant Wired (fun s l s' o hstep hs => wired_step (step_cases hstep) hs)
    reached (wired_spawn side sessionId)
  refine ⟨?_, ?_, ?_⟩
  · intro x a₁ es₁ hstep i c c' before after
    exact step_keeps_entry (step_cases hstep) before after
  · intro x a₁ es₁ i c hstep absent present
    have hs := step_cases hstep
    have w₁ := wired_step hs w
    obtain ⟨hc, quiet, idle⟩ := step_registers hs absent present
    refine ⟨?_, ?_⟩
    · rw [puts_append, quiet, run_unborn reached (wired_spawn side sessionId) (Nat.le_of_eq hc.symm)]
      rfl
    · intro mid a₂ es₂ hmid live
      have w₂ : Wired a₂ := runOut_invariant Wired
        (fun s l s' o hl hw => wired_step (step_cases hl) hw) hmid w₁
      have exact_put := run_live hmid w₁ present live
      rw [idle, List.nil_append] at exact_put
      refine ⟨exact_put, fun f hf => held_resume w₂ live hf, ?_⟩
      intro y a₃ es₃ post a₄ es₄ hy gone hpost
      exact run_removed w₂ live hy gone hpost
  · intro f oks b es' h
    obtain ⟨a', e, rest, hstep, hrest, rfl⟩ := runOut_cons_some.mp h
    have hs := step_cases hstep
    obtain ⟨hj, now⟩ := frame_serving hs
    exact now.trans (resumes_serving hrest (wired_step hs w) hj)

/-- A server registers stream 5 and routes one data frame to it; the open request
is not on the channel, a second frame is still being sent. -/
theorem routing_isolation_stream_five :
    let first := bytesFrame ⟨5⟩ [1]
    let second := bytesFrame ⟨5⟩ [2]
    ∃ a es, runOut step (spawn .server ⟨1⟩) [.frame (openRequestFrame ⟨5⟩)] = some (a, es) ∧
      ∃ b fs, runOut step a [.resume true, .resume true, .frame first, .resume true,
        .frame (bytesFrame ⟨6⟩ [9]), .frame second] = some (b, fs) ∧
        puts 0 fs ++ held 0 b = [first, second] := by
  intro first second
  refine ⟨_, _, rfl, _, _, rfl, ?_⟩
  exact (((routing_isolation .server ⟨1⟩ [] _ _ rfl).2.1 (.frame (openRequestFrame ⟨5⟩)) _ _ ⟨5⟩ 0
    rfl rfl rfl).2 [.resume true, .resume true, .frame first, .resume true,
      .frame (bytesFrame ⟨6⟩ [9]), .frame second] _ _ rfl rfl).1

end SessionActor
end Foctet.Mux
