import Foctet.Mux.Outgoing

/-! What a side receives. An identifier that is registered once gets, on the one channel
of its registration, every frame of its stream that has come off the wire. -/
namespace Foctet.Mux
open Foctet.Core Foctet.Lib
open SessionActor (Input arrived puts puts_append held Wired arrivals)

/-- What the reader may find next: an open frame only for an identifier that is new in
every respect. -/
structure Fresh (a : SessionActor) (inputs : List Input) (effects : List Effect) (f : Frame) :
    Prop where
  unknown : ∀ s ∈ known effects, s.streamId ≠ f.header.streamId
  silent : dataOn f.header.streamId (arrived inputs) = []
  absent : a.streams.get f.header.streamId = none

structure Incoming (a : SessionActor) (inputs : List Input) (effects : List Effect) : Prop where
  wired : Wired a
  live : ∀ i c, a.streams.get i = some c →
    puts c effects ++ held c a = dataOn i (arrived inputs)
  past : ∀ s ∈ known effects, puts s.frameReceiver effects <+: dataOn s.streamId (arrived inputs)
  unborn : ∀ c, a.nextChannel ≤ c → puts c effects = []
  born : ∀ s ∈ known effects, s.frameReceiver < a.nextChannel
  owner : ∀ s ∈ known effects, ∀ j, a.streams.get j = some s.frameReceiver → j = s.streamId
  entry : ∀ s ∈ known effects, ∀ c, a.streams.get s.streamId = some c → c = s.frameReceiver
  channels : ∀ s ∈ known effects, ∀ t ∈ known effects,
    s.frameReceiver = t.frameReceiver → s.streamId = t.streamId

theorem incoming_spawn (side : SessionSide) (sessionId : SessionId) :
    Incoming (.spawn side sessionId) [] [] where
  wired := SessionActor.wired_spawn side sessionId
  live i c h := by cases h
  past s h := by cases h
  unborn _ _ := rfl
  born s h := by cases h
  owner s h := by cases h
  entry s h := by cases h
  channels s h := by cases h

section step
variable {a a' : SessionActor} {x : Input} {es effects : List Effect} {inputs : List Input}

/-- Only an open frame registers, and only its own identifier. -/
theorem step_registers_open (h : SessionActor.Step a x a' es) {i : StreamId} {c : ChannelId}
    (absent : a.streams.get i = none) (present : a'.streams.get i = some c) :
    ∃ f, x = .frame f ∧ f.header.streamId = i ∧ isData f = false := by
  have stays (same : a'.streams.get i = a.streams.get i) : False := by
    rw [same, absent] at present
    cases present
  cases h with
  | @openRequest f top hs hreq =>
      by_cases mine : i = f.header.streamId
      · exact ⟨f, rfl, mine.symm, isData_eq_false.mpr (.inl hreq)⟩
      · exact (stays (Table.get_insert_of_ne _ mine _)).elim
  | @openResponse f reply top hs hreq hresp =>
      by_cases mine : i = f.header.streamId
      · exact ⟨f, rfl, mine.symm, isData_eq_false.mpr (.inr hresp)⟩
      · exact (stays (Table.get_insert_of_ne _ mine _)).elim
  | cancelled | readError | requestFailed | writeFailed => cases present
  | eventClosed | forwardFailed | announceFailed =>
      rw [Table.get_of_get_remove present] at absent
      cases absent
  | _ => exact (stays rfl).elim

/-- While an identifier is registered, every frame for it is data. -/
theorem arrivals_live (fresh : ∀ f, x = .frame f → isData f = false → Fresh a inputs effects f)
    {i : StreamId} {c : ChannelId} (live : a.streams.get i = some c) :
    arrivals i [x] = dataOn i (arrived [x]) := by
  cases x with
  | frame f =>
      cases data : isData f with
      | true =>
          change arrivals i [.frame f] = dataOn i [f]
          rw [dataOn_data data]
          by_cases mine : f.header.streamId = i <;> simp [arrivals, mine]
      | false =>
          have other : f.header.streamId ≠ i := by
            rintro rfl
            rw [(fresh f rfl data).absent] at live
            cases live
          change arrivals i [.frame f] = dataOn i [f]
          rw [dataOn_open data]
          simp [arrivals, other]
  | _ => rfl

theorem incoming_live (h : Incoming a inputs effects) (hs : SessionActor.Step a x a' es)
    (fresh : ∀ f, x = .frame f → isData f = false → Fresh a inputs effects f)
    {i : StreamId} {c : ChannelId} (present : a'.streams.get i = some c) :
    puts c (effects ++ es) ++ held c a' = dataOn i (arrived (inputs ++ [x])) := by
  rw [puts_append, SessionActor.arrived_append, dataOn_append]
  cases before : a.streams.get i with
  | none =>
      -- registered by this step: nothing was put on the new channel, nothing came before
      obtain ⟨rfl, quiet, idle⟩ := SessionActor.step_registers hs before present
      obtain ⟨f, rfl, rfl, opens⟩ := step_registers_open hs before present
      have first : dataOn f.header.streamId (arrived [.frame f]) = [] := dataOn_open opens _
      rw [h.unborn _ (Nat.le_refl _), quiet, idle, (fresh f rfl opens).silent, first]
      rfl
  | some d =>
      obtain rfl := SessionActor.step_keeps_entry hs before present
      rw [← h.live i c before, ← arrivals_live fresh before, List.append_assoc, List.append_assoc,
        SessionActor.step_live hs h.wired before present]

theorem incoming_past (h : Incoming a inputs effects) (hs : SessionActor.Step a x a' es)
    {s : LogicalStream} (member : s ∈ known effects)
    (still : ∀ c, a'.streams.get s.streamId = some c →
      puts c (effects ++ es) ++ held c a' = dataOn s.streamId (arrived (inputs ++ [x]))) :
    puts s.frameReceiver (effects ++ es) <+: dataOn s.streamId (arrived (inputs ++ [x])) := by
  by_cases after : a'.streams.get s.streamId = some s.frameReceiver
  · exact ⟨_, still _ after⟩
  · have quiet : puts s.frameReceiver es = [] := by
      by_cases before : a.streams.get s.streamId = some s.frameReceiver
      · exact SessionActor.step_removes hs before after
      · refine SessionActor.step_dead hs h.wired ?_
        intro j there
        exact before (h.owner s member j there ▸ there)
    rw [puts_append, quiet, List.append_nil, SessionActor.arrived_append, dataOn_append]
    exact (h.past s member).trans (List.prefix_append _ _)

theorem incoming_step (h : Incoming a inputs effects) (hs : SessionActor.Step a x a' es)
    (fresh : ∀ f, x = .frame f → isData f = false → Fresh a inputs effects f) :
    Incoming a' (inputs ++ [x]) (effects ++ es) := by
  have wired := SessionActor.wired_step hs h.wired
  have grows := (SessionActor.step_entry hs ⟨0⟩).1
  have live := fun i c => incoming_live h hs fresh (i := i) (c := c)
  have split {s : LogicalStream} (member : s ∈ known (effects ++ es)) :
      s ∈ known effects ∨ a'.streams.get s.streamId = some s.frameReceiver :=
    (mem_known_append.mp member).imp id (SessionActor.step_known hs h.wired)
  have owner : ∀ s ∈ known (effects ++ es), ∀ j,
      a'.streams.get j = some s.frameReceiver → j = s.streamId := by
    intro s member j there
    rcases split member with old | new
    · by_contra other
      refine SessionActor.step_not_entry hs (h.born s old) ?_ there
      intro before
      exact other (h.owner s old j before)
    · exact wired.distinct _ _ _ there new
  refine ⟨wired, live, ?_, ?_, ?_, owner, ?_, ?_⟩
  · intro s member
    rcases split member with old | new
    · exact incoming_past h hs old (live s.streamId)
    · exact ⟨_, live _ _ new⟩
  · intro c late
    have before := Nat.le_trans grows late
    have dead : puts c es = [] := by
      refine SessionActor.step_dead hs h.wired ?_
      intro j there
      exact absurd (h.wired.fresh j c there) (Nat.not_lt.mpr before)
    rw [puts_append, h.unborn c before, dead]
    rfl
  · intro s member
    rcases split member with old | new
    · exact Nat.lt_of_lt_of_le (h.born s old) grows
    · exact wired.fresh _ _ new
  · intro s member c there
    rcases split member with old | new
    · cases before : a.streams.get s.streamId with
      | none =>
          obtain ⟨f, rfl, same, opens⟩ := step_registers_open hs before there
          exact absurd same.symm ((fresh f rfl opens).unknown s old)
      | some d =>
          rw [SessionActor.step_keeps_entry hs before there]
          exact h.entry s old d before
    · exact Option.some.inj (there.symm.trans new)
  · intro s member t other same
    rcases split member with old | new
    · rcases split other with old' | new'
      · exact h.channels s old t old' same
      · exact (owner s member t.streamId (same ▸ new')).symm
    · exact owner t other s.streamId (same ▸ new)

end step
end Foctet.Mux
