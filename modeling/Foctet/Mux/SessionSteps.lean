import Foctet.Mux.Session

/-! Every step the actor can take, with its guard. The step function is inverted
here once; invariants are case analyses over `Step`. -/
namespace Foctet.Mux
open Foctet.Core Foctet.Lib

namespace SessionActor

inductive Step : SessionActor → Input → SessionActor → List Effect → Prop
  | cancelled {a} : a.phase = .select → Step a .cancelled a.shutdown.1 [.closeWriter]
  | readError {a} : a.phase = .select →
      Step a .readError { a with remoteClosed := true }.shutdown.1 [.closeWriter]
  | eof {a} : a.phase = .select → Step a .eof a []
  | forward {a frame sender} : a.phase = .select →
      a.streams.get frame.header.streamId = some sender →
      Step a (.frame frame)
        { a with phase := .awaiting (.forward frame.header.streamId sender frame) } []
  | openRequest {a frame} : a.phase = .select → a.streams.get frame.header.streamId = none →
      frame.header.flags.isOpenRequest = true →
      Step a (.frame frame)
        { a with
          nextChannel := a.nextChannel + 1
          streams := a.streams.insert frame.header.streamId a.nextChannel
          phase := .awaiting (.announce
            ⟨a.sessionId, frame.header.streamId, .established, a.nextChannel⟩) } []
  | openResponse {a frame reply} : a.phase = .select →
      a.streams.get frame.header.streamId = none → frame.header.flags.isOpenRequest = false →
      frame.header.flags.isOpenResponse = true →
      a.pendingStreams.get frame.header.streamId = some reply →
      Step a (.frame frame)
        { a with
          nextChannel := a.nextChannel + 1
          pendingStreams := a.pendingStreams.remove frame.header.streamId
          streams := a.streams.insert frame.header.streamId a.nextChannel }
        [.resolve reply (.ok ⟨a.sessionId, frame.header.streamId, .established, a.nextChannel⟩)]
  | openReset {a frame reply} : a.phase = .select → a.streams.get frame.header.streamId = none →
      frame.header.flags.isOpenReset = true →
      a.pendingStreams.get frame.header.streamId = some reply →
      Step a (.frame frame)
        { a with pendingStreams := a.pendingStreams.remove frame.header.streamId }
        [.resolve reply (.error ("Stream " ++ toString frame.header.streamId.id ++
          " rejected by remote"))]
  | unknown {a frame} : a.phase = .select → a.streams.get frame.header.streamId = none →
      frame.header.flags.isOpenRequest = false →
      (frame.header.flags.isOpenResponse = true →
        a.pendingStreams.get frame.header.streamId = none) →
      (frame.header.flags.isOpenReset = true →
        a.pendingStreams.get frame.header.streamId = none) →
      Step a (.frame frame) a []
  | openStream {a reply} : a.phase = .select →
      Step a (.command (.openStream reply))
        { a with
          nextStreamId := (a.nextStreamId.fetchAdd 1).2
          pendingStreams := a.pendingStreams.insert a.nextStreamId reply
          phase := .awaiting (.request (openRequestFrame a.nextStreamId)) } []
  | shutdownCommand {a reply} : a.phase = .select →
      Step a (.command (.shutdown reply)) { a with localClosed := true } [.acknowledge reply]
  | eventFrame {a frame} : a.phase = .select →
      Step a (.event (.frame frame)) { a with phase := .awaiting (.write frame) } []
  | eventClosed {a streamId} : a.phase = .select →
      Step a (.event (.closed streamId)) { a with streams := a.streams.remove streamId } []
  | eventError {a} : a.phase = .select → Step a (.event .error) a []
  | forwarded {a streamId sender frame} :
      a.phase = .awaiting (.forward streamId sender frame) →
      Step a (.resume true) { a with phase := .select } [.put sender frame]
  | forwardFailed {a streamId sender frame} :
      a.phase = .awaiting (.forward streamId sender frame) →
      Step a (.resume false)
        { a with streams := a.streams.remove streamId, phase := .select } []
  | announced {a stream} : a.phase = .awaiting (.announce stream) →
      Step a (.resume true)
        { a with phase := .awaiting (.respond (openResponseFrame stream.streamId)) }
        [.accept stream]
  | announceFailed {a stream} : a.phase = .awaiting (.announce stream) →
      Step a (.resume false)
        { a with
          streams := a.streams.remove stream.streamId
          phase := .awaiting (.respond (openResponseFrame stream.streamId)) } []
  | responded {a frame} : a.phase = .awaiting (.respond frame) →
      Step a (.resume true) { a with phase := .select } [.write frame]
  | respondFailed {a frame} : a.phase = .awaiting (.respond frame) →
      Step a (.resume false) { a with phase := .select } []
  | requested {a frame} : a.phase = .awaiting (.request frame) →
      Step a (.resume true) { a with phase := .select } [.write frame]
  | requestFailed {a frame} : a.phase = .awaiting (.request frame) →
      Step a (.resume false) a.shutdown.1 [.closeWriter]
  | written {a frame} : a.phase = .awaiting (.write frame) →
      Step a (.resume true) { a with phase := .select } [.write frame]
  | writeFailed {a frame} : a.phase = .awaiting (.write frame) →
      Step a (.resume false) a.shutdown.1 [.closeWriter]

/-- The branches of `handle_incoming_frame`. -/
theorem handleIncomingFrame_step {a a' : SessionActor} {frame : Frame} {es : List Effect}
    (hphase : a.phase = .select) (h : a.handleIncomingFrame frame = (a', es)) :
    Step a (.frame frame) a' es := by
  unfold handleIncomingFrame at h
  cases hs : a.streams.get frame.header.streamId with
  | some sender =>
      simp only [hs, Prod.mk.injEq] at h
      obtain ⟨rfl, rfl⟩ := h
      exact .forward hphase hs
  | none =>
      simp only [hs] at h
      cases hreq : frame.header.flags.isOpenRequest with
      | true =>
          simp only [hreq, if_true, Prod.mk.injEq] at h
          obtain ⟨rfl, rfl⟩ := h
          exact .openRequest hphase hs hreq
      | false =>
          simp only [hreq, Bool.false_eq_true, if_false] at h
          cases hresp : frame.header.flags.isOpenResponse with
          | true =>
              cases hp : a.pendingStreams.get frame.header.streamId with
              | some reply =>
                  simp only [hresp, hp, if_true, Prod.mk.injEq] at h
                  obtain ⟨rfl, rfl⟩ := h
                  exact .openResponse hphase hs hreq hresp hp
              | none =>
                  simp only [hresp, hp, if_true, Prod.mk.injEq] at h
                  obtain ⟨rfl, rfl⟩ := h
                  exact .unknown hphase hs hreq (fun _ => hp) (fun _ => hp)
          | false =>
              cases hreset : frame.header.flags.isOpenReset with
              | true =>
                  cases hp : a.pendingStreams.get frame.header.streamId with
                  | some reply =>
                      simp only [hresp, hreset, hp, Bool.false_eq_true, if_false, if_true,
                        Prod.mk.injEq] at h
                      obtain ⟨rfl, rfl⟩ := h
                      exact .openReset hphase hs hreset hp
                  | none =>
                      simp only [hresp, hreset, hp, Bool.false_eq_true, if_false, if_true,
                        Prod.mk.injEq] at h
                      obtain ⟨rfl, rfl⟩ := h
                      exact .unknown hphase hs hreq (fun _ => hp) (fun _ => hp)
              | false =>
                  simp only [hresp, hreset, Bool.false_eq_true, if_false, Prod.mk.injEq] at h
                  obtain ⟨rfl, rfl⟩ := h
                  refine .unknown hphase hs hreq ?_ ?_
                  · rw [hresp]; exact fun h => by cases h
                  · rw [hreset]; exact fun h => by cases h

theorem select_step {a a' : SessionActor} {i : Input} {es : List Effect}
    (hphase : a.phase = .select) (h : a.select i = some (a', es)) : Step a i a' es := by
  cases i with
  | cancelled => cases h; exact .cancelled hphase
  | frame frame => exact handleIncomingFrame_step hphase (Option.some.inj h)
  | readError => cases h; exact .readError hphase
  | eof => cases h; exact .eof hphase
  | command command =>
      cases command with
      | openStream reply => cases h; exact .openStream hphase
      | shutdown reply => cases h; exact .shutdownCommand hphase
  | event event =>
      cases event with
      | frame frame => cases h; exact .eventFrame hphase
      | closed streamId => cases h; exact .eventClosed hphase
      | error => cases h; exact .eventError hphase
  | resume ok => cases h

theorem resume_step {a : SessionActor} {w : Await} (hphase : a.phase = .awaiting w) (ok : Bool) :
    Step a (.resume ok) (a.resume w ok).1 (a.resume w ok).2 := by
  cases w with
  | forward streamId sender frame =>
      cases ok with
      | true => exact .forwarded hphase
      | false => exact .forwardFailed hphase
  | announce stream =>
      cases ok with
      | true => exact .announced hphase
      | false => exact .announceFailed hphase
  | respond frame =>
      cases ok with
      | true => exact .responded hphase
      | false => exact .respondFailed hphase
  | request frame =>
      cases ok with
      | true => exact .requested hphase
      | false => exact .requestFailed hphase
  | write frame =>
      cases ok with
      | true => exact .written hphase
      | false => exact .writeFailed hphase

theorem step_cases {a a' : SessionActor} {i : Input} {es : List Effect}
    (h : a.step i = some (a', es)) : Step a i a' es := by
  unfold step at h
  split at h
  · rename_i hphase
    exact select_step hphase h
  · rename_i w ok hphase
    have hs := resume_step hphase ok
    rw [Option.some.inj h] at hs
    exact hs
  · cases h

theorem step_select {a : SessionActor} (top : a.phase = .select) (x : Input) :
    a.step x = a.select x := by
  simp only [step, top]

theorem step_resume {a : SessionActor} {w : Await} (hphase : a.phase = .awaiting w) (ok : Bool) :
    a.step (.resume ok) = some (a.resume w ok) := by
  simp only [step, hphase]

/-- The relation says no more than the function does. -/
theorem Step.step_eq {a a' : SessionActor} {x : Input} {es : List Effect} (h : Step a x a' es) :
    a.step x = some (a', es) := by
  cases h with
  | cancelled top | readError top | eof top | openStream top | shutdownCommand top
    | eventFrame top | eventClosed top | eventError top => exact step_select top _
  | forward top hs =>
      rw [step_select top]
      simp only [select, handleIncomingFrame, hs]
  | openRequest top hs hreq =>
      rw [step_select top]
      simp only [select, handleIncomingFrame, hs, hreq, if_true]
  | openResponse top hs hreq hresp waiting =>
      rw [step_select top]
      simp only [select, handleIncomingFrame, hs, hreq, hresp, waiting, Bool.false_eq_true,
        if_false, if_true]
  | @openReset f reply top hs hreset waiting =>
      have others := FrameFlags.openReset_only hreset
      rw [step_select top]
      simp only [select, handleIncomingFrame, hs, others.1, others.2, hreset, waiting,
        Bool.false_eq_true, if_false, if_true]
  | @unknown f top hs hreq hresp hreset =>
      rw [step_select top]
      simp only [select, handleIncomingFrame, hs, hreq, Bool.false_eq_true, if_false]
      cases hr : f.header.flags.isOpenResponse with
      | true => simp only [if_true, hresp hr]
      | false =>
          cases hz : f.header.flags.isOpenReset with
          | true => simp only [Bool.false_eq_true, if_false, if_true, hreset hz]
          | false => simp only [Bool.false_eq_true, if_false]
  | forwarded hphase | forwardFailed hphase | announced hphase | announceFailed hphase
    | responded hphase | respondFailed hphase | requested hphase | requestFailed hphase
    | written hphase | writeFailed hphase => exact step_resume hphase _

end SessionActor
end Foctet.Mux
