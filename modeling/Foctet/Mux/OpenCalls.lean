import Foctet.Mux.Peer

/-! The callers of `open_stream`. Each call makes a `oneshot` whose sender moves from the
caller into the control channel, then into the handler, then into the task that forwards
the response; it is used or dropped in one of these places. The response travels on a
second `oneshot`, whose sender is what `pending_streams` holds. -/
namespace Foctet.Mux
open Foctet.Core Foctet.Lib
open SessionActor (Input)

/-- How `open_stream` fails. -/
inductive OpenError where
  /-- "Failed to send OpenStream command" -/
  | notSent
  /-- "Stream open failed", with the error that was sent back -/
  | failed (cause : String)
  /-- "Stream open response failed": the sender was dropped -/
  | dropped
  deriving DecidableEq, Repr

def rejection (streamId : StreamId) : String :=
  "Stream " ++ toString streamId.id ++ " rejected by remote"

/-- What the forwarding task replies when the response's sender is dropped. -/
def noResponse : String := "No response received"

theorem rejection_ne_noResponse (streamId : StreamId) : rejection streamId ≠ noResponse := by
  intro same
  have chars := congrArg String.toList same
  simp [rejection, noResponse] at chars

structure Openers where
  actor : SessionActor
  /-- the calls made so far -/
  called : List ReplyId
  /-- callers that wait for room in the control channel -/
  sending : List ReplyId
  commands : List Command
  /-- the caller whose command is being handled, with the identifier allocated to it -/
  handling : Option (StreamId × ReplyId)
  /-- the forwarding tasks: the caller to reply to, and the identifier under which the
  sender of the response was registered -/
  tasks : List (StreamId × ReplyId)
  /-- `run` has returned and has dropped the actor -/
  finished : Bool
  answers : List (ReplyId × Except OpenError LogicalStream)

/-- The callers whose commands are in the control channel. -/
def callers (commands : List Command) : List ReplyId :=
  commands.filterMap fun
    | .openStream reply => some reply
    | .shutdown _ => none

/-- The handler of `OpenStream` is at its await. -/
def Phase.asking : Phase → Bool
  | .awaiting (.request _) => true
  | _ => false

namespace Openers

def spawn (side : SessionSide) (sessionId : SessionId) : Openers where
  actor := .spawn side sessionId
  called := []
  sending := []
  commands := []
  handling := none
  tasks := []
  finished := false
  answers := []

/-- The senders of some responses are used or dropped: the tasks that wait for these
responses reply. -/
def wake (s : Openers) (whose : StreamId × ReplyId → Bool)
    (result : Except OpenError LogicalStream) : Openers :=
  { s with
    tasks := s.tasks.filter fun t => !whose t
    answers := s.answers ++ (s.tasks.filter whose).map fun t => (t.2, result) }

def apply (s : Openers) : Effect → Openers
  | .resolve reply result => s.wake (fun t => t.2 = reply) (result.mapError .failed)
  | _ => s

/-- Past the write of the open request the handler spawns the task; when the write fails
it returns, and the caller's sender is dropped with it. -/
def handler (s : Openers) (x : Input) : Openers :=
  match s.actor.phase, x with
  | .awaiting (.request _), .resume true =>
      { s with handling := none, tasks := s.tasks ++ s.handling.toList }
  | .awaiting (.request _), .resume false =>
      { s with
        handling := none
        answers := s.answers ++ s.handling.toList.map fun h => (h.2, .error .dropped) }
  | _, _ => s

/-- One step of the actor's task. -/
def take (s : Openers) (x : Input) : Option Openers :=
  (s.actor.step x).map fun r => { r.2.foldl apply (s.handler x) with actor := r.1 }

/-- Inserting under an identifier drops the sender that was there. -/
def replace (s : Openers) (streamId : StreamId) : Openers :=
  s.wake (fun t => s.actor.pendingStreams.get streamId = some t.2) (.error (.failed noResponse))

def receive (s : Openers) : Command → Openers
  | .openStream reply =>
      let streamId := (s.actor.nextStreamId.fetchAdd 1).1
      { s.replace streamId with handling := some (streamId, reply) }
  | .shutdown _ => s

def takeCommand (s : Openers) : Option Openers :=
  match s.commands with
  | [] => none
  | command :: rest =>
      (s.actor.step (.command command)).map fun r =>
        { r.2.foldl apply (s.receive command) with actor := r.1, commands := rest }

/-- `run` returns. The control channel is closed, so waiting sends fail and the commands in
it are dropped; the senders in `pending_streams` are dropped, and their tasks reply. -/
def finish (s : Openers) : Openers :=
  let s' := s.wake (fun t => s.actor.pendingStreams.get t.1 = some t.2)
    (.error (.failed noResponse))
  { s' with
    sending := []
    commands := []
    handling := none
    finished := true
    answers := s'.answers ++ s.sending.map (fun r => (r, .error .notSent)) ++
      (callers s.commands ++ s.handling.toList.map Prod.snd).map fun r => (r, .error .dropped) }

/-- A call of `open_stream`, with a new `oneshot`, up to its send. -/
def call (s : Openers) (reply : ReplyId) : Openers :=
  if s.finished then
    { s with called := s.called ++ [reply], answers := s.answers ++ [(reply, .error .notSent)] }
  else { s with called := s.called ++ [reply], sending := s.sending ++ [reply] }

inductive Label where
  | call (reply : ReplyId)
  /-- the control channel has room for the next command -/
  | enqueue (reply : ReplyId)
  | requestShutdown (reply : ReplyId)
  /-- the actor takes a command -/
  | command
  /-- the actor takes anything else -/
  | input (x : Input)
  | finish
  deriving DecidableEq, Repr

/-- The control channel takes another command. -/
def Room (s : Openers) : Prop := s.finished = false ∧ s.commands.length < controlCapacity

instance (s : Openers) : Decidable s.Room := inferInstanceAs (Decidable (_ ∧ _))

def step (s : Openers) : Label → Option Openers
  | .call reply => if reply ∈ s.called then none else some (s.call reply)
  | .enqueue reply =>
      if reply ∈ s.sending ∧ s.Room then
        some { s with
          sending := s.sending.erase reply
          commands := s.commands ++ [.openStream reply] }
      else none
  | .requestShutdown reply =>
      if s.Room then some { s with commands := s.commands ++ [.shutdown reply] } else none
  | .command => s.takeCommand
  | .input (.command _) => none
  | .input x => s.take x
  | .finish =>
      if s.actor.phase = .left ∧ s.finished = false then some s.finish else none

/-- The steps, with what they do to the callers. Steps of the actor that touch no caller
are one case. -/
inductive Happens : Openers → Label → Openers → Prop
  | call {s reply} : reply ∉ s.called → s.finished = false →
      Happens s (.call reply)
        { s with called := s.called ++ [reply], sending := s.sending ++ [reply] }
  | callLate {s reply} : reply ∉ s.called → s.finished = true →
      Happens s (.call reply)
        { s with
          called := s.called ++ [reply]
          answers := s.answers ++ [(reply, .error .notSent)] }
  | enqueue {s reply} : reply ∈ s.sending → s.Room →
      Happens s (.enqueue reply)
        { s with
          sending := s.sending.erase reply
          commands := s.commands ++ [.openStream reply] }
  | requestShutdown {s reply} : s.Room →
      Happens s (.requestShutdown reply) { s with commands := s.commands ++ [.shutdown reply] }
  | opened {s reply rest a'} : s.commands = .openStream reply :: rest → s.actor.phase = .select →
      a'.pendingStreams = s.actor.pendingStreams.insert s.actor.nextStreamId reply →
      a'.phase.asking = true →
      Happens s .command
        { s.replace s.actor.nextStreamId with
          actor := a', commands := rest, handling := some (s.actor.nextStreamId, reply) }
  | shut {s reply rest a'} : s.commands = .shutdown reply :: rest → s.actor.phase = .select →
      a'.pendingStreams = s.actor.pendingStreams → a'.phase.asking = false →
      Happens s .command { s with actor := a', commands := rest }
  | resolved {s frame reply result a'} : s.actor.phase = .select →
      s.actor.streams.get frame.header.streamId = none →
      s.actor.pendingStreams.get frame.header.streamId = some reply →
      (frame.header.flags.isOpenResponse = true ∧
          (∃ c, result = .ok ⟨s.actor.sessionId, frame.header.streamId, .established, c⟩) ∨
        frame.header.flags.isOpenReset = true ∧
          result = .error (.failed (rejection frame.header.streamId))) →
      a'.pendingStreams = s.actor.pendingStreams.remove frame.header.streamId →
      a'.phase.asking = false →
      Happens s (.input (.frame frame)) 
        { s.wake (fun t => t.2 = reply) result with actor := a' }
  | requested {s a'} : s.actor.phase.asking = true →
      a'.pendingStreams = s.actor.pendingStreams → a'.phase.asking = false →
      Happens s (.input (.resume true))
        { s with actor := a', handling := none, tasks := s.tasks ++ s.handling.toList }
  | requestFailed {s a'} : s.actor.phase.asking = true →
      a'.pendingStreams = s.actor.pendingStreams → a'.phase.asking = false →
      Happens s (.input (.resume false))
        { s with
          actor := a'
          handling := none
          answers := s.answers ++ s.handling.toList.map fun h => (h.2, .error .dropped) }
  | other {s x a'} : s.actor.phase.asking = false →
      a'.pendingStreams = s.actor.pendingStreams → a'.phase.asking = false →
      Happens s (.input x) { s with actor := a' }
  | finish {s} : s.actor.phase = .left → s.finished = false → Happens s .finish s.finish

theorem handler_eq {s : Openers} (elsewhere : s.actor.phase.asking = false) (x : Input) :
    s.handler x = s := by
  unfold handler
  split
  · rename_i asking
    rw [asking] at elsewhere
    cases elsewhere
  · rename_i asking
    rw [asking] at elsewhere
    cases elsewhere
  · rfl

theorem take_happens {s t : Openers} {x : Input} (not_command : ∀ c, x ≠ .command c)
    (h : s.take x = some t) : Happens s (.input x) t := by
  obtain ⟨⟨a', es⟩, hstep, rfl⟩ := Option.map_eq_some_iff.mp h
  cases SessionActor.step_cases hstep with
  | openStream | shutdownCommand => exact absurd rfl (not_command _)
  | openResponse top free request response waiting =>
      have before : s.actor.phase.asking = false := by rw [top]; rfl
      rw [handler_eq before]
      exact .resolved top free waiting (.inl ⟨response, _, rfl⟩) rfl before
  | openReset top free reset waiting =>
      have before : s.actor.phase.asking = false := by rw [top]; rfl
      rw [handler_eq before]
      exact .resolved top free waiting (.inr ⟨reset, rfl⟩) rfl before
  | requested asking =>
      simp only [handler, asking]
      exact .requested (by rw [asking]; rfl) rfl rfl
  | requestFailed asking =>
      simp only [handler, asking]
      exact .requestFailed (by rw [asking]; rfl) rfl rfl
  | eof top | unknown top | eventClosed top | eventError top =>
      have before : s.actor.phase.asking = false := by rw [top]; rfl
      rw [handler_eq before]
      exact .other before rfl before
  | cancelled from_here | readError from_here | forward from_here | openRequest from_here
    | eventFrame from_here | forwarded from_here | forwardFailed from_here | announced from_here
    | announceFailed from_here | responded from_here | respondFailed from_here
    | written from_here | writeFailed from_here =>
      have before : s.actor.phase.asking = false := by rw [from_here]; rfl
      rw [handler_eq before]
      exact .other before rfl rfl

theorem step_happens {s t : Openers} {l : Label} (h : s.step l = some t) : Happens s l t := by
  cases l with
  | call reply =>
      obtain ⟨new, h⟩ := Option.ite_none_left_eq_some.mp h
      cases h
      unfold Openers.call
      split
      · rename_i finished
        exact .callLate new finished
      · rename_i running
        exact .call new (Bool.eq_false_iff.mpr running)
  | enqueue reply =>
      obtain ⟨⟨waits, room⟩, h⟩ := Option.ite_none_right_eq_some.mp h
      cases h
      exact .enqueue waits room
  | requestShutdown reply =>
      obtain ⟨room, h⟩ := Option.ite_none_right_eq_some.mp h
      cases h
      exact .requestShutdown room
  | command =>
      simp only [step, takeCommand] at h
      split at h
      · cases h
      · rename_i command rest next
        obtain ⟨⟨a', es⟩, hstep, rfl⟩ := Option.map_eq_some_iff.mp h
        cases SessionActor.step_cases hstep with
        | openStream top => exact .opened next top rfl rfl
        | shutdownCommand top => exact .shut next top rfl (by rw [top]; rfl)
  | input x =>
      cases x with
      | command c => cases h
      | _ => exact take_happens nofun h
  | finish =>
      obtain ⟨⟨left, running⟩, h⟩ := Option.ite_none_right_eq_some.mp h
      cases h
      exact .finish left running

end Openers
end Foctet.Mux
