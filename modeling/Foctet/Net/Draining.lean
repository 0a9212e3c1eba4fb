import Foctet.Lib.Tally
import Foctet.Net.Accepting

/-! What becomes of the connections that are on their way, and of an endpoint that is shut
down. Whoever goes on accepting gets all that was made. A shutdown ends the actor only: the
listeners go on, and `accept` does not return `None` before each of them has ended, nor before
the shutdown at all. -/
namespace Foctet.Net
open Foctet.Core Foctet.Lib

variable {A : Type} {S : StackAddrs A} {C : Crates}

namespace Hub
variable {h h' : Hub A} {config : TransportConfig} {labels : List (Label A)} {i : Nat} {x : Listener A}

/-! ### The end of a queue -/

/-- A drained endpoint whose listeners have all ended. -/
structure Silent (h : Hub A) : Prop where
  drained : h.Drained
  ended : ∀ x ∈ h.listeners, x.accepting = .ended

theorem Sound.silent (sound : Sound C config labels h) (drained : h.Drained) : h.Silent := by
  refine ⟨drained, fun x member => ?_⟩
  obtain ⟨i, found⟩ := List.mem_iff_getElem?.mp member
  exact ((sound.tracked i x found).whole.stopped (drained.2.2 x member)).1

/-- Neither task of such a listener has a step left. -/
theorem not_moves_of_ended {around : Surroundings} {act : ListenerAct} {x' : Listener A} {out : Emitted A}
    (accepting : x.accepting = .ended) (forwarding : x.forwarding = .ended) :
    ¬ Listener.Moves S C around x act x' out := by
  intro moves
  cases moves with
  | arrives found => exact absurd (accepting.symm.trans found) (by simp)
  | fails found => exact absurd (accepting.symm.trans found) (by simp)
  | leaves found => exact absurd (accepting.symm.trans found) (by simp)
  | makes found => exact absurd (accepting.symm.trans found) (by simp)
  | refuses found => exact absurd (accepting.symm.trans found) (by simp)
  | dies found => exact absurd (accepting.symm.trans found) (by simp)
  | aborts found => exact absurd (accepting.symm.trans found) (by simp)
  | orphaned found => exact absurd (accepting.symm.trans found) (by simp)
  | sends found => exact absurd (accepting.symm.trans found) (by simp)
  | takes found => exact absurd (forwarding.symm.trans found) (by simp)
  | stops found => exact absurd (forwarding.symm.trans found) (by simp)
  | passes found => exact absurd (forwarding.symm.trans found) (by simp)
  | loses found => exact absurd (forwarding.symm.trans found) (by simp)
  | reports found => exact absurd (forwarding.symm.trans found) (by simp)
  | logs found => exact absurd (forwarding.symm.trans found) (by simp)

theorem Silent.close (silent : h.Silent) : h.close.Silent := by
  unfold Hub.close
  split
  case isTrue => exact silent
  case isFalse => exact ⟨⟨rfl, silent.drained.2⟩, silent.ended⟩

@[simp] theorem close_accepted (h : Hub A) : h.close.accepted = h.accepted := by
  unfold Hub.close
  split <;> rfl

theorem Silent.step {label : Label A} (silent : h.Silent) (stepped : h.step S C label = some h') :
    h'.Silent ∧ h'.accepted = h.accepted := by
  obtain ⟨empty, ended, stopped⟩ := silent.drained
  obtain ⟨-, acted⟩ := step_eq_some.mp stepped
  cases label with
  | listen w => simp [act, Hub.listen, ended] at acted
  | command => simp [act, ended] at acted
  | cancel => simp [act, ended] at acted
  | listener i act =>
      obtain ⟨x, found, rest⟩ := Option.bind_eq_some_iff.mp acted
      obtain ⟨⟨x', out⟩, moved, -⟩ := Option.map_eq_some_iff.mp rest
      have member := List.mem_of_getElem? found
      exact absurd (Listener.moves_of_step moved)
        (not_moves_of_ended (silent.ended x member) (stopped x member))
  | accept => simp [act, empty] at acted
  | acceptNone =>
      simp only [act, Option.ite_none_right_eq_some, Option.some.injEq] at acted
      exact acted.2 ▸ ⟨silent, rfl⟩
  | sendCommand cmd =>
      simp only [act, ended, Option.ite_none_right_eq_some, Option.some.injEq] at acted
      exact acted.2 ▸ ⟨silent, rfl⟩
  | shutdown =>
      simp only [act, ended, Option.ite_none_right_eq_some, Option.some.injEq] at acted
      exact acted.2 ▸ ⟨silent, rfl⟩
  | getListener | cloneHandle =>
      simp only [act, Option.ite_none_right_eq_some, Option.some.injEq] at acted
      exact acted.2 ▸ ⟨⟨silent.drained, silent.ended⟩, rfl⟩
  | dropHandle =>
      simp only [act, Option.ite_none_right_eq_some, Option.some.injEq] at acted
      obtain ⟨-, rfl⟩ := acted
      have before : ({ h with handles := h.handles - 1 } : Hub A).Silent :=
        ⟨silent.drained, silent.ended⟩
      exact ⟨before.close, close_accepted _⟩
  | dropEndpoint =>
      simp only [act, Option.ite_none_right_eq_some, Option.some.injEq] at acted
      obtain ⟨-, rfl⟩ := acted
      have before : ({ h with endpoint := false } : Hub A).Silent := ⟨silent.drained, silent.ended⟩
      exact ⟨before.close, close_accepted _⟩

end Hub

/-- When `accept` returns `None`, all connections that were ever made have been returned, and
it returns nothing else from then on. -/
theorem accept_none_final (S : StackAddrs A) (C : Crates) (actor : EndpointActor A)
    (labels more : List (Hub.Label A)) (h h' : Hub A)
    (reached : run (Hub.step S C) (Hub.spawn actor) labels = some h) (receiving : h.receiving = true)
    (drained : h.Drained) (later : run (Hub.step S C) h more = some h') :
    (∀ i x, h.listeners[i]? = some x → ofListener i h.accepted = x.made) ∧
      h'.Drained ∧ h'.accepted = h.accepted := by
  have sound := Hub.sound_run reached
  have silent := sound.silent drained
  constructor
  · intro i x found
    have member := List.mem_of_getElem? found
    have conserved := sound.conserved found receiving
    obtain ⟨accepting, channel⟩ := (sound.tracked i x found).whole.stopped (drained.2.2 x member)
    rw [drained.1, Listener.inFlight, drained.2.2 x member, channel, accepting] at conserved
    simpa only [ofListener, List.filterMap_nil, Forwarding.held, Accepting.held, List.append_nil] using
      conserved
  · have kept := run_invariant (fun _ => True) (fun g => g.Silent ∧ g.accepted = h.accepted)
      (fun g _ g' _ stepped both => ?_) (fun _ _ => trivial) later ⟨silent, rfl⟩
    · exact ⟨kept.1.drained, kept.2⟩
    · obtain ⟨still, same⟩ := both.1.step stepped
      exact ⟨still, same.trans both.2⟩

namespace Sample

/-- The client is accepted, and then all tasks end one after the other. -/
def toTheEnd : List (Hub.Label (List Protocol)) :=
  oneClient ++ [.listener 0 .fails, .listener 0 .takes, .shutdown, .cancel]

end Sample

theorem accept_none_final_one_client : ∃ h,
    run (Hub.step Sample.stackAddrs (Sample.crates Sample.uri)) (Hub.spawn Sample.actor)
      Sample.toTheEnd = some h ∧ h.Drained ∧
      ∀ i x, h.listeners[i]? = some x → ofListener i h.accepted = x.made := by
  have runs : ((run (Hub.step Sample.stackAddrs (Sample.crates Sample.uri)) (Hub.spawn Sample.actor)
      Sample.toTheEnd).map fun h => h.receiving && decide h.Drained) = some true := by
    decide +kernel
  obtain ⟨h, reached, both⟩ := Option.map_eq_some_iff.mp runs
  obtain ⟨receiving, drained⟩ := Bool.and_eq_true_iff.mp both
  have drained := of_decide_eq_true drained
  exact ⟨h, reached, drained,
    (accept_none_final _ _ Sample.actor Sample.toTheEnd [] h h reached receiving drained rfl).1⟩

/-! ### Shutting down -/

namespace Hub
variable {h h' : Hub A}

/-- A command or what the actor does about commands. -/
def Label.commanding : Label A → Bool
  | .command | .cancel | .sendCommand _ | .shutdown => true
  | _ => false

/-- An endpoint with the actor and the commands of another. -/
def withActor (h other : Hub A) : Hub A :=
  { h with actor := other.actor, commands := other.commands, cancelled := other.cancelled }

theorem withActor_emit (h other : Hub A) (i : Nat) (out : Emitted A) :
    (h.emit i out).withActor other = (h.withActor other).emit i out := by
  cases out <;> rfl

theorem withActor_close (h other : Hub A) : h.close.withActor other = (h.withActor other).close := by
  unfold close
  split
  case isTrue receiving => exact (if_pos receiving).symm
  case isFalse closed => exact (if_neg closed).symm

/-- All the rest of an endpoint does not depend on the actor once that has its listeners. -/
theorem act_withActor {other : Hub A} {label : Label A} (aside : label.commanding = false)
    (returns : label ≠ .acceptNone) (here : ∀ addrs, h.actor ≠ .listening addrs)
    (there : ∀ addrs, other.actor ≠ .listening addrs) :
    (h.withActor other).act S C label = (h.act S C label).map (·.withActor other) := by
  cases label with
  | command | cancel | sendCommand cmd | shutdown => cases aside
  | acceptNone => exact absurd rfl returns
  | listen w =>
      have none_here : h.listen S w = none := by
        unfold Hub.listen
        split
        case h_1 | h_2 => exact absurd (by assumption) (here _)
        case h_3 => rfl
      have none_there : (h.withActor other).listen S w = none := by
        unfold Hub.listen
        split
        case h_1 | h_2 => exact absurd (by assumption) (there _)
        case h_3 => rfl
      rw [act, none_there, act, none_here]
      rfl
  | listener i act =>
      simp only [Hub.act, Option.map_bind, Function.comp_def, Option.map_map, withActor_emit]
      rfl
  | accept =>
      have queue : (h.withActor other).connections = h.connections := rfl
      change (if h.receiving then _ else _) = Option.map _ (if h.receiving then _ else _)
      split
      case isTrue =>
          rw [queue]
          cases h.connections <;> rfl
      case isFalse => rfl
  | getListener =>
      change (if h.endpoint then _ else _) = Option.map _ (if h.endpoint then _ else _)
      split <;> rfl
  | cloneHandle =>
      change (if 0 < h.handles then _ else _) = Option.map _ (if 0 < h.handles then _ else _)
      split <;> rfl
  | dropHandle =>
      change (if 0 < h.handles then _ else _) = Option.map _ (if 0 < h.handles then _ else _)
      split
      case isTrue => exact congrArg some (withActor_close { h with handles := h.handles - 1 } other).symm
      case isFalse => rfl
  | dropEndpoint =>
      change (if h.endpoint then _ else _) = Option.map _ (if h.endpoint then _ else _)
      split
      case isTrue => exact congrArg some (withActor_close { h with endpoint := false } other).symm
      case isFalse => rfl

theorem step_withActor {other : Hub A} {label : Label A} (aside : label.commanding = false)
    (returns : label ≠ .acceptNone) (here : ∀ addrs, h.actor ≠ .listening addrs)
    (there : ∀ addrs, other.actor ≠ .listening addrs) :
    (h.withActor other).step S C label = (h.step S C label).map (·.withActor other) := by
  change (if h.aborted then none else _) = Option.map _ (if h.aborted then none else _)
  split
  case isTrue => rfl
  case isFalse => exact act_withActor aside returns here there

/-- The actor stays as it is but for commands. -/
theorem step_actor {label : Label A} (aside : label.commanding = false)
    (here : ∀ addrs, h.actor ≠ .listening addrs) (stepped : h.step S C label = some h') :
    h'.actor = h.actor := by
  by_cases returns : label = .acceptNone
  · subst returns
    obtain ⟨-, acted⟩ := step_eq_some.mp stepped
    simp only [act, Option.ite_none_right_eq_some, Option.some.injEq] at acted
    exact congrArg Hub.actor acted.2.symm
  · have own : (h.withActor h).step S C label = (h.step S C label).map (·.withActor h) :=
      step_withActor aside returns here here
    have same : some h' = some (h'.withActor h) := by
      rwa [show h.withActor h = h from rfl, stepped] at own
    have kept : h'.actor = (h'.withActor h).actor := congrArg Hub.actor (Option.some.inj same)
    exact kept

theorem run_actor {more : List (Label A)} (aside : ∀ label ∈ more, label.commanding = false)
    (here : ∀ addrs, h.actor ≠ .listening addrs) (later : run (Hub.step S C) h more = some h') :
    h'.actor = h.actor := by
  induction more generalizing h with
  | nil => exact (congrArg Hub.actor (Option.some.inj later)).symm
  | cons label more ih =>
      obtain ⟨next, stepped, rest⟩ := run_cons_some.mp later
      have first := step_actor (aside label List.mem_cons_self) here stepped
      exact (ih (fun l member => aside l (List.mem_cons_of_mem label member)) (first ▸ here) rest).trans first

theorem run_withActor {other : Hub A} {more : List (Label A)}
    (aside : ∀ label ∈ more, label.commanding = false) (returns : .acceptNone ∉ more)
    (here : ∀ addrs, h.actor ≠ .listening addrs) (there : ∀ addrs, other.actor ≠ .listening addrs) :
    run (Hub.step S C) (h.withActor other) more =
      (run (Hub.step S C) h more).map (·.withActor other) := by
  induction more generalizing h with
  | nil => rfl
  | cons label more ih =>
      have first := aside label List.mem_cons_self
      rw [List.mem_cons, not_or] at returns
      rw [run, run, step_withActor first (Ne.symm returns.1) here there]
      cases stepped : h.step S C label with
      | none => rfl
      | some h' =>
          refine ih (fun l member => aside l (List.mem_cons_of_mem label member)) returns.2 ?_
          rw [step_actor first here stepped]
          exact here

/-- A serving actor has a sender of connections. -/
theorem returns_some_of_serving {more : List (Label A)} (serving : h.actor = .serving)
    (aside : ∀ label ∈ more, label.commanding = false) (later : run (Hub.step S C) h more = some h') :
    .acceptNone ∉ more := by
  induction more generalizing h with
  | nil => exact List.not_mem_nil
  | cons label more ih =>
      obtain ⟨next, stepped, rest⟩ := run_cons_some.mp later
      have first := aside label List.mem_cons_self
      have still := step_actor first (by simp [serving]) stepped
      rw [List.mem_cons, not_or]
      refine ⟨?_, ih (still.trans serving)
        (fun l member => aside l (List.mem_cons_of_mem label member)) rest⟩
      rintro rfl
      obtain ⟨-, acted⟩ := step_eq_some.mp stepped
      simp [act, Drained, serving] at acted

end Hub

/-- A shutdown ends the actor and nothing else. Whatever its listeners, their clients and the
callers of `accept` could do without it, they can do after it, with the same result; but `accept`
never returns `None` before it, and afterwards as soon as every listener has ended and nothing is
queued. -/
theorem shutdown_keeps_accepting (S : StackAddrs A) (C : Crates) (h : Hub A)
    (running : h.aborted = false) (alive : h.endpoint = true) (serving : h.actor = .serving)
    (room : h.commands.length < CHANNEL_CAPACITY) :
    ∃ down, run (Hub.step S C) h [.shutdown, .cancel] = some down ∧ down.actor = .ended ∧
      ∀ more : List (Hub.Label A), (∀ label ∈ more, label.commanding = false) →
        (Hub.Label.acceptNone ∉ more →
          run (Hub.step S C) down more =
            (run (Hub.step S C) h more).map fun h' =>
              { h' with actor := down.actor, commands := down.commands, cancelled := down.cancelled }) ∧
        (∀ h', run (Hub.step S C) h more = some h' → Hub.Label.acceptNone ∉ more) ∧
        ∀ down', run (Hub.step S C) down more = some down' →
          (down'.step S C .acceptNone = some down' ↔ down'.receiving = true ∧ down'.connections = [] ∧
            ∀ x ∈ down'.listeners, x.forwarding = .ended) := by
  let down : Hub A := { h with
    actor := .ended, commands := h.commands ++ [.Shutdown], cancelled := true }
  have here : ∀ addrs, h.actor ≠ .listening addrs := by simp [serving]
  have there : ∀ addrs, down.actor ≠ .listening addrs := by simp [down]
  refine ⟨down, ?_, rfl, fun more aside => ⟨fun returns => ?_, fun h' later => ?_, fun down' later => ?_⟩⟩
  · simp [run, Hub.step, Hub.act, running, alive, serving, room, down]
  · exact (Hub.run_withActor aside returns here there : run (Hub.step S C) (h.withActor down) more = _)
  · exact Hub.returns_some_of_serving serving aside later
  · have ended : down'.actor = .ended := Hub.run_actor aside there later
    rw [Hub.step_eq_some]
    simp only [Hub.act, Hub.Drained, ended, true_and, Option.ite_none_right_eq_some, and_true]
    refine and_iff_right_of_imp fun returns => ?_
    exact Hub.running_of_receiving returns.1

namespace Sample

/-- A client is accepted, and then the only listener fails. -/
def afterwards : List (Hub.Label (List Protocol)) :=
  oneClient.drop 2 ++ [.listener 0 .fails, .listener 0 .takes]

theorem afterwards_runs : ∃ h h',
    run (Hub.step stackAddrs (crates uri)) (Hub.spawn actor) (oneClient.take 2) = some h ∧
    (h.aborted = false ∧ h.endpoint = true ∧ h.actor = .serving ∧ h.commands.length < CHANNEL_CAPACITY) ∧
    run (Hub.step stackAddrs (crates uri)) h afterwards = some h' ∧
    h'.receiving = true ∧ h'.connections = [] ∧ ∀ x ∈ h'.listeners, x.forwarding = .ended := by
  have runs : ((run (Hub.step stackAddrs (crates uri)) (Hub.spawn actor) (oneClient.take 2)).bind fun h =>
      if h.aborted = false ∧ h.endpoint = true ∧ h.actor = .serving ∧ h.commands.length < CHANNEL_CAPACITY then
        (run (Hub.step stackAddrs (crates uri)) h afterwards).map fun h' =>
          h'.receiving && h'.connections.isEmpty && h'.listeners.all fun x => decide (x.forwarding = .ended)
      else none) = some true := by
    decide +kernel
  obtain ⟨h, reached, rest⟩ := Option.bind_eq_some_iff.mp runs
  obtain ⟨ready, later⟩ := Option.ite_none_right_eq_some.mp rest
  obtain ⟨h', accepted, all⟩ := Option.map_eq_some_iff.mp later
  simp only [Bool.and_eq_true, List.isEmpty_iff, List.all_eq_true, decide_eq_true_eq] at all
  exact ⟨h, h', reached, ready, accepted, all.1.1, all.1.2, all.2⟩

end Sample

/-- A client that comes after the shutdown is accepted; then the listener ends, and `accept`
returns `None`. -/
theorem shutdown_keeps_accepting_one_client : ∃ h down down',
    run (Hub.step Sample.stackAddrs (Sample.crates Sample.uri)) (Hub.spawn Sample.actor)
      (Sample.oneClient.take 2) = some h ∧
    run (Hub.step Sample.stackAddrs (Sample.crates Sample.uri)) h [.shutdown, .cancel] = some down ∧
    run (Hub.step Sample.stackAddrs (Sample.crates Sample.uri)) down Sample.afterwards = some down' ∧
    down'.step Sample.stackAddrs (Sample.crates Sample.uri) .acceptNone = some down' := by
  obtain ⟨h, h', reached, ⟨running, alive, serving, room⟩, later, silent⟩ := Sample.afterwards_runs
  obtain ⟨down, stopped, -, rest⟩ :=
    shutdown_keeps_accepting Sample.stackAddrs (Sample.crates Sample.uri) h running alive serving room
  obtain ⟨same, -, returns⟩ := rest Sample.afterwards (by decide)
  rw [later] at same
  have accepted := same (by simp [Sample.afterwards, Sample.oneClient])
  exact ⟨h, down, _, reached, stopped, accepted, (returns _ accepted).mpr silent⟩

/-! ### Going on accepting -/

namespace Hub
variable {h h' : Hub A} {config : TransportConfig} {labels : List (Label A)} {i : Nat} {x : Listener A}

/-- A call of `accept`, or a step that brings a connection of one listener forward. -/
def Label.drains (i : Nat) : Label A → Prop
  | .accept => True
  | .listener j .sends | .listener j .takes | .listener j .passes => j = i
  | _ => False

/-- The number of steps until everything of a listener is accepted, if `accept` returns
what else is queued as well. -/
def distance (h : Hub A) (x : Listener A) : Nat :=
  h.connections.length + 2 * x.forwarding.held.length + 3 * x.channel.length +
    4 * x.accepting.held.length

/-- Some step of the listener is possible as long as it holds anything and the queue is empty. -/
theorem Tracked.drains (tracked : Tracked C config labels h i x) (receiving : h.receiving = true)
    (queue : h.connections = []) (some_left : h.distance x ≠ 0) :
    ∃ act x' out, (Label.listener i act : Label A).drains i ∧
      x.step S C h.surroundings act = some (x', out) ∧ x'.made = x.made ∧
      (h.emit i out).receiving = true ∧ (h.emit i out).distance x' < h.distance x := by
  have room : h.surroundings.connectionRoom = true := by
    simp [surroundings, queue, CHANNEL_CAPACITY]
  have open_ : h.surroundings.receiving = true := receiving
  cases forwarding : x.forwarding with
  | passing conn =>
      refine ⟨.passes, { x with forwarding := .waiting, handed := x.handed ++ [conn] },
        .connection conn, rfl, ?_, rfl, receiving, ?_⟩
      · simp only [Listener.step, forwarding, open_, room, if_true]
      · simp [distance, emit, forwarding, queue, Forwarding.held]
  | reporting => exact absurd forwarding (tracked.current receiving).2.2
  | ended =>
      obtain ⟨accepting, channel⟩ := tracked.whole.stopped forwarding
      simp [distance, queue, forwarding, accepting, channel, Forwarding.held, Accepting.held] at some_left
  | waiting =>
      cases channel : x.channel with
      | cons conn rest =>
          refine ⟨.takes, { x with channel := rest, forwarding := .passing conn }, .nothing, rfl, ?_, rfl,
            receiving, ?_⟩
          · simp only [Listener.step, forwarding, channel]
          · simp [distance, emit, forwarding, channel, queue, Forwarding.held]
            omega
      | nil =>
          cases accepting : x.accepting with
          | sending conn =>
              refine ⟨.sends, { x with accepting := .waiting, channel := x.channel ++ [conn] }, .nothing,
                rfl, ?_, rfl, receiving, ?_⟩
              · simp [Listener.step, forwarding, channel, accepting, CHANNEL_CAPACITY]
              · simp [distance, emit, forwarding, channel, accepting, queue, Forwarding.held, Accepting.held]
          | waiting | handshake remote | ended =>
              simp [distance, queue, forwarding, accepting, channel, Forwarding.held, Accepting.held]
                at some_left

/-- Some such step is possible as long as anything is left. -/
theorem Sound.drains (sound : Sound C config labels h) (found : h.listeners[i]? = some x)
    (receiving : h.receiving = true) (some_left : h.distance x ≠ 0) :
    ∃ label h' x', label.drains i ∧ h.step S C label = some h' ∧ h'.listeners[i]? = some x' ∧
      h'.receiving = true ∧ x'.made = x.made ∧ h'.distance x' < h.distance x := by
  cases queue : h.connections with
  | cons conn rest =>
      refine ⟨.accept, { h with connections := rest, accepted := h.accepted ++ [conn] }, x, trivial, ?_,
        found, receiving, rfl, ?_⟩
      · refine step_eq_some.mpr ⟨running_of_receiving receiving, ?_⟩
        simp only [act, receiving, queue, if_true]
      · simp only [distance, queue, List.length_cons]
        omega
  | nil =>
      obtain ⟨act, x', out, drains, moved, made, open_, less⟩ :=
        (sound.tracked i x found).drains (S := S) receiving queue some_left
      refine ⟨.listener i act, { h with listeners := h.listeners.set i x' }.emit i out, x', drains, ?_, ?_,
        ?_, made, ?_⟩
      · refine step_eq_some.mpr ⟨running_of_receiving receiving, ?_⟩
        simp only [Hub.act, found, Option.bind_some, moved, Option.map_some]
      · rw [emit_listeners]
        exact List.getElem?_set_self (List.getElem?_eq_some_iff.mp found).1
      · cases out <;> exact open_
      · cases out <;> exact less

theorem Sound.drained (sound : Sound C config labels h) (found : h.listeners[i]? = some x)
    (receiving : h.receiving = true) (done : h.distance x = 0) : ofListener i h.accepted = x.made := by
  have conserved := sound.conserved found receiving
  unfold distance at done
  have queue := List.length_eq_zero_iff.mp (by omega : h.connections.length = 0)
  have passing := List.length_eq_zero_iff.mp (by omega : x.forwarding.held.length = 0)
  have channel := List.length_eq_zero_iff.mp (by omega : x.channel.length = 0)
  have sending := List.length_eq_zero_iff.mp (by omega : x.accepting.held.length = 0)
  rw [Listener.inFlight, queue, passing, channel, sending] at conserved
  simpa only [ofListener, List.filterMap_nil, List.append_nil] using conserved

/-- The listener is there, has made these connections, and somebody can accept them. -/
def Serves (C : Crates) (config : TransportConfig) (i : Nat) (made : List (Connection A)) (h : Hub A) :
    Prop :=
  ∃ labels x, Sound C config labels h ∧ h.listeners[i]? = some x ∧ h.receiving = true ∧ x.made = made

def remaining (h : Hub A) (i : Nat) : Nat := h.listeners[i]?.elim 0 h.distance

theorem Serves.nearer {made : List (Connection A)} (serves : Serves C config i made h)
    (left : h.remaining i ≠ 0) :
    ∃ more h', (∀ label ∈ more, label.drains i) ∧ run (Hub.step S C) h more = some h' ∧
      Serves C config i made h' ∧ h'.remaining i < h.remaining i := by
  obtain ⟨labels, x, sound, found, receiving, made⟩ := serves
  rw [remaining, found, Option.elim_some] at left
  obtain ⟨label, h', y, drains, stepped, there, open_, same, less⟩ :=
    sound.drains (S := S) found receiving left
  refine ⟨[label], h', List.forall_mem_singleton.mpr drains, run_cons_some.mpr ⟨h', stepped, rfl⟩,
    ⟨_, y, sound.step stepped, there, open_, same.trans made⟩, ?_⟩
  rw [remaining, remaining, there, found]
  exact less

theorem Sound.drain (sound : Sound C config labels h) (found : h.listeners[i]? = some x)
    (receiving : h.receiving = true) :
    ∃ more h', (∀ label ∈ more, label.drains i) ∧ run (Hub.step S C) h more = some h' ∧
      ofListener i h'.accepted = x.made := by
  obtain ⟨more, h', all, reached, ⟨labels, y, sound, there, open_, made⟩, done⟩ :=
    run_descends (Label.drains i) (Serves C config i x.made) (fun g => g.remaining i = 0)
      (fun g => g.remaining i) (fun _ => Serves.nearer) ⟨labels, x, sound, found, receiving, rfl⟩
  rw [remaining, there] at done
  exact ⟨more, h', all, reached, (sound.drained there open_ done).trans made⟩

end Hub

/-- No connection gets stuck: from every state the endpoint can get to, as long as somebody
can accept, the steps of one listener's own tasks and calls of `accept` are enough for all
the connections of that listener to be returned. -/
theorem accepted_eventually (S : StackAddrs A) (C : Crates) (actor : EndpointActor A)
    (labels : List (Hub.Label A)) (h : Hub A)
    (reached : run (Hub.step S C) (Hub.spawn actor) labels = some h) (receiving : h.receiving = true)
    (i : Nat) (x : Listener A) (listener : h.listeners[i]? = some x) :
    ∃ more h', (∀ label ∈ more, label.drains i) ∧ run (Hub.step S C) h more = some h' ∧
      ofListener i h'.accepted = x.made :=
  (Hub.sound_run reached).drain listener receiving

theorem accepted_eventually_one_client : ∃ h h' x more,
    run (Hub.step Sample.stackAddrs (Sample.crates Sample.uri)) (Hub.spawn Sample.actor)
      (Sample.oneClient.take 4) = some h ∧ h.listeners[0]? = some x ∧ x.made.length = 1 ∧
    run (Hub.step Sample.stackAddrs (Sample.crates Sample.uri)) h more = some h' ∧
    ofListener 0 h'.accepted = x.made := by
  have runs : ((run (Hub.step Sample.stackAddrs (Sample.crates Sample.uri)) (Hub.spawn Sample.actor)
      (Sample.oneClient.take 4)).bind fun h =>
        (h.listeners[0]?).map fun x => (h.receiving, x.made.length)) = some (true, 1) := by
    decide +kernel
  obtain ⟨h, reached, rest⟩ := Option.bind_eq_some_iff.mp runs
  obtain ⟨x, listener, both⟩ := Option.map_eq_some_iff.mp rest
  obtain ⟨more, h', -, later, accepted⟩ := accepted_eventually _ _ Sample.actor (Sample.oneClient.take 4)
    h reached (congrArg Prod.fst both) 0 x listener
  exact ⟨h, h', x, more, reached, listener, congrArg Prod.snd both, later, accepted⟩

end Foctet.Net
