import Foctet.Mux.Channels

/-! Where the end of a new stream is until the application holds it. The channel of a stream
that nobody could ever read from would block the whole session once it is full; there is no
such channel. -/
namespace Foctet.Mux
open Foctet.Core Foctet.Lib
open SessionActor (Input Step accepted)

def Command.reply : Command → ReplyId
  | .openStream reply | .shutdown reply => reply

/-- A call on the session waits in the channel, then perhaps for the other side, and then has
its answer; it is never in two of these places. -/
structure Calls (commands : List Command) (nextReply : ReplyId) (pending : Table StreamId ReplyId)
    (replies : Table ReplyId (Except String LogicalStream)) : Prop where
  queued : ∀ cmd ∈ commands, cmd.reply < nextReply
  once : (commands.map Command.reply).Nodup
  waiting : ∀ i r, pending.get i = some r → r < nextReply ∧ r ∉ commands.map Command.reply
  distinct : ∀ i j r, pending.get i = some r → pending.get j = some r → i = j
  answered : ∀ r x, replies.get r = some x →
    r < nextReply ∧ r ∉ commands.map Command.reply ∧ ∀ i, pending.get i ≠ some r

section calls
variable {commands : List Command} {nextReply : ReplyId} {pending : Table StreamId ReplyId}
  {replies : Table ReplyId (Except String LogicalStream)} {cmd : Command} {i : StreamId} {r : ReplyId}

theorem calls_none : Calls [] 0 Table.empty Table.empty where
  queued cmd there := by cases there
  once := List.nodup_nil
  waiting i r there := by cases there
  distinct i j r there := by cases there
  answered r x there := by cases there

theorem Calls.called (calls : Calls commands nextReply pending replies) (new : cmd.reply = nextReply) :
    Calls (commands ++ [cmd]) (nextReply + 1) pending replies := by
  have elsewhere : ∀ r < nextReply, r ∉ commands.map Command.reply →
      r ∉ (commands ++ [cmd]).map Command.reply := by
    intro r old absent
    rw [List.map_append, List.mem_append, List.map_singleton, List.mem_singleton, new]
    rintro (there | rfl)
    · exact absent there
    · exact Nat.lt_irrefl _ old
  refine ⟨?_, ?_, ?_, calls.distinct, ?_⟩
  · rw [List.forall_mem_append, List.forall_mem_singleton, new]
    exact ⟨fun cmd there => Nat.lt_succ_of_lt (calls.queued cmd there), Nat.lt_succ_self _⟩
  · rw [List.map_append, List.map_singleton, new, ← List.concat_eq_append]
    refine calls.once.concat fun there => ?_
    obtain ⟨cmd, member, same⟩ := List.mem_map.mp there
    exact Nat.lt_irrefl _ (same ▸ calls.queued cmd member)
  · intro i r waits
    obtain ⟨old, absent⟩ := calls.waiting i r waits
    exact ⟨Nat.lt_succ_of_lt old, elsewhere r old absent⟩
  · intro r x there
    obtain ⟨old, absent, apart⟩ := calls.answered r x there
    exact ⟨Nat.lt_succ_of_lt old, elsewhere r old absent, apart⟩

theorem Calls.taken (calls : Calls (cmd :: commands) nextReply pending replies) :
    Calls commands nextReply pending replies where
  queued := (List.forall_mem_cons.mp calls.queued).2
  once := (List.nodup_cons.mp calls.once).2
  waiting i r waits := (calls.waiting i r waits).imp id fun absent there =>
    absent (List.mem_cons_of_mem _ there)
  distinct := calls.distinct
  answered r x there := (calls.answered r x there).imp id fun rest =>
    rest.imp (fun absent there => absent (List.mem_cons_of_mem _ there)) id

theorem Calls.asked (calls : Calls (.openStream r :: commands) nextReply pending replies) :
    Calls commands nextReply (pending.insert i r) replies := by
  have fresh : r ∉ commands.map Command.reply := (List.nodup_cons.mp calls.once).1
  have own : ∀ j q, pending.get j = some q → q ≠ r := by
    rintro j q waits rfl
    exact (calls.waiting j q waits).2 List.mem_cons_self
  refine ⟨calls.taken.queued, calls.taken.once, ?_, ?_, ?_⟩
  · exact Table.forall_insert ⟨calls.queued _ List.mem_cons_self, fresh⟩
      fun j q _ waits => calls.taken.waiting j q waits
  · intro j k q one two
    rw [Table.get_insert] at one two
    split at one <;> split at two
    · rename_i here there
      rw [here, there]
    · cases one
      exact absurd rfl (own k _ two)
    · cases two
      exact absurd rfl (own j _ one)
    · exact calls.distinct j k q one two
  · intro q x there
    obtain ⟨old, absent, apart⟩ := calls.answered q x there
    refine ⟨old, calls.taken.answered q x there |>.2.1, fun j waits => ?_⟩
    rw [Table.get_insert] at waits
    split at waits
    · cases waits
      exact absent List.mem_cons_self
    · exact apart j waits

theorem Calls.answers (calls : Calls commands nextReply pending replies) (waits : pending.get i = some r)
    (result : Except String LogicalStream) :
    Calls commands nextReply (pending.remove i) (replies.insert r result) := by
  refine ⟨calls.queued, calls.once, fun j q there => calls.waiting j q (Table.get_of_get_remove there),
    fun j k q one two => calls.distinct j k q (Table.get_of_get_remove one) (Table.get_of_get_remove two), ?_⟩
  refine Table.forall_insert ?_ ?_
  · obtain ⟨given, gone⟩ := calls.waiting i r waits
    refine ⟨given, gone, fun j there => ?_⟩
    obtain rfl := calls.distinct i j r waits (Table.get_of_get_remove there)
    rw [Table.get_remove_self] at there
    cases there
  · intro q y _ there
    obtain ⟨given, gone, apart⟩ := calls.answered q y there
    exact ⟨given, gone, fun j still => apart j (Table.get_of_get_remove still)⟩

theorem Calls.returns (calls : Calls commands nextReply pending replies) :
    Calls commands nextReply pending (replies.remove r) :=
  ⟨calls.queued, calls.once, calls.waiting, calls.distinct,
    fun q x there => calls.answered q x (Table.get_of_get_remove there)⟩

end calls

namespace Peer

@[simp] theorem advance_nextReply (p : Peer) (x : Input) (a : SessionActor) (es : List Effect) :
    (p.advance x a es).nextReply = p.nextReply :=
  foldl_apply_same Peer.nextReply (fun _ e => by cases e <;> rfl) es p

def Asked (p : Peer) : Prop := Calls p.commands p.nextReply p.actor.pendingStreams p.replies

/-- The receiver of a channel is with the application, or on its way there. -/
def Reach (p : Peer) (c : ChannelId) : Prop :=
  p.handles.get c ≠ none ∨ (∃ s ∈ p.accepts, s.frameReceiver = c) ∨
    (∃ r s, p.replies.get r = some (.ok s) ∧ s.frameReceiver = c) ∨
    ∃ s, p.actor.phase = .awaiting (.announce s) ∧ s.frameReceiver = c

/-- Every channel is within reach whose receiver has not been dropped. -/
structure Within (p : Peer) : Prop where
  asked : p.Asked
  reach : ∀ c < p.actor.nextChannel, p.alive c = true → p.Reach c

theorem within_spawn (side : SessionSide) (sessionId : SessionId) : Within (spawn side sessionId) :=
  ⟨calls_none, fun c less => by cases less⟩

section
variable {p p' : Peer}

/-- What the actor does with anything but a command to the calls that wait in it: nothing, or
one of them is answered. -/
theorem pending_step {a a' : SessionActor} {x : Input} {es : List Effect} (h : Step a x a' es)
    (other : ∀ cmd, x ≠ .command cmd) (p : Peer) :
    (a'.pendingStreams = a.pendingStreams ∧ (es.foldl apply p).replies = p.replies) ∨
      ∃ i r result, a.pendingStreams.get i = some r ∧
        a'.pendingStreams = a.pendingStreams.remove i ∧
        (es.foldl apply p).replies = p.replies.insert r result := by
  cases h with
  | openResponse top free plain opens waits => exact .inr ⟨_, _, _, waits, rfl, rfl⟩
  | openReset top free resets waits => exact .inr ⟨_, _, _, waits, rfl, rfl⟩
  | openStream | shutdownCommand => exact absurd rfl (other _)
  | _ => exact .inl ⟨rfl, rfl⟩

theorem Asked.advance (asked : Asked p) {x : Input} {a : SessionActor} {es : List Effect}
    (h : Step p.actor x a es) (other : ∀ cmd, x ≠ .command cmd) : Asked (p.advance x a es) := by
  rw [Asked, advance_commands, advance_nextReply]
  change Calls _ _ a.pendingStreams (es.foldl apply p).replies
  rcases pending_step h other p with ⟨same, replies⟩ | ⟨i, r, result, waits, rest, replies⟩
  · rw [same, replies]
    exact asked
  · rw [rest, replies]
    exact Calls.answers asked waits result

/-- No step of the actor takes a channel out of reach. -/
theorem Reach.advance {c : ChannelId} (asked : Asked p) {x : Input} {a : SessionActor} {es : List Effect}
    (h : Step p.actor x a es) (announces : ∀ s, p.actor.phase = .awaiting (.announce s) → x ≠ .resume false)
    (reach : p.Reach c) : (p.advance x a es).Reach c := by
  rcases reach with handle | ⟨s, waits, rfl⟩ | ⟨r, s, waits, rfl⟩ | ⟨s, waits, rfl⟩
  · refine .inl ?_
    rw [advance_handles]
    exact handle
  · refine .inr (.inl ⟨s, ?_, rfl⟩)
    change s ∈ (es.foldl apply p).accepts
    rw [foldl_apply_accepts]
    exact List.mem_append_left _ waits
  · refine .inr (.inr (.inl ⟨r, s, ?_, rfl⟩))
    change (es.foldl apply p).replies.get r = some (.ok s)
    cases h with
    | openResponse top free plain opens pending | openReset top free resets pending =>
        refine (Table.get_insert_of_ne _ ?_ _).trans waits
        rintro rfl
        exact (asked.answered r _ waits).2.2 _ pending
    | _ => exact waits
  · cases h with
    | announced top =>
        cases waits.symm.trans top
        refine .inr (.inl ⟨s, ?_, rfl⟩)
        exact List.mem_append_right _ List.mem_cons_self
    | announceFailed top => exact absurd rfl (announces _ top)
    | cancelled top | readError top | eof top | forward top | openRequest top | openResponse top
      | openReset top | unknown top | openStream top | shutdownCommand top | eventFrame top
      | eventClosed top | eventError top | forwarded top | forwardFailed top | responded top
      | respondFailed top | requested top | requestFailed top | written top | writeFailed top =>
        cases waits.symm.trans top

/-- A channel that a step of the actor makes is on its way to the application. -/
theorem reach_new {c : ChannelId} {x : Input} {a : SessionActor} {es : List Effect}
    (h : Step p.actor x a es) (new : p.actor.nextChannel ≤ c) (made : c < a.nextChannel) :
    (p.advance x a es).Reach c := by
  cases h with
  | openRequest =>
      obtain rfl : p.actor.nextChannel = c := Nat.le_antisymm new (Nat.le_of_lt_succ made)
      exact .inr (.inr (.inr ⟨_, rfl, rfl⟩))
  | openResponse =>
      obtain rfl : p.actor.nextChannel = c := Nat.le_antisymm new (Nat.le_of_lt_succ made)
      exact .inr (.inr (.inl ⟨_, _, Table.get_insert_self _ _ _, rfl⟩))
  | _ => exact absurd made (Nat.not_lt_of_le new)

theorem reach_advance (within : Within p) {x : Input} {a : SessionActor} {es : List Effect}
    (h : Step p.actor x a es)
    (announces : ∀ s, p.actor.phase = .awaiting (.announce s) → x ≠ .resume false) :
    ∀ c < a.nextChannel, p.alive c = true → (p.advance x a es).Reach c := by
  intro c made alive
  rcases Nat.lt_or_ge c p.actor.nextChannel with old | new
  · exact (within.reach c old alive).advance within.asked h announces
  · exact reach_new h new made

theorem Within.advance (within : Within p) {x : Input} {a : SessionActor} {es : List Effect}
    (h : Step p.actor x a es) (other : ∀ cmd, x ≠ .command cmd)
    (announces : ∀ s, p.actor.phase = .awaiting (.announce s) → x ≠ .resume false) :
    Within (p.advance x a es) := by
  refine ⟨within.asked.advance h other, ?_⟩
  rw [advance_alive]
  exact reach_advance within h announces

/-- A handle that is replaced, or new, takes no channel out of reach. -/
theorem Reach.insert {c d : ChannelId} (reach : p.Reach c) (new : Handle) :
    Reach { p with handles := p.handles.insert d new } c := by
  rcases reach with handle | rest
  · refine .inl ?_
    change (p.handles.insert d new).get c ≠ none
    rw [Table.get_insert]
    split
    · exact Option.some_ne_none new
    · exact handle
  · exact .inr rest

theorem Reach.fails {c : ChannelId} {reply : ReplyId} (reach : p.Reach c)
    (other : ∀ s, p.replies.get reply = some (.ok s) → s.frameReceiver ≠ c) :
    Reach { p with replies := p.replies.remove reply } c := by
  rcases reach with handle | queued | ⟨r, s, there, own⟩ | announced
  · exact .inl handle
  · exact .inr (.inl queued)
  · have left : r ≠ reply := by
      rintro rfl
      exact other s there own
    exact .inr (.inr (.inl ⟨r, s, (Table.get_remove_of_ne _ left).trans there, own⟩))
  · exact .inr (.inr (.inr announced))

theorem Reach.returns {c : ChannelId} {reply : ReplyId} {s : LogicalStream} (reach : p.Reach c)
    (waits : p.replies.get reply = some (.ok s)) :
    Reach { p with
      replies := p.replies.remove reply
      handles := p.handles.insert s.frameReceiver ⟨s, false, []⟩ } c := by
  rcases eq_or_ne s.frameReceiver c with rfl | elsewhere
  · exact .inl (by simp)
  · refine (reach.fails fun t there => ?_).insert _
    cases there.symm.trans waits
    exact elsewhere

theorem Reach.accepts {c : ChannelId} {s : LogicalStream} {rest : List LogicalStream} (reach : p.Reach c)
    (head : p.accepts = s :: rest) :
    Reach { p with
      accepts := rest
      handles := p.handles.insert s.frameReceiver ⟨s, false, []⟩ } c := by
  rcases eq_or_ne s.frameReceiver c with rfl | elsewhere
  · exact .inl (by simp)
  · have left : Reach { p with accepts := rest } c := by
      rcases reach with handle | ⟨t, there, own⟩ | others
      · exact .inl handle
      · rw [head, List.mem_cons] at there
        rcases there with rfl | there
        · exact absurd own elsewhere
        · exact .inr (.inl ⟨t, there, own⟩)
      · exact .inr (.inr others)
    exact left.insert _

/-- The channel a handle is dropped from is not asked for any more. -/
theorem Reach.drop {c d : ChannelId} (reach : p.Reach c) (other : c ≠ d) : (p.drop d).Reach c := by
  rcases reach with handle | rest
  · refine .inl ?_
    change (p.handles.remove d).get c ≠ none
    rw [Table.get_remove_of_ne _ other]
    exact handle
  · exact .inr rest

theorem alive_disconnect {c d : ChannelId} (alive : (p.disconnect d).alive c = true) :
    c ≠ d ∧ p.alive c = true := by
  change (if c = d then false else p.alive c) = true at alive
  split at alive
  · cases alive
  · exact ⟨‹_›, alive⟩

theorem Within.moved {act : Act} (m : Moved p act p') (within : Within p) : Within p' := by
  cases m with
  | @command cmd rest a es queued hs =>
      have calls : Calls (cmd :: rest) p.nextReply p.actor.pendingStreams p.replies := queued ▸ within.asked
      have popped : Within { p with commands := rest, allocated := p.noteAllocated cmd } :=
        ⟨calls.taken, within.reach⟩
      refine ⟨?_, ?_⟩
      · cases hs with
        | openStream => exact calls.asked
        | shutdownCommand => exact calls.taken
      · rw [advance_alive]
        exact reach_advance popped hs (fun s _ same => by cases same)
  | @event i e rest a es queued hs =>
      have popped : Within { p with events := rest, sent := p.noteSent i e } := ⟨within.asked, within.reach⟩
      exact popped.advance hs (fun cmd same => by cases same) (fun s _ same => by cases same)
  | @resume ok a es ends hs =>
      refine within.advance hs (fun cmd same => by cases same) fun s top failed => ?_
      cases failed
      exact outcome_announce top ends
  | cancel hs =>
      exact within.advance hs (fun cmd same => by cases same) (fun s _ same => by cases same)
  | openStream | shutdown => exact ⟨Calls.called within.asked rfl, within.reach⟩
  | openFails waits =>
      exact ⟨Calls.returns within.asked, fun c less alive => (within.reach c less alive).fails
        fun s there => by cases there.symm.trans waits⟩
  | openReturns waits =>
      exact ⟨Calls.returns within.asked, fun c less alive => (within.reach c less alive).returns waits⟩
  | acceptStream head =>
      exact ⟨within.asked, fun c less alive => (within.reach c less alive).accepts head⟩
  | split | offer | pushFails | push | close | recv =>
      exact ⟨within.asked, fun c less alive => (within.reach c less alive).insert _⟩
  | submit => exact ⟨within.asked, within.reach⟩
  | drop =>
      refine ⟨within.asked, fun c less alive => ?_⟩
      obtain ⟨other, alive⟩ := alive_disconnect alive
      exact (within.reach c less alive).drop other
  | dropReader => exact ⟨within.asked, fun c less alive => within.reach c less (alive_disconnect alive).2⟩

end
end Peer

/-- In every run of the two sessions every channel stays within reach. -/
theorem within_run {K : Link L} {sessionId : SessionSide → SessionId} {labels : List Net.Label} {n : Net L}
    (reached : run (Net.step K) (Net.spawn K sessionId) labels = some n) (s : SessionSide) :
    (n.peer s).Within :=
  Net.peer_run s Peer.Within
    (fun _ _ _ _ hs within => within.advance hs (fun cmd same => by cases same) fun t _ same => by cases same)
    (fun _ _ _ moved within => within.moved moved) reached (Peer.within_spawn s (sessionId s))

end Foctet.Mux
