import Foctet.Lib.Machine
import Foctet.Net.FileReceive
import Foctet.Net.Transport
import Mathlib.Logic.Function.Basic

/-! How the two ends of a QUIC connection name its streams. Each end numbers the streams it
opens and those it accepts with one counter of its own; nothing on the wire tells an end
which number the other one has chosen. -/
namespace Foctet.Net
open Foctet.Core Foctet.Lib

structure QuicConnection where
  writeBufferSize : Nat
  readBufferSize : Nat
  nextStreamId : UInt32
  deriving DecidableEq, Repr

namespace QuicConnection

def new : QuicConnection := ⟨DEFAULT_WRITE_BUFFER_SIZE, DEFAULT_READ_BUFFER_SIZE, 1⟩

/-- What both functions do once quinn has given them a stream, or an error. `fetch_add` on
an atomic wraps around. -/
def nameStream (c : QuicConnection) (given : Bool) : Option QuicStream × QuicConnection :=
  if given then
    (some ⟨⟨c.nextStreamId⟩, c.writeBufferSize, c.readBufferSize⟩,
      { c with nextStreamId := c.nextStreamId + 1 })
  else (none, c)

def openStream (c : QuicConnection) (opened : Bool) : Option QuicStream × QuicConnection :=
  c.nameStream opened

def acceptStream (c : QuicConnection) (accepted : Bool) : Option QuicStream × QuicConnection :=
  c.nameStream accepted

end QuicConnection

inductive End where
  | client
  | server
  deriving DecidableEq, Repr

def End.other : End → End
  | .client => .server
  | .server => .client

theorem End.eq_other_of_ne {e f : End} (ne : e ≠ f) : e = f.other := by
  cases e <;> cases f <;> first | rfl | exact absurd rfl ne

/-- Both ends, with the IDs each has given to the streams it opened and to those of the
other end that it accepted. -/
structure Ends where
  conn : End → QuicConnection
  opened : End → List StreamId
  accepted : End → List StreamId

/-- A call that has returned, with a stream or with an error. -/
inductive StreamCall where
  | openStream (e : End) (given : Bool)
  | acceptStream (e : End) (given : Bool)
  deriving DecidableEq, Repr

namespace Ends

def start : Ends := ⟨fun _ => .new, fun _ => [], fun _ => []⟩

/-- `accept_bi` returns the streams of the other end in the order they were opened, and waits
when there is no further one. -/
def step (s : Ends) : StreamCall → Option Ends
  | .openStream e given =>
      let named := (s.conn e).openStream given
      some { s with
        conn := Function.update s.conn e named.2
        opened := Function.update s.opened e
          (s.opened e ++ (named.1.map QuicStream.streamId).toList) }
  | .acceptStream e given =>
      if given && (s.opened e.other).length ≤ (s.accepted e).length then none
      else
        let named := (s.conn e).acceptStream given
        some { s with
          conn := Function.update s.conn e named.2
          accepted := Function.update s.accepted e
            (s.accepted e ++ (named.1.map QuicStream.streamId).toList) }

/-- Each stream that was accepted carries at both ends the same ID. -/
def NamedAlike (s : Ends) : Prop := ∀ e, s.accepted e <+: s.opened e.other

end Ends

/-- How many streams an end has named. -/
def named (e : End) (calls : List StreamCall) : Nat :=
  calls.countP fun c => c = .openStream e true ∨ c = .acceptStream e true

def opens (e : End) (calls : List StreamCall) : Nat := calls.count (.openStream e true)

def accepts (e : End) (calls : List StreamCall) : Nat := calls.count (.acceptStream e true)

/-- The `n`-th ID of a counter that starts at one. -/
def nameAt (n : Nat) : StreamId := ⟨.ofNat (n + 1)⟩

theorem nameAt_eq_iff {m n : Nat} : nameAt m = nameAt n ↔ m % 2 ^ 32 = n % 2 ^ 32 := by
  rw [nameAt, nameAt, StreamId.mk.injEq, ← UInt32.toNat_inj, UInt32.toNat_ofNat', UInt32.toNat_ofNat']
  omega

section counts
variable {e f : End} {calls : List StreamCall}

theorem named_concat (c : StreamCall) : named e (calls ++ [c]) =
    named e calls + if c = .openStream e true ∨ c = .acceptStream e true then 1 else 0 := by
  simp [named, List.countP_append, List.countP_singleton]

theorem opens_concat (c : StreamCall) :
    opens e (calls ++ [c]) = opens e calls + if c = .openStream e true then 1 else 0 := by
  simp [opens, List.count_append, List.count_singleton]

theorem accepts_concat (c : StreamCall) :
    accepts e (calls ++ [c]) = accepts e calls + if c = .acceptStream e true then 1 else 0 := by
  simp [accepts, List.count_append, List.count_singleton]

theorem named_eq (e : End) (calls : List StreamCall) :
    named e calls = opens e calls + accepts e calls := by
  induction calls using List.reverseRecOn with
  | nil => rfl
  | append_singleton calls c ih =>
      rw [named_concat, opens_concat, accepts_concat, ih]
      cases c with
      | openStream f given => simp [Nat.add_right_comm]
      | acceptStream f given => simp [Nat.add_assoc]

end counts

namespace Ends
variable {s t : Ends} {calls : List StreamCall} {e : End}

def opening (s : Ends) (e : End) : Ends :=
  { s with
    conn := Function.update s.conn e ((s.conn e).nameStream true).2
    opened := Function.update s.opened e (s.opened e ++ [⟨(s.conn e).nextStreamId⟩]) }

def accepting (s : Ends) (e : End) : Ends :=
  { s with
    conn := Function.update s.conn e ((s.conn e).nameStream true).2
    accepted := Function.update s.accepted e (s.accepted e ++ [⟨(s.conn e).nextStreamId⟩]) }

/-- A call that fails changes nothing; an accepting one needs a stream to accept. -/
theorem step_cases {c : StreamCall} (stepped : s.step c = some t) :
    t = s ∧ (∀ e, c ≠ .openStream e true) ∧ (∀ e, c ≠ .acceptStream e true) ∨
    (∃ e, c = .openStream e true ∧ t = s.opening e) ∨
    (∃ e, c = .acceptStream e true ∧ (s.accepted e).length < (s.opened e.other).length ∧
      t = s.accepting e) := by
  cases c with
  | openStream e given =>
      cases given with
      | true => exact .inr (.inl ⟨e, rfl, (Option.some.inj stepped).symm⟩)
      | false =>
          refine .inl ⟨?_, by simp, by simp⟩
          simpa [step, QuicConnection.openStream, QuicConnection.nameStream] using stepped.symm
  | acceptStream e given =>
      cases given with
      | true =>
          rw [step] at stepped
          split at stepped
          case isTrue => cases stepped
          case isFalse there =>
              refine .inr (.inr ⟨e, rfl, ?_, (Option.some.inj stepped).symm⟩)
              simpa using there
      | false =>
          refine .inl ⟨?_, by simp, by simp⟩
          simpa [step, QuicConnection.acceptStream, QuicConnection.nameStream] using stepped.symm

/-- Where a run stands, in terms of the calls it is made of. -/
structure Recorded (calls : List StreamCall) (s : Ends) : Prop where
  counter : ∀ e, (s.conn e).nextStreamId = .ofNat (named e calls + 1)
  accepted : ∀ e, (s.accepted e).length = accepts e calls
  opened : ∀ e, (s.opened e).length = opens e calls
  ids : ∀ pre c post, calls = pre ++ c :: post → ∀ e, c = .openStream e true →
    (s.opened e)[opens e pre]? = some (nameAt (named e pre))
  waiting : ∀ e, accepts e calls ≤ opens e.other calls

theorem recorded_start : Recorded [] start where
  counter _ := rfl
  accepted _ := rfl
  opened _ := rfl
  ids pre c post split := absurd split (by simp)
  waiting _ := Nat.le_refl 0

theorem Recorded.next_id (recorded : Recorded calls s) (e : End) :
    (⟨(s.conn e).nextStreamId⟩ : StreamId) = nameAt (named e calls) :=
  congrArg StreamId.mk (recorded.counter e)

theorem Recorded.failed {c : StreamCall} (recorded : Recorded calls s)
    (no_open : ∀ e, c ≠ .openStream e true) (no_accept : ∀ e, c ≠ .acceptStream e true) :
    Recorded (calls ++ [c]) s where
  counter e := by
    rw [named_concat, if_neg (by simp [no_open, no_accept])]
    exact recorded.counter e
  accepted e := by
    rw [accepts_concat, if_neg (no_accept e)]
    exact recorded.accepted e
  opened e := by
    rw [opens_concat, if_neg (no_open e)]
    exact recorded.opened e
  ids := forall_cut_concat.mpr ⟨recorded.ids, fun e opens => absurd opens (no_open e)⟩
  waiting e := by
    rw [accepts_concat, opens_concat, if_neg (no_accept e), if_neg (no_open e.other)]
    exact recorded.waiting e

theorem nameStream_counter {c : QuicConnection} {n : Nat} (counter : c.nextStreamId = .ofNat (n + 1)) :
    (c.nameStream true).2.nextStreamId = .ofNat (n + 1 + 1) := by
  simp only [QuicConnection.nameStream, if_true, counter]
  exact (UInt32.ofNat_add _ _).symm

/-- The counter of the end that names a stream is one ahead, the other end's stays. -/
theorem Recorded.counter_naming (recorded : Recorded calls s) {c : StreamCall}
    (names : ∀ f, c = .openStream f true ∨ c = .acceptStream f true ↔ e = f) (f : End) :
    (Function.update s.conn e ((s.conn e).nameStream true).2 f).nextStreamId =
      .ofNat (named f (calls ++ [c]) + 1) := by
  simp only [named_concat, names]
  by_cases same : e = f
  · subst same
    rw [Function.update_self, if_pos rfl]
    exact nameStream_counter (recorded.counter e)
  · rw [Function.update_of_ne (Ne.symm same), if_neg same]
    exact recorded.counter f

theorem length_update_concat (ids : End → List StreamId) (e f : End) (id : StreamId) :
    (Function.update ids e (ids e ++ [id]) f).length = (ids f).length + if e = f then 1 else 0 := by
  by_cases same : e = f
  · subst same
    rw [Function.update_self, if_pos rfl, List.length_append, List.length_singleton]
  · rw [Function.update_of_ne (Ne.symm same), if_neg same, Nat.add_zero]

theorem getElem?_update_concat {ids : End → List StreamId} {f : End} {n : Nat} {found : StreamId}
    (old : (ids f)[n]? = some found) (e : End) (id : StreamId) :
    (Function.update ids e (ids e ++ [id]) f)[n]? = some found := by
  by_cases same : f = e
  · subst same
    rw [Function.update_self, List.getElem?_append_left (List.getElem?_eq_some_iff.mp old).1, old]
  · rw [Function.update_of_ne same, old]

theorem Recorded.opening (recorded : Recorded calls s) (e : End) :
    Recorded (calls ++ [StreamCall.openStream e true]) (s.opening e) where
  counter := recorded.counter_naming (by simp)
  accepted f := by
    rw [accepts_concat, if_neg (by simp)]
    exact recorded.accepted f
  opened f := by
    rw [Ends.opening, length_update_concat, opens_concat, recorded.opened]
    simp only [StreamCall.openStream.injEq, and_true]
  ids := by
    refine forall_cut_concat.mpr ⟨?_, ?_⟩
    · intro pre c post split f opens
      exact getElem?_update_concat (recorded.ids pre c post split f opens) e _
    · intro f opens
      cases opens
      simp only [Ends.opening, Function.update_self]
      rw [← recorded.opened e, List.getElem?_concat_length, recorded.next_id]
  waiting f := by
    rw [accepts_concat, if_neg (by simp), opens_concat]
    exact Nat.le_trans (recorded.waiting f) (Nat.le_add_right _ _)

theorem Recorded.accepting (recorded : Recorded calls s)
    (there : (s.accepted e).length < (s.opened e.other).length) :
    Recorded (calls ++ [StreamCall.acceptStream e true]) (s.accepting e) where
  counter := recorded.counter_naming (by simp)
  accepted f := by
    rw [Ends.accepting, length_update_concat, accepts_concat, recorded.accepted]
    simp only [StreamCall.acceptStream.injEq, and_true]
  opened f := by
    rw [opens_concat, if_neg (by simp)]
    exact recorded.opened f
  ids := by
    refine forall_cut_concat.mpr ⟨recorded.ids, ?_⟩
    intro f opens
    cases opens
  waiting f := by
    have unopened : opens f.other (calls ++ [StreamCall.acceptStream e true]) = opens f.other calls := by
      rw [opens_concat, if_neg (by simp), Nat.add_zero]
    rw [accepts_concat, unopened]
    by_cases same : e = f
    · subst same
      rw [if_pos rfl, ← recorded.accepted e, ← recorded.opened e.other]
      exact there
    · simp only [StreamCall.acceptStream.injEq, same, false_and, if_false, Nat.add_zero]
      exact recorded.waiting f

theorem recorded_run {calls : List StreamCall} (ran : run step start calls = some t) :
    Recorded calls t := by
  induction calls using List.reverseRecOn generalizing t with
  | nil =>
      cases ran
      exact recorded_start
  | append_singleton calls c ih =>
      obtain ⟨s, before, stepped⟩ := run_concat_some.mp ran
      have recorded := ih before
      rcases step_cases stepped with ⟨rfl, no_open, no_accept⟩ | ⟨e, rfl, rfl⟩ | ⟨e, rfl, there, rfl⟩
      · exact recorded.failed no_open no_accept
      · exact recorded.opening e
      · exact recorded.accepting there

/-- The place of the stream that an end accepts next: as many streams were named at the
accepting end as at the opening end before it opened this one. -/
def InStep (e : End) (pre : List StreamCall) : Prop :=
  ∀ before rest, pre = before ++ StreamCall.openStream e.other true :: rest →
    opens e.other before = accepts e pre → named e pre % 2 ^ 32 = named e.other before % 2 ^ 32

theorem Recorded.inStep_iff (recorded : Recorded calls s)
    (there : (s.accepted e).length < (s.opened e.other).length) :
    InStep e calls ↔
      (s.opened e.other)[(s.accepted e).length]? = some ⟨(s.conn e).nextStreamId⟩ := by
  rw [recorded.next_id, recorded.accepted]
  constructor
  · intro in_step
    rw [recorded.accepted, recorded.opened] at there
    obtain ⟨before, rest, split, place⟩ := exists_cut_of_lt_count there
    rw [← show opens e.other before = _ from place, recorded.ids before _ rest split e.other rfl,
      Option.some.injEq, nameAt_eq_iff]
    exact (in_step before rest split place).symm
  · intro same before rest split place
    have own := recorded.ids before _ rest split e.other rfl
    rw [place, same, Option.some.injEq, nameAt_eq_iff] at own
    exact own

theorem prefix_concat_left_iff {α : Type} {l m : List α} {x : α} :
    l ++ [x] <+: m ↔ l <+: m ∧ m[l.length]? = some x := by
  constructor
  · rintro ⟨rest, rfl⟩
    refine ⟨⟨x :: rest, by simp⟩, ?_⟩
    simp
  · rintro ⟨⟨rest, rfl⟩, found⟩
    rw [List.getElem?_append_right (Nat.le_refl _), Nat.sub_self] at found
    cases rest with
    | nil => cases found
    | cons y rest =>
        obtain rfl := Option.some.inj found
        exact ⟨rest, by simp⟩

/-- Opening a stream names none that was accepted. -/
theorem Recorded.namedAlike_opening (recorded : Recorded calls s) (e : End) :
    (s.opening e).NamedAlike ↔ s.NamedAlike := by
  apply forall_congr'
  intro f
  by_cases same : f.other = e
  · subst same
    have shorter : (s.accepted f).length ≤ (s.opened f.other).length := by
      rw [recorded.accepted, recorded.opened]
      exact recorded.waiting f
    simp only [Ends.opening, Function.update_self, List.prefix_concat_iff]
    refine or_iff_right ?_
    intro whole
    rw [whole, List.length_append, List.length_singleton] at shorter
    omega
  · simp only [Ends.opening, Function.update_of_ne same]

theorem Recorded.namedAlike_accepting (recorded : Recorded calls s)
    (there : (s.accepted e).length < (s.opened e.other).length) :
    (s.accepting e).NamedAlike ↔ s.NamedAlike ∧ InStep e calls := by
  have own : (s.accepting e).accepted e <+: s.opened e.other ↔
      s.accepted e <+: s.opened e.other ∧ InStep e calls := by
    simp only [Ends.accepting, Function.update_self, prefix_concat_left_iff, recorded.inStep_iff there]
  have others {f : End} (same : f ≠ e) : (s.accepting e).accepted f = s.accepted f := by
    simp only [Ends.accepting, Function.update_of_ne same]
  constructor
  · intro alike
    have split := own.mp (alike e)
    refine ⟨fun f => ?_, split.2⟩
    by_cases same : f = e
    · subst same
      exact split.1
    · exact others same ▸ alike f
  · rintro ⟨alike, in_step⟩ f
    by_cases same : f = e
    · subst same
      exact own.mpr ⟨alike f, in_step⟩
    · exact (others same).symm ▸ alike f

theorem namedAlike_run_iff {calls : List StreamCall} (ran : run step start calls = some t) :
    t.NamedAlike ↔ ∀ pre c post, calls = pre ++ c :: post →
      ∀ e, c = .acceptStream e true → InStep e pre := by
  induction calls using List.reverseRecOn generalizing t with
  | nil =>
      cases ran
      exact iff_of_true (fun _ => List.nil_prefix) (fun pre c post split => absurd split (by simp))
  | append_singleton calls c ih =>
      obtain ⟨s, before, stepped⟩ := run_concat_some.mp ran
      have recorded := recorded_run before
      rw [forall_cut_concat, ← ih before]
      rcases step_cases stepped with ⟨rfl, -, no_accept⟩ | ⟨e, rfl, rfl⟩ | ⟨e, rfl, there, rfl⟩
      · exact (and_iff_left fun e accepts => absurd accepts (no_accept e)).symm
      · rw [recorded.namedAlike_opening]
        exact (and_iff_left nofun).symm
      · rw [recorded.namedAlike_accepting there]
        simp only [StreamCall.acceptStream.injEq, and_true, forall_eq']

/-- Both ends give every accepted stream the same ID exactly if, whenever an end accepts a
stream, it has named as many streams before as the other end had when it opened this one,
up to the 32 bits of the counters. -/
theorem streams_named_alike_iff (calls : List StreamCall) (t : Ends)
    (ran : run step start calls = some t) :
    t.NamedAlike ↔ ∀ pre e post, calls = pre ++ StreamCall.acceptStream e true :: post →
      ∀ before rest, pre = before ++ StreamCall.openStream e.other true :: rest →
        opens e.other before = accepts e pre →
          named e pre % 2 ^ 32 = named e.other before % 2 ^ 32 := by
  rw [namedAlike_run_iff ran]
  constructor
  · intro in_step pre e post split
    exact in_step pre _ post split e rfl
  · rintro in_step pre _ post split e rfl
    exact in_step pre e post split

/-- If one end only opens streams and the other only accepts them, all are named alike. -/
theorem single_opener_named_alike {calls : List StreamCall} {t : Ends} (opener : End)
    (never : ∀ given, .openStream opener.other given ∉ calls ∧ .acceptStream opener given ∉ calls)
    (ran : run step start calls = some t) : t.NamedAlike := by
  rw [namedAlike_run_iff ran]
  rintro pre c post split e rfl before rest cut place
  have acceptor : e = opener.other := by
    apply End.eq_other_of_ne
    rintro rfl
    exact (never true).2 (split ▸ by simp)
  subst acceptor
  have back : opener.other.other = opener := by cases opener <;> rfl
  rw [back] at place ⊢
  have unopened : opens opener.other pre = 0 := by
    apply List.count_eq_zero_of_not_mem
    intro member
    exact (never true).1 (split ▸ List.mem_append_left _ member)
  have unaccepted : accepts opener before = 0 := by
    apply List.count_eq_zero_of_not_mem
    intro member
    exact (never true).2 (split ▸ cut ▸ List.mem_append_left _ (List.mem_append_left _ member))
  rw [named_eq, named_eq, unopened, unaccepted, place, Nat.zero_add, Nat.add_zero]

/-- The client opens a stream, the server accepts it and opens one that the client accepts. -/
theorem streams_named_alike_iff_in_turn :
    ∃ t, run step start [.openStream .client true, .acceptStream .server true,
        .openStream .server true, .acceptStream .client true] = some t ∧ t.NamedAlike ∧
      named .client [.openStream .client true, .acceptStream .server true,
          .openStream .server true] % 2 ^ 32 =
        named .server [.openStream .client true, .acceptStream .server true] % 2 ^ 32 := by
  have alike (t : Ends) (ran : run step start [.openStream .client true, .acceptStream .server true,
      .openStream .server true, .acceptStream .client true] = some t) : t.NamedAlike := by
    cases ran
    intro e
    cases e <;> decide
  refine ⟨_, rfl, alike _ rfl, ?_⟩
  exact (streams_named_alike_iff _ _ rfl).mp (alike _ rfl) [.openStream .client true,
    .acceptStream .server true, .openStream .server true] .client [] rfl
    [.openStream .client true, .acceptStream .server true] [] rfl rfl

/-- Both ends open a stream before either accepts one: each stream is number one where it
was opened, and number two at the other end. -/
theorem streams_named_differently :
    ∃ t, run step start [.openStream .client true, .openStream .server true,
        .acceptStream .client true, .acceptStream .server true] = some t ∧
      t.opened .server = [⟨1⟩] ∧ t.accepted .client = [⟨2⟩] ∧
      t.opened .client = [⟨1⟩] ∧ t.accepted .server = [⟨2⟩] ∧ ¬ t.NamedAlike := by
  refine ⟨_, rfl, by decide, by decide, by decide, by decide, ?_⟩
  intro alike
  exact absurd (alike .client) (by decide)

end Ends
end Foctet.Net
