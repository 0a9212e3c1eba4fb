import Foctet.Lib.Transducer

/-! Messages on a stream of bytes. A framing is a decoder together with the encoding of one
message, such that the decoder reads exactly that message off it whatever bytes follow. Then it
reads any number of them, however they are cut, and a line of bytes with the decoder at its end
is a queue of messages. -/
namespace Foctet.Lib

structure Framing (σ β ι M : Type) extends Transducer σ β ι where
  start : σ
  fits : M → Prop
  bytes : M → List β
  /-- the item that a message is read as -/
  read : M → ι
  blocked : move start [] = none
  whole : ∀ m rest, fits m → toTransducer.settle start (bytes m ++ rest) =
    let later := toTransducer.settle start rest
    ⟨read m :: later.items, later.state, later.rest⟩

/-- Bytes written and not yet handed over, then the reader's buffer and decoder. -/
structure ByteLine (σ β : Type) where
  pipe : List β
  state : σ
  buffer : List β
  deriving DecidableEq, Repr

namespace Framing
variable {σ β ι M : Type} (F : Framing σ β ι M)

theorem settle_all {messages : List M} (fit : ∀ m ∈ messages, F.fits m) (rest : List β) :
    F.settle F.start (messages.flatMap F.bytes ++ rest) =
      let later := F.settle F.start rest
      ⟨messages.map F.read ++ later.items, later.state, later.rest⟩ := by
  induction messages with
  | nil => rfl
  | cons m messages ih =>
      rw [List.forall_mem_cons] at fit
      rw [List.flatMap_cons, List.append_assoc, F.whole m _ fit.1, ih fit.2]
      rfl

theorem settle_start : F.settle F.start [] = ⟨[], F.start, []⟩ := F.settle_blocked F.blocked

/-- However the bytes of some messages are cut, the messages come back. -/
theorem feed_all {messages : List M} (fit : ∀ m ∈ messages, F.fits m) {chunks : List (List β)}
    (cut : chunks.flatten = messages.flatMap F.bytes) :
    (F.feed F.start [] chunks).items = messages.map F.read := by
  rw [F.feed_eq_settle F.blocked, List.nil_append, cut, ← List.append_nil (List.flatMap _ _),
    F.settle_all fit, F.settle_start]
  exact List.append_nil _

/-! ### Lines of bytes -/

/-- What the reader will make of all the bytes under way. -/
def settled (l : ByteLine σ β) : Emitted σ β ι := F.settle l.state (l.buffer ++ l.pipe)

def hand (l : ByteLine σ β) (n : Nat) : ByteLine σ β :=
  { l with buffer := l.buffer ++ l.pipe.take n, pipe := l.pipe.drop n }

def write (l : ByteLine σ β) (m : M) : ByteLine σ β := { l with pipe := l.pipe ++ F.bytes m }

def next (l : ByteLine σ β) : Option ι × ByteLine σ β :=
  ((F.poll l.state l.buffer).1,
    { l with state := (F.poll l.state l.buffer).2.1, buffer := (F.poll l.state l.buffer).2.2 })

/-- The bytes under way are whole messages from where the decoder stands. -/
def Aligned (l : ByteLine σ β) : Prop := (F.settled l).state = F.start ∧ (F.settled l).rest = []

variable {F} {l : ByteLine σ β}

theorem settled_hand (n : Nat) : F.settled (hand l n) = F.settled l := by
  simp only [settled, hand, List.append_assoc, List.take_append_drop]

/-- A message written behind whole messages is one more whole message. -/
theorem settled_write {m : M} (aligned : F.Aligned l) (fits : F.fits m) :
    F.settled (F.write l m) = ⟨(F.settled l).items ++ [F.read m], F.start, []⟩ := by
  have one := F.whole m [] fits
  rw [List.append_nil, F.settle_start] at one
  obtain ⟨state, rest⟩ := aligned
  have further := F.settle_append l.state (l.buffer ++ l.pipe) (F.bytes m)
  unfold settled at state rest ⊢
  rw [state, rest, List.nil_append, one] at further
  rw [write, ← List.append_assoc]
  exact further

/-- One poll takes the first item off. -/
theorem settled_next : F.settled l =
    ⟨(F.next l).1.toList ++ (F.settled (F.next l).2).items, (F.settled (F.next l).2).state,
      (F.settled (F.next l).2).rest⟩ := F.settle_poll_append l.state l.buffer l.pipe

/-- With all bytes handed over, a poll finds the first item under way. -/
theorem next_prompt (empty : l.pipe = []) : (F.next l).1 = (F.settled l).items.head? := by
  cases found : (F.next l).1 with
  | some x =>
      rw [settled_next, found]
      rfl
  | none =>
      rw [settled, empty, List.append_nil, F.settle_poll_none found]
      rfl

end Framing
end Foctet.Lib
