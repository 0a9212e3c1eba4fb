import Mathlib.Data.List.Basic

/-! A bounded channel between several senders and one receiver, as one of its users
finds it: what the others do to it comes in between. -/
namespace Foctet.Lib

inductive Poll (α : Type) where
  | ready (value : α)
  | pending
  deriving DecidableEq, Repr

structure Channel (α : Type) where
  capacity : Nat
  queue : List α
  /-- slots that waiting senders were given and have not filled yet -/
  reserved : Nat
  /-- the receiver has not been dropped -/
  receiver : Bool
  /-- a sender is left -/
  senders : Bool
  deriving DecidableEq, Repr

inductive TrySendError where
  | full
  | closed
  deriving DecidableEq, Repr

inductive TryRecvError where
  | empty
  | disconnected
  deriving DecidableEq, Repr

/-- What others do to a channel. -/
inductive Elsewhere (α : Type) where
  /-- a waiting sender is given a slot -/
  | reserve
  | fill (x : α)
  | take
  | hangUp
  deriving DecidableEq, Repr

namespace Channel
variable {α : Type} (c : Channel α)

def new (capacity : Nat) : Channel α := ⟨capacity, [], 0, true, true⟩

def full : Bool := c.capacity ≤ c.queue.length + c.reserved

def push (x : α) : Channel α := { c with queue := c.queue ++ [x] }

def trySend (x : α) : Except TrySendError (Channel α) :=
  if c.receiver then
    if c.full then .error .full else .ok (c.push x)
  else .error .closed

/-- One poll of the future that sends: it waits for a slot, and fails without a receiver. -/
def pollSend (x : α) : Poll (Except Unit (Channel α)) :=
  if c.receiver then
    if c.full then .pending else .ready (.ok (c.push x))
  else .ready (.error ())

def tryRecv : Except TryRecvError (α × Channel α) :=
  match c.queue with
  | x :: queue => .ok (x, { c with queue })
  | [] => if c.senders then .error .empty else .error .disconnected

/-- Whoever finds the channel not ready waits and changes nothing. -/
def elsewhere : Elsewhere α → Channel α
  | .reserve => if c.receiver && !c.full then { c with reserved := c.reserved + 1 } else c
  | .fill x => if 0 < c.reserved then { c.push x with reserved := c.reserved - 1 } else c
  | .take => { c with queue := c.queue.tail }
  | .hangUp => { c with receiver := false }

variable {c}

/-- Both ways of sending do the same but for a full channel with a receiver. -/
theorem pollSend_eq_trySend (x : α) (room : c.full = true → c.receiver = false) :
    c.pollSend x =
      match c.trySend x with
      | .ok c' => .ready (.ok c')
      | .error _ => .ready (.error ()) := by
  unfold pollSend trySend
  cases there : c.receiver with
  | false => rfl
  | true =>
      have free : c.full = false := by
        rw [Bool.eq_false_iff]
        intro full
        exact absurd (there.symm.trans (room full)) (by decide)
      simp only [free, if_true, Bool.false_eq_true, if_false]

theorem trySend_eq_ok {x : α} {c' : Channel α} :
    c.trySend x = .ok c' ↔ c.receiver = true ∧ c.full = false ∧ c.push x = c' := by
  unfold trySend
  cases c.receiver <;> cases c.full <;> simp

theorem trySend_fails_iff {x : α} :
    (∃ e, c.trySend x = .error e) ↔ c.receiver = false ∨ c.full = true := by
  unfold trySend
  cases c.receiver <;> cases c.full <;> simp

end Channel
end Foctet.Lib
