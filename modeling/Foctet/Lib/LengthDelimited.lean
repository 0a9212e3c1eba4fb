import Foctet.Lib.BigEndian
import Foctet.Lib.Framing

/-! Codecs of messages on a byte stream, and the one that puts each behind its length as a
four-byte word. Lengths above a limit are refused at both ends. -/
namespace Foctet.Lib

/-- What is relied on of a codec: it takes every message up to its limit, and what it has taken
it reads back. An item is a message, or a refusal after which there are no more. -/
structure MessageCodec (σ : Type) extends Framing σ UInt8 (Option (List UInt8)) (List UInt8) where
  limit : Nat
  /-- appends one message to a buffer, unless it is refused -/
  encode : List UInt8 → List UInt8 → Option (List UInt8)
  accepts : ∀ m dst, m.length ≤ limit → encode m dst = some (dst ++ bytes m) ∧ fits m
  reads : ∀ m, read m = some m
  word : limit < 2 ^ 32

namespace LengthDelimited

/-- The length of the next message is to be read, or is known; or it was refused. -/
inductive State where
  | head
  | data (n : Nat)
  | failed
  deriving DecidableEq, Repr

/-- Appends one message, unless it is too long. -/
def encode (limit : Nat) (message dst : List UInt8) : Option (List UInt8) :=
  if limit < message.length then none
  else some (dst ++ (putU32 (.ofNat message.length) ++ message))

/-- The bytes of one message with its length. -/
def framed (message : List UInt8) : List UInt8 := putU32 (.ofNat message.length) ++ message

def moves (limit : Nat) : State → List UInt8 → Option (Option (Option (List UInt8)) × State × List UInt8)
  | .head, src =>
      if src.length < 4 then none
      else if limit < (getU32 src).1.toNat then some (some none, .failed, src)
      else some (none, .data (getU32 src).1.toNat, src.drop 4)
  | .data n, src =>
      if src.length < n then none else some (some (some (src.take n)), .head, src.drop n)
  | .failed, _ => none

def weight : State → Nat
  | .head => 1
  | .data _ => 2
  | .failed => 0

theorem getU32_append {a : List UInt8} (enough : 4 ≤ a.length) (b : List UInt8) :
    (getU32 (a ++ b)).1 = (getU32 a).1 := by
  obtain ⟨v, rest, rfl⟩ := exists_putU32 enough
  rw [List.append_assoc, getU32_putU32, getU32_putU32]

/-- The decoder; an item is a message, or the refusal after which there are no more. -/
def reader (limit : Nat) : Transducer State UInt8 (Option (List UInt8)) where
  move := moves limit
  rank s src := 2 * src.length + weight s
  stable := by
    intro s a o s' a' moved b
    cases s with
    | head =>
        simp only [moves] at moved ⊢
        split at moved
        case isTrue => cases moved
        case isFalse enough =>
            have more : ¬ (a ++ b).length < 4 := by
              rw [List.length_append]
              omega
            rw [if_neg more, getU32_append (Nat.not_lt.mp enough)]
            split at moved
            case isTrue long =>
                cases moved
                rw [if_pos long]
            case isFalse fits =>
                cases moved
                rw [if_neg fits, List.drop_append_of_le_length (Nat.not_lt.mp enough)]
    | data n =>
        simp only [moves] at moved ⊢
        split at moved
        case isTrue => cases moved
        case isFalse enough =>
            cases moved
            have within := Nat.not_lt.mp enough
            have more : ¬ (a ++ b).length < n := by
              rw [List.length_append]
              omega
            rw [if_neg more, List.take_append_of_le_length within, List.drop_append_of_le_length within]
    | failed => cases moved
  lower := by
    intro s a o s' a' moved
    cases s with
    | head =>
        simp only [moves] at moved
        split at moved
        case isTrue => cases moved
        case isFalse enough =>
            split at moved
            all_goals
              cases moved
              simp only [weight, List.length_drop]
              omega
    | data n =>
        simp only [moves] at moved
        split at moved
        case isTrue => cases moved
        case isFalse enough =>
            cases moved
            simp only [weight, List.length_drop]
            omega
    | failed => cases moved

variable {limit : Nat}

theorem reader_move : (reader limit).move = moves limit := rfl

theorem encode_eq {message : List UInt8} (fits : message.length ≤ limit) (dst : List UInt8) :
    encode limit message dst = some (dst ++ framed message) := if_neg (Nat.not_lt.mpr fits)

/-- Two moves read one message off the front of the buffer. -/
theorem settle_framed {message : List UInt8} (fits : message.length ≤ limit) (word : limit < 2 ^ 32)
    (rest : List UInt8) :
    (reader limit).settle .head (framed message ++ rest) =
      let later := (reader limit).settle .head rest
      ⟨some message :: later.items, later.state, later.rest⟩ := by
  have value : (getU32 (framed message ++ rest)).1.toNat = message.length := by
    rw [framed, List.append_assoc, getU32_putU32, UInt32.toNat_ofNat',
      Nat.mod_eq_of_lt (Nat.lt_of_le_of_lt fits word)]
  have body : (framed message ++ rest).drop 4 = message ++ rest := by
    rw [framed, List.append_assoc]
    exact List.drop_left' (putU32_length _)
  have enough : ¬ (framed message ++ rest).length < 4 := by
    simp only [framed, List.length_append, putU32_length]
    omega
  have head : (reader limit).move .head (framed message ++ rest) =
      some (none, .data message.length, message ++ rest) := by
    rw [reader_move, moves, if_neg enough, value, if_neg (Nat.not_lt.mpr fits), body]
  have whole : ¬ (message ++ rest).length < message.length := by
    rw [List.length_append]
    omega
  have data : (reader limit).move (.data message.length) (message ++ rest) =
      some (some (some message), .head, rest) := by
    rw [reader_move, moves, if_neg whole, List.take_left, List.drop_left]
  rw [(reader limit).settle_move head, (reader limit).settle_move data]
  rfl

/-- The codec with this limit. -/
def codec (limit : Nat) (word : limit < 2 ^ 32) : MessageCodec State where
  toTransducer := reader limit
  start := .head
  fits m := m.length ≤ limit
  bytes := framed
  read := some
  blocked := rfl
  whole _ rest fits := settle_framed fits word rest
  limit := limit
  encode := encode limit
  accepts _ dst fits := ⟨encode_eq fits dst, fits⟩
  reads _ := rfl
  word := word

end LengthDelimited
end Foctet.Lib
