import Mathlib.Data.List.Basic
import Mathlib.Algebra.Ring.Nat

/-! Four-byte big-endian words. Both directions go through the natural value of
the word, so the round trip is digit arithmetic. -/
namespace Foctet.Lib

/-- The four bytes of a word, most significant first. -/
def putU32 (v : UInt32) : List UInt8 :=
  [.ofNat (v.toNat / 2 ^ 24), .ofNat (v.toNat / 2 ^ 16), .ofNat (v.toNat / 2 ^ 8), .ofNat v.toNat]

/-- Reads a word off the front. A reader that has not checked for four bytes
gets zero and its own input back. -/
def getU32 : List UInt8 → UInt32 × List UInt8
  | b₀ :: b₁ :: b₂ :: b₃ :: rest =>
      (.ofNat (b₀.toNat * 2 ^ 24 + b₁.toNat * 2 ^ 16 + b₂.toNat * 2 ^ 8 + b₃.toNat), rest)
  | short => (0, short)

/-- Reads one byte off the front. -/
def getU8 : List UInt8 → UInt8 × List UInt8
  | b :: rest => (b, rest)
  | [] => (0, [])

@[simp] theorem putU32_length (v : UInt32) : (putU32 v).length = 4 := rfl

@[simp] theorem getU8_cons (b : UInt8) (rest : List UInt8) : getU8 (b :: rest) = (b, rest) := rfl

@[simp] theorem getU32_putU32 (v : UInt32) (rest : List UInt8) :
    getU32 (putU32 v ++ rest) = (v, rest) := by
  have hv := v.toNat_lt
  have digits : v.toNat / 2 ^ 24 % 2 ^ 8 * 2 ^ 24 + v.toNat / 2 ^ 16 % 2 ^ 8 * 2 ^ 16 +
      v.toNat / 2 ^ 8 % 2 ^ 8 * 2 ^ 8 + v.toNat % 2 ^ 8 = v.toNat := by omega
  simp only [putU32, List.cons_append, List.nil_append, getU32, UInt8.toNat_ofNat', digits,
    UInt32.ofNat_toNat]

/-- Any four bytes are the bytes of a word. -/
theorem exists_putU32 {bytes : List UInt8} (enough : 4 ≤ bytes.length) :
    ∃ v rest, bytes = putU32 v ++ rest := by
  match bytes, enough with
  | b₀ :: b₁ :: b₂ :: b₃ :: rest, _ =>
      refine ⟨(getU32 (b₀ :: b₁ :: b₂ :: b₃ :: rest)).1, rest, ?_⟩
      have h₀ := b₀.toNat_lt
      have h₁ := b₁.toNat_lt
      have h₂ := b₂.toNat_lt
      have h₃ := b₃.toNat_lt
      simp only [getU32, putU32, UInt32.toNat_ofNat', List.cons_append, List.nil_append,
        List.cons.injEq, and_true]
      refine ⟨?_, ?_, ?_, ?_⟩ <;>
      · apply UInt8.toNat.inj
        rw [UInt8.toNat_ofNat']
        omega

end Foctet.Lib
