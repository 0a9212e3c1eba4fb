import Mathlib.Algebra.Ring.Nat
import Mathlib.Data.List.Basic
import Mathlib.Data.List.Induction

/-! Bytes as text, some bits to a character: the bits of all bytes in one row, cut into
groups, the last one filled up with zeros, and a digit for each group. -/
namespace Foctet.Lib.DigitText

/-- The lowest bits of a number, as many as given, the highest of them first. -/
def bitsOf : Nat → Nat → List Bool
  | 0, _ => []
  | width + 1, n => bitsOf width (n / 2) ++ [decide (n % 2 = 1)]

def ofBits (bits : List Bool) : Nat := bits.foldl (fun n bit => 2 * n + bit.toNat) 0

theorem ofBits_concat (bits : List Bool) (bit : Bool) :
    ofBits (bits ++ [bit]) = 2 * ofBits bits + bit.toNat := List.foldl_concat ..

theorem bitsOf_length (width n : Nat) : (bitsOf width n).length = width := by
  induction width generalizing n with
  | zero => rfl
  | succ width ih => rw [bitsOf, List.length_append, ih, List.length_singleton]

theorem ofBits_bitsOf {width n : Nat} (fits : n < 2 ^ width) : ofBits (bitsOf width n) = n := by
  induction width generalizing n with
  | zero =>
      have zero : n = 0 := by omega
      rw [zero]
      rfl
  | succ width ih =>
      have half : n / 2 < 2 ^ width := by omega
      rw [bitsOf, ofBits_concat, ih half]
      rcases Nat.mod_two_eq_zero_or_one n with even | odd
      · rw [decide_eq_false (by omega)]
        simp only [Bool.toNat_false]
        omega
      · rw [decide_eq_true odd]
        simp only [Bool.toNat_true]
        omega

theorem bitsOf_ofBits (bits : List Bool) : bitsOf bits.length (ofBits bits) = bits := by
  induction bits using List.reverseRecOn with
  | nil => rfl
  | append_singleton bits bit ih =>
      have small := bit.toNat_lt
      have half : (2 * ofBits bits + bit.toNat) / 2 = ofBits bits := by omega
      have last : decide ((2 * ofBits bits + bit.toNat) % 2 = 1) = bit := by
        cases bit <;> simp
      rw [List.length_append, List.length_singleton, bitsOf, ofBits_concat, half, ih, last]

theorem ofBits_lt (bits : List Bool) : ofBits bits < 2 ^ bits.length := by
  induction bits using List.reverseRecOn with
  | nil => exact Nat.one_pos
  | append_singleton bits bit ih =>
      have small := bit.toNat_lt
      rw [ofBits_concat, List.length_append, List.length_singleton, Nat.pow_succ]
      omega

/-- Groups of one width, the last filled up. -/
def groups (width : Nat) (bits : List Bool) : List (List Bool) :=
  if bits = [] ∨ width = 0 then []
  else (bits.take width ++ List.replicate (width - bits.length) false) :: groups width (bits.drop width)
  termination_by bits.length
  decreasing_by
    rename_i more
    rw [not_or] at more
    have some_bits := List.length_pos_iff.mpr more.1
    rw [List.length_drop]
    omega

theorem groups_spec {width : Nat} (positive : 0 < width) (bits : List Bool) :
    (∀ g ∈ groups width bits, g.length = width) ∧
      ∃ zeros, zeros < width ∧ (groups width bits).flatten = bits ++ List.replicate zeros false := by
  fun_induction groups width bits with
  | case1 bits nothing =>
      have empty : bits = [] := nothing.resolve_right (Nat.ne_of_gt positive)
      exact ⟨List.forall_mem_nil _, 0, positive, by rw [empty]; rfl⟩
  | case2 bits more ih =>
      rw [not_or] at more
      have some_bits := List.length_pos_iff.mpr more.1
      obtain ⟨lengths, zeros, few, rest⟩ := ih
      refine ⟨List.forall_mem_cons.mpr ⟨?_, lengths⟩, ?_⟩
      · rw [List.length_append, List.length_take, List.length_replicate]
        omega
      · rw [List.flatten_cons, rest]
        rcases Nat.lt_or_ge bits.length width with last | whole
        · -- nothing is left behind the last group
          have filled : zeros = 0 := by
            have done : bits.drop width = [] := List.drop_of_length_le (Nat.le_of_lt last)
            rw [done, groups, if_pos (.inl rfl)] at rest
            have none_added := congrArg List.length rest
            simpa using none_added.symm
          refine ⟨width - bits.length, by omega, ?_⟩
          rw [List.take_of_length_le (Nat.le_of_lt last), List.drop_of_length_le (Nat.le_of_lt last),
            filled]
          simp
        · refine ⟨zeros, few, ?_⟩
          rw [Nat.sub_eq_zero_of_le whole, List.replicate_zero, List.append_nil, ← List.append_assoc,
            List.take_append_drop]

/-- Eight bits to a byte; what is left over is dropped. -/
def octets : List Bool → List UInt8
  | b7 :: b6 :: b5 :: b4 :: b3 :: b2 :: b1 :: b0 :: bits =>
      .ofNat (ofBits [b7, b6, b5, b4, b3, b2, b1, b0]) :: octets bits
  | _ => []

theorem octets_short {bits : List Bool} (short : bits.length < 8) : octets bits = [] := by
  unfold octets
  split
  · simp only [List.length_cons] at short
    omega
  · rfl

theorem octets_append {byte : List Bool} (whole : byte.length = 8) (bits : List Bool) :
    octets (byte ++ bits) = .ofNat (ofBits byte) :: octets bits := by
  match byte, whole with
  | [_, _, _, _, _, _, _, _], _ => rfl

def bytesBits (bytes : List UInt8) : List Bool := bytes.flatMap fun b => bitsOf 8 b.toNat

theorem octets_bytesBits (bytes : List UInt8) {spare : List Bool} (short : spare.length < 8) :
    octets (bytesBits bytes ++ spare) = bytes := by
  induction bytes with
  | nil => exact octets_short short
  | cons b bytes ih =>
      rw [bytesBits, List.flatMap_cons, List.append_assoc, octets_append (bitsOf_length 8 b.toNat),
        ofBits_bitsOf b.toNat_lt, UInt8.ofNat_toNat]
      exact congrArg (b :: ·) ih

/-- The digits of some width, all different. -/
structure Alphabet (width : Nat) where
  digits : List Char
  length : digits.length = 2 ^ width
  nodup : digits.Nodup

variable {width : Nat} (alphabet : Alphabet width)

def digit (n : Nat) : Char := alphabet.digits[n]?.getD ' '

def value (c : Char) : Option Nat :=
  if c ∈ alphabet.digits then some (alphabet.digits.idxOf c) else none

def encode (bytes : List UInt8) : List Char :=
  (groups width (bytesBits bytes)).map fun g => digit alphabet (ofBits g)

def decode (text : List Char) : Option (List UInt8) := do
  let values ← text.mapM (value alphabet)
  return octets (values.flatMap (bitsOf width))

theorem value_digit {n : Nat} (fits : n < 2 ^ width) : value alphabet (digit alphabet n) = some n := by
  rw [← alphabet.length] at fits
  rw [digit, List.getElem?_eq_getElem fits, Option.getD_some, value, if_pos (List.getElem_mem fits),
    alphabet.nodup.idxOf_getElem]

theorem mapM_value {gs : List (List Bool)} (lengths : ∀ g ∈ gs, g.length = width) :
    (gs.map fun g => digit alphabet (ofBits g)).mapM (value alphabet) = some (gs.map ofBits) := by
  induction gs with
  | nil => rfl
  | cons g gs ih =>
      rw [List.forall_mem_cons] at lengths
      have first := value_digit alphabet (lengths.1 ▸ ofBits_lt g)
      rw [List.map_cons, List.mapM_cons, first, ih lengths.2]
      rfl

theorem flatMap_bitsOf {gs : List (List Bool)} (lengths : ∀ g ∈ gs, g.length = width) :
    (gs.map ofBits).flatMap (bitsOf width) = gs.flatten := by
  induction gs with
  | nil => rfl
  | cons g gs ih =>
      rw [List.forall_mem_cons] at lengths
      have first := bitsOf_ofBits g
      rw [lengths.1] at first
      rw [List.map_cons, List.flatMap_cons, first, ih lengths.2, List.flatten_cons]

/-- There are as many digits as are needed for the bits. -/
theorem encode_length (positive : 0 < width) (bytes : List UInt8) :
    ∃ zeros, zeros < width ∧ width * (encode alphabet bytes).length = 8 * bytes.length + zeros := by
  obtain ⟨lengths, zeros, few, row⟩ := groups_spec positive (bytesBits bytes)
  have row_length : (bytesBits bytes).length = 8 * bytes.length := by
    simp [bytesBits, List.length_flatMap, bitsOf_length, Nat.mul_comm]
  have groups_length : (groups width (bytesBits bytes)).flatten.length =
      width * (groups width (bytesBits bytes)).length := by
    rw [List.length_flatten, List.map_congr_left lengths]
    simp [Nat.mul_comm]
  refine ⟨zeros, few, ?_⟩
  rw [encode, List.length_map, ← groups_length, row, List.length_append, row_length,
    List.length_replicate]

/-- What was written is read. -/
theorem decode_encode (positive : 0 < width) (narrow : width ≤ 8) (bytes : List UInt8) :
    decode alphabet (encode alphabet bytes) = some bytes := by
  obtain ⟨lengths, zeros, few, row⟩ := groups_spec positive (bytesBits bytes)
  have spare : (List.replicate zeros false).length < 8 := by
    rw [List.length_replicate]
    omega
  rw [decode, encode, mapM_value alphabet lengths]
  change some (octets _) = some bytes
  rw [flatMap_bitsOf lengths, row, octets_bytesBits bytes spare]

end Foctet.Lib.DigitText
