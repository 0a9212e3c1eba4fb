import Foctet.Lib.Format

/-! The formats of the bincode crate in its standard configuration: numbers in one, three,
five or nine bytes, sequences behind their length, options behind a tag. The reader does not ask
for the shortest form of a number. -/
namespace Foctet.Lib

/-! ### Little-endian numbers -/

def littleValue : List UInt8 → Nat
  | [] => 0
  | b :: bytes => b.toNat + 256 * littleValue bytes

def littleBytes : Nat → Nat → List UInt8
  | 0, _ => []
  | k + 1, n => .ofNat n :: littleBytes k (n / 256)

@[simp] theorem littleBytes_length (k n : Nat) : (littleBytes k n).length = k := by
  induction k generalizing n with
  | zero => rfl
  | succ k ih => exact congrArg Nat.succ (ih (n / 256))

theorem littleValue_littleBytes {k n : Nat} (fits : n < 256 ^ k) :
    littleValue (littleBytes k n) = n := by
  induction k generalizing n with
  | zero =>
      rw [Nat.pow_zero] at fits
      exact (Nat.lt_one_iff.mp fits).symm
  | succ k ih =>
      have high : n / 256 < 256 ^ k := by
        rw [Nat.pow_succ] at fits
        exact Nat.div_lt_of_lt_mul (by rwa [Nat.mul_comm])
      rw [littleBytes, littleValue, ih high, UInt8.toNat_ofNat']
      omega

namespace Bincode
open Format

inductive IntegerType where
  | U64
  | Usize
  | U128
  | Reserved
  deriving DecidableEq, Repr

inductive DecodeError where
  | UnexpectedEnd (additional : Nat)
  | InvalidIntegerType (expected found : IntegerType)
  | UnexpectedVariant (found : Nat)
  /-- what the types that are read have to say -/
  | OtherString (text : String)
  deriving DecidableEq, Repr

abbrev Standard (α : Type) := Format DecodeError .UnexpectedEnd α

variable {α : Type}

/-- `k` bytes for a number, the lowest first. -/
def little (k : Nat) : Standard Nat :=
  (fixed k (k - ·)).map (littleValue ·.1) (fun n => ⟨littleBytes k n, littleBytes_length k n⟩)

theorem little_fits {k n : Nat} (fits : n < 256 ^ k) : (little k).Fits n :=
  map_fits.mpr ⟨trivial, littleValue_littleBytes fits⟩

/-- What is behind the first byte of a number. -/
def behind (expected : IntegerType) (first : UInt8) : Standard Nat :=
  if first ≤ 250 then const first.toNat
  else if first = 251 then little 2
  else if first = 252 then little 4
  else if first = 253 then little 8
  else if first = 254 then fail (.InvalidIntegerType expected .U128)
  else fail (.InvalidIntegerType expected .Reserved)

/-- The first byte of a number in its shortest form. -/
def lead (n : Nat) : UInt8 :=
  if n ≤ 250 then .ofNat n else if n < 256 ^ 2 then 251 else if n < 256 ^ 4 then 252 else 253

/-- A `u64` or a `usize`. -/
def varint (expected : IntegerType) : Standard Nat := dependent byte (behind expected) lead

theorem varint_fits {expected : IntegerType} {n : Nat} (fits : n < 2 ^ 64) :
    (varint expected).Fits n := by
  refine ⟨trivial, ?_⟩
  unfold lead
  split_ifs with one two four
  · have value : (UInt8.ofNat n).toNat = n := by
      rw [UInt8.toNat_ofNat']
      omega
    rw [behind, if_pos (UInt8.le_iff_toNat_le.mpr (by rw [value]; exact one)), value]
    rfl
  · exact little_fits two
  · exact little_fits four
  · exact little_fits fits

/-- An option behind its tag. -/
def option (f : Standard α) : Standard (Option α) :=
  dependent byte
    (fun tag =>
      if tag = 0 then const none
      else if tag = 1 then f.refine (fun a => .ok (some a)) id
      else fail (.UnexpectedVariant tag.toNat))
    (fun o => if o.isSome then 1 else 0)

theorem option_fits {f : Standard α} {o : Option α} (fits : ∀ a ∈ o, f.Fits a) :
    (option f).Fits o := by
  cases o with
  | none => exact ⟨trivial, rfl⟩
  | some a => exact ⟨trivial, a, rfl, fits a rfl, rfl⟩

theorem option_spells {f : Standard α} {o : Option α} {part : List UInt8} :
    (option f).Spells o part ↔
      o.elim (part = [0]) fun a => ∃ rest, part = [1] ++ rest ∧ f.Spells a rest := by
  simp only [option, dependent_spells, byte_spells]
  constructor
  · rintro ⟨tag, u, rest, rfl, rfl, spells⟩
    split_ifs at spells with absent present
    · obtain ⟨rfl, rfl⟩ := const_spells.mp spells
      rw [absent]
      rfl
    · obtain ⟨a, inner, same⟩ := refine_spells.mp spells
      cases same
      exact ⟨rest, by rw [present], inner⟩
    · exact absurd spells not_fail_spells
  · cases o with
    | none =>
        intro zero
        exact ⟨0, [0], [], zero, rfl, const_spells.mpr ⟨rfl, rfl⟩⟩
    | some a =>
        rintro ⟨rest, rfl, spells⟩
        exact ⟨1, [1], rest, rfl, rfl, refine_spells.mpr ⟨a, spells, rfl⟩⟩

/-- `bincode::config::standard()` -/
def standard : Serializer where
  Error := DecodeError
  short := .UnexpectedEnd
  usize := varint .Usize
  -- read byte by byte
  array k := fixed k fun _ => 1
  pair := Format.pair
  option := option
  sequence := counted (varint .Usize)
  absent := [0]
  present := [1]
  usize_fits _ := varint_fits
  array_fits _ := trivial
  array_spells := fixed_spells
  pair_fits first second := pair_fits.mpr ⟨first, second⟩
  pair_spells := pair_spells
  option_fits := option_fits
  none_spells := option_spells
  some_spells := option_spells
  sequence_fits count each := counted_fits.mpr ⟨count, each⟩
  sequence_spells := counted_spells

end Bincode
end Foctet.Lib
