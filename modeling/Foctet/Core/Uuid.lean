import Foctet.Lib.DigitText
import Foctet.Lib.Outcome

/-! Identifiers of connections and contents, and the three parsers for them. Of these only
one looks at the length of what it has decoded. -/
namespace Foctet.Core
open Foctet.Lib

def UUID_V4_BYTES_LEN : Nat := 16

structure UuidV4 where
  id : List UInt8
  length : id.length = UUID_V4_BYTES_LEN
  deriving DecidableEq, Repr

/-- What is taken from the hex, base32 and bincode crates. Each encoding of text can be
decoded, and errors have some text. -/
structure TextCrates where
  hexEncode : List UInt8 → List Char
  hexDecode : List Char → Except String (List UInt8)
  /-- in the unpadded alphabet of RFC 4648 -/
  base32Encode : List UInt8 → List Char
  base32Decode : List Char → Option (List UInt8)
  /-- `DecodeError::UnexpectedEnd` -/
  unexpectedEnd : String
  hexDecode_encode : ∀ bytes, hexDecode (hexEncode bytes) = .ok bytes
  base32Decode_encode : ∀ bytes, base32Decode (base32Encode bytes) = some bytes

namespace UuidV4

def zero : UuidV4 := ⟨List.replicate UUID_V4_BYTES_LEN 0, List.length_replicate⟩

/-- `id.copy_from_slice(&bytes)`, which panics on a slice of another length. -/
def copyFromSlice (bytes : List UInt8) : Outcome String UuidV4 :=
  if length : bytes.length = UUID_V4_BYTES_LEN then .ok ⟨bytes, length⟩ else .panic

def fromBytes (bytes : List UInt8) : Outcome String UuidV4 :=
  if bytes.length ≠ UUID_V4_BYTES_LEN then
    .err ("Invalid length for UuidV4: expected " ++ toString UUID_V4_BYTES_LEN ++ ", got " ++
      toString bytes.length)
  else copyFromSlice bytes

def toBytes (u : UuidV4) : List UInt8 := u.id

variable (C : TextCrates)

def fromHex (encoded : List Char) : Outcome String UuidV4 := do
  let bytes ← Outcome.ofExcept (C.hexDecode encoded)
  copyFromSlice bytes

def toHex (u : UuidV4) : List Char := C.hexEncode u.id

/-- `decode_from_slice`: the sixteen bytes of the array, and how many were read. What is
behind them is not looked at. -/
def decodeFromSlice (bytes : List UInt8) : Except String (UuidV4 × Nat) :=
  if enough : UUID_V4_BYTES_LEN ≤ bytes.length then
    .ok (⟨bytes.take UUID_V4_BYTES_LEN, List.length_take_of_le enough⟩, UUID_V4_BYTES_LEN)
  else .error C.unexpectedEnd

/-- `encode_to_vec` -/
def encodeToVec (u : UuidV4) : Except String (List UInt8) := .ok u.id

def fromBase32 (encoded : List Char) : Outcome String UuidV4 := do
  let decoded ← Outcome.okOr "Failed to decode base32 string" (C.base32Decode encoded)
  match decodeFromSlice C decoded with
  | .ok (nodeAddr, _) => .ok nodeAddr
  | .error e => .err ("Failed to decode base32 string: " ++ e)

def toBase32 (u : UuidV4) : Except String (List Char) := do
  let serialized ← u.encodeToVec
  return C.base32Encode serialized

/-- What is asked of a parser at an input: it does not panic, and accepts exactly what
decodes to the bytes of an identifier. -/
def ParsesExactly {ι : Type} (decode : ι → Option (List UInt8)) (parse : ι → Outcome String UuidV4)
    (input : ι) : Prop :=
  parse input ≠ .panic ∧ ∀ u, parse input = .ok u ↔ decode input = some u.id

variable {C} {bytes : List UInt8} {text : List Char}

theorem ext_id {u v : UuidV4} (same : u.id = v.id) : u = v := by
  cases u
  cases v
  cases same
  rfl

theorem copyFromSlice_id (u : UuidV4) : copyFromSlice u.id = .ok u := dif_pos u.length

theorem copyFromSlice_eq_ok {u : UuidV4} : copyFromSlice bytes = .ok u ↔ bytes = u.id := by
  constructor
  · intro copied
    unfold copyFromSlice at copied
    split at copied
    case isTrue => exact congrArg id (Outcome.ok.inj copied)
    case isFalse => cases copied
  · rintro rfl
    exact copyFromSlice_id u

theorem copyFromSlice_eq_panic : copyFromSlice bytes = .panic ↔ bytes.length ≠ UUID_V4_BYTES_LEN := by
  unfold copyFromSlice
  split
  case isTrue length => exact iff_of_false (by simp) (not_not.mpr length)
  case isFalse other => exact iff_of_true rfl other

theorem fromBytes_exactly (bytes : List UInt8) : ParsesExactly some fromBytes bytes := by
  unfold ParsesExactly fromBytes
  simp only [Option.some.injEq]
  split
  case isTrue other =>
      refine ⟨by simp, fun u => iff_of_false (by simp) ?_⟩
      rintro rfl
      exact other u.length
  case isFalse length => exact ⟨mt copyFromSlice_eq_panic.mp length, fun u => copyFromSlice_eq_ok⟩

theorem fromHex_of_decode (decoded : C.hexDecode text = .ok bytes) :
    fromHex C text = copyFromSlice bytes := by
  rw [fromHex, decoded]
  rfl

theorem fromHex_exactly_iff :
    ParsesExactly (fun text => (C.hexDecode text).toOption) (fromHex C) text ↔
      ∀ bytes, C.hexDecode text = .ok bytes → bytes.length = UUID_V4_BYTES_LEN := by
  unfold ParsesExactly
  dsimp only
  cases decoded : C.hexDecode text with
  | error e =>
      have failed : fromHex C text = .err e := by
        rw [fromHex, decoded]
        rfl
      rw [failed]
      exact iff_of_true ⟨by simp, fun u => by simp [Except.toOption]⟩ (by simp)
  | ok bytes =>
      rw [fromHex_of_decode decoded]
      simp only [Ne, copyFromSlice_eq_ok, copyFromSlice_eq_panic, Except.toOption,
        Option.some.injEq, not_not, Except.ok.injEq, forall_eq', implies_true, and_true]

theorem fromBase32_of_decode (decoded : C.base32Decode text = some bytes) :
    fromBase32 C text =
      if enough : UUID_V4_BYTES_LEN ≤ bytes.length then
        .ok ⟨bytes.take UUID_V4_BYTES_LEN, List.length_take_of_le enough⟩
      else .err ("Failed to decode base32 string: " ++ C.unexpectedEnd) := by
  rw [fromBase32, decoded]
  by_cases enough : UUID_V4_BYTES_LEN ≤ bytes.length
  · simp only [Outcome.okOr, Outcome.ok_bind, decodeFromSlice, dif_pos enough]
  · simp only [Outcome.okOr, Outcome.ok_bind, decodeFromSlice, dif_neg enough]

theorem fromBase32_exactly_iff :
    ParsesExactly C.base32Decode (fromBase32 C) text ↔
      ∀ bytes, C.base32Decode text = some bytes → bytes.length ≤ UUID_V4_BYTES_LEN := by
  unfold ParsesExactly
  cases decoded : C.base32Decode text with
  | none =>
      refine iff_of_true ?_ (by simp)
      rw [fromBase32, decoded]
      exact ⟨by simp [Outcome.okOr], fun u => by simp [Outcome.okOr]⟩
  | some bytes =>
      rw [fromBase32_of_decode decoded]
      simp only [Option.some.injEq, forall_eq']
      split
      case isTrue enough =>
          constructor
          · rintro ⟨-, accepts⟩
            have cut : bytes = bytes.take UUID_V4_BYTES_LEN := (accepts _).mp rfl
            rw [cut]
            exact List.length_take_le _ _
          · intro short
            refine ⟨by simp, fun u => ?_⟩
            rw [Outcome.ok.injEq]
            have whole : bytes.take UUID_V4_BYTES_LEN = bytes := List.take_of_length_le short
            constructor
            · rintro rfl
              exact whole.symm
            · rintro rfl
              exact ext_id whole
      case isFalse few =>
          refine iff_of_true ⟨by simp, fun u => iff_of_false (by simp) ?_⟩ (Nat.le_of_not_le few)
          rintro rfl
          exact few (Nat.le_of_eq u.length.symm)

theorem fromBytes_id (u : UuidV4) : fromBytes u.id = .ok u := ((fromBytes_exactly u.id).2 u).mpr rfl

theorem fromHex_id {u : UuidV4} (decoded : C.hexDecode text = .ok u.id) : fromHex C text = .ok u := by
  rw [fromHex_of_decode decoded, copyFromSlice_id]

theorem fromBase32_id {u : UuidV4} (decoded : C.base32Decode text = some u.id) :
    fromBase32 C text = .ok u := by
  have exactly : ParsesExactly C.base32Decode (fromBase32 C) text := by
    refine fromBase32_exactly_iff.mpr fun bytes own => ?_
    rw [decoded] at own
    cases own
    exact Nat.le_of_eq u.length
  exact (exactly.2 u).mpr decoded

/-- The three agree on encodings of the same bytes only if these are sixteen. The texts of
errors are not compared. -/
theorem parsers_agree_iff {hex base32 : List Char} (from_hex : C.hexDecode hex = .ok bytes)
    (from_base32 : C.base32Decode base32 = some bytes) :
    (fromBytes bytes).mapErr (fun _ => ()) = (fromHex C hex).mapErr (fun _ => ()) ∧
        (fromBytes bytes).mapErr (fun _ => ()) = (fromBase32 C base32).mapErr (fun _ => ()) ↔
      bytes.length = UUID_V4_BYTES_LEN := by
  constructor
  · rintro ⟨same, -⟩
    by_contra other
    rw [fromHex_of_decode from_hex, copyFromSlice_eq_panic.mpr other, fromBytes, if_pos other] at same
    cases same
  · intro length
    obtain ⟨u, rfl⟩ : ∃ u : UuidV4, bytes = u.id := ⟨⟨bytes, length⟩, rfl⟩
    rw [fromHex_id from_hex, fromBase32_id from_base32, fromBytes_id]
    exact ⟨rfl, rfl⟩

end UuidV4

/-- `from_bytes` is exact. `from_hex` is so exactly on texts that are not hexadecimal or have
sixteen bytes, since it panics on every other length; and `from_base32` on texts with no
more than sixteen bytes, since it drops the rest. Each reads back what is written for it. -/
theorem uuid_parsers_exact_iff (C : TextCrates) :
    (∀ bytes, UuidV4.ParsesExactly some UuidV4.fromBytes bytes) ∧
    (∀ text, UuidV4.ParsesExactly (fun text => (C.hexDecode text).toOption) (UuidV4.fromHex C) text ↔
      ∀ bytes, C.hexDecode text = .ok bytes → bytes.length = UUID_V4_BYTES_LEN) ∧
    (∀ text, UuidV4.ParsesExactly C.base32Decode (UuidV4.fromBase32 C) text ↔
      ∀ bytes, C.base32Decode text = some bytes → bytes.length ≤ UUID_V4_BYTES_LEN) ∧
    (∀ bytes hex base32, C.hexDecode hex = .ok bytes → C.base32Decode base32 = some bytes →
      ((UuidV4.fromBytes bytes).mapErr (fun _ => ()) = (UuidV4.fromHex C hex).mapErr (fun _ => ()) ∧
        (UuidV4.fromBytes bytes).mapErr (fun _ => ()) =
          (UuidV4.fromBase32 C base32).mapErr (fun _ => ()) ↔ bytes.length = UUID_V4_BYTES_LEN)) ∧
    ∀ u : UuidV4, UuidV4.fromBytes u.toBytes = .ok u ∧ UuidV4.fromHex C (u.toHex C) = .ok u ∧
      ∃ text, u.toBase32 C = .ok text ∧ UuidV4.fromBase32 C text = .ok u := by
  refine ⟨UuidV4.fromBytes_exactly, fun text => UuidV4.fromHex_exactly_iff,
    fun text => UuidV4.fromBase32_exactly_iff,
    fun bytes hex base32 => UuidV4.parsers_agree_iff, fun u => ⟨UuidV4.fromBytes_id u, ?_, ?_⟩⟩
  · exact UuidV4.fromHex_id (C.hexDecode_encode u.id)
  · exact ⟨_, rfl, UuidV4.fromBase32_id (C.base32Decode_encode u.id)⟩

namespace Sample
open DigitText

def hexDigits : Alphabet 4 where
  digits := ['0', '1', '2', '3', '4', '5', '6', '7', '8', '9', 'a', 'b', 'c', 'd', 'e', 'f']
  length := rfl
  nodup := by decide

def base32Digits : Alphabet 5 where
  digits := ['A', 'B', 'C', 'D', 'E', 'F', 'G', 'H', 'I', 'J', 'K', 'L', 'M', 'N', 'O', 'P', 'Q', 'R',
    'S', 'T', 'U', 'V', 'W', 'X', 'Y', 'Z', '2', '3', '4', '5', '6', '7']
  length := rfl
  nodup := by decide

/-- An odd number of digits is an error, and so is any other character. -/
def hexDecode (text : List Char) : Except String (List UInt8) :=
  if text.length % 2 = 1 then .error "Odd number of digits"
  else
    match decode hexDigits text with
    | some bytes => .ok bytes
    | none => .error "Invalid character"

theorem hexDecode_encode (bytes : List UInt8) : hexDecode (encode hexDigits bytes) = .ok bytes := by
  obtain ⟨zeros, few, length⟩ := encode_length hexDigits (by decide) bytes
  have even : ¬ (encode hexDigits bytes).length % 2 = 1 := by omega
  rw [hexDecode, if_neg even, decode_encode hexDigits (by decide) (by decide)]

def textCrates : TextCrates where
  hexEncode := encode hexDigits
  hexDecode := hexDecode
  base32Encode := encode base32Digits
  base32Decode := decode base32Digits
  unexpectedEnd := "UnexpectedEnd"
  hexDecode_encode := hexDecode_encode
  base32Decode_encode := decode_encode base32Digits (by decide) (by decide)

end Sample

/-- Two digits of hexadecimal are one byte, on which the copy panics; and twenty-eight of
base32 are seventeen bytes, of which the last is dropped. -/
theorem uuid_parsers_inexact :
    Sample.textCrates.hexDecode ['0', '0'] = .ok [0] ∧
    UuidV4.fromHex Sample.textCrates ['0', '0'] = .panic ∧
    Sample.textCrates.base32Decode (List.replicate 28 'A') = some (List.replicate 17 0) ∧
    UuidV4.fromBase32 Sample.textCrates (List.replicate 28 'A') = .ok .zero := by
  decide

end Foctet.Core
