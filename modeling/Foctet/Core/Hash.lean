import Foctet.Core.Codec
import Foctet.Lib.Loop
import Foctet.Lib.Outcome

/-! BLAKE3 hashes of byte strings and of files. Large byte strings are hashed in chunks,
large files are mapped into memory, and all ways give the same hash. -/
namespace Foctet.Core
open Foctet.Lib

def DEFAULT_HASH_LEN : Nat := 32
def DEFAULT_HASH_BUFFER_SIZE : UInt64 := 16384
def CHUNK_THRESHOLD : Nat := 1 * 1024 * 1024
def MMAP_THRESHOLD : UInt64 := 64 * 1024 * 1024

structure Blake3Hash where
  bytes : Vector UInt8 DEFAULT_HASH_LEN
  deriving DecidableEq, Repr

/-- What is taken from the blake3 crate: its hasher is incremental, and the functions that
read a file feed it the contents. -/
structure Blake3 where
  Hasher : Type
  new : Hasher
  update : Hasher → List UInt8 → Hasher
  /-- a `Hash` by its bytes -/
  finalize : Hasher → Vector UInt8 DEFAULT_HASH_LEN
  /-- the three of a file that has some contents -/
  updateReader : Hasher → List UInt8 → Except IoError Hasher
  updateMmap : Hasher → List UInt8 → Except IoError Hasher
  updateMmapRayon : Hasher → List UInt8 → Except IoError Hasher
  update_update : ∀ hasher a b, update (update hasher a) b = update hasher (a ++ b)
  updateReader_eq : ∀ hasher contents, updateReader hasher contents = .ok (update hasher contents)
  updateMmap_eq : ∀ hasher contents, updateMmap hasher contents = .ok (update hasher contents)
  updateMmapRayon_eq : ∀ hasher contents,
    updateMmapRayon hasher contents = .ok (update hasher contents)

/-- What is asked of the host: the contents of a file, and the number of threads. -/
structure Host where
  read : String → Except IoError (List UInt8)
  availableParallelism : Except IoError Nat

def Blake3Hash.fromBlake3Hash (hash : Vector UInt8 DEFAULT_HASH_LEN) : Blake3Hash := ⟨hash⟩

variable (B : Blake3)

/-- The hash of one update with the whole input. -/
def Blake3.hash (data : List UInt8) : Blake3Hash := ⟨B.finalize (B.update B.new data)⟩

structure Blake3Hasher where
  bufferSize : UInt64
  mmapThreshold : UInt64
  deriving DecidableEq, Repr

namespace Blake3Hasher

def new : Blake3Hasher := ⟨DEFAULT_HASH_BUFFER_SIZE, MMAP_THRESHOLD⟩

def calcBytesHash (data : List UInt8) : Outcome IoError (Vector UInt8 DEFAULT_HASH_LEN) :=
  .ok (B.finalize (B.update B.new data))

/-- One round of `calc_bytes_hash_chunk`, on the offset and the hasher. The sum is one of
64-bit words, and the slice may be out of range. -/
def chunkRound (h : Blake3Hasher) (data : List UInt8) :
    Nat × B.Hasher → Round (Nat × B.Hasher) (Outcome IoError (Vector UInt8 DEFAULT_HASH_LEN))
  | (offset, hasher) =>
      if offset < data.length then
        if 2 ^ 64 ≤ offset + h.bufferSize.toNat then .done .panic
        else
          let stop := min (offset + h.bufferSize.toNat) data.length
          match slice data offset stop with
          | some chunk => .again (stop, B.update hasher chunk)
          | none => .done .panic
      else .done (.ok (B.finalize hasher))

def calcBytesHashChunk (h : Blake3Hasher) (data : List UInt8) (fuel : Nat) :
    Option (Outcome IoError (Vector UInt8 DEFAULT_HASH_LEN)) :=
  loop (h.chunkRound B data) fuel (0, B.new)

/-- Nothing if the fuel is not enough for the chunks. -/
def calculateHash (h : Blake3Hasher) (data : List UInt8) (fuel : Nat) :
    Option (Outcome IoError Blake3Hash) := do
  let hash ← if data.length > CHUNK_THRESHOLD then h.calcBytesHashChunk B data fuel
    else some (calcBytesHash B data)
  return Blake3Hash.fromBlake3Hash <$> hash

def calcFileHash (host : Host) (path : String) :
    Except IoError (Vector UInt8 DEFAULT_HASH_LEN) := do
  let hasher ← B.updateReader B.new (← host.read path)
  return B.finalize hasher

def calcFileHashMmap (host : Host) (path : String) :
    Except IoError (Vector UInt8 DEFAULT_HASH_LEN) := do
  let hasher ← B.updateMmap B.new (← host.read path)
  return B.finalize hasher

def calcFileHashMmapMultithread (host : Host) (path : String) :
    Except IoError (Vector UInt8 DEFAULT_HASH_LEN) := do
  let hasher ← B.updateMmapRayon B.new (← host.read path)
  return B.finalize hasher

def calculateFileHash (h : Blake3Hasher) (host : Host) (path : String) : Except IoError Blake3Hash := do
  let fileSize := (← host.read path).length
  let hash ←
    if fileSize > h.mmapThreshold.toNat then do
      let parallelism ← host.availableParallelism
      if parallelism > 1 then calcFileHashMmapMultithread B host path
      else calcFileHashMmap B host path
    else calcFileHash B host path
  return .fromBlake3Hash hash

/-- The loop has fed what is before the offset. It is at the start, at the end, or at least
one buffer past the start. -/
structure Fed (h : Blake3Hasher) (data : List UInt8) (s : Nat × B.Hasher) : Prop where
  within : s.1 ≤ data.length
  hasher : s.1 = 0 ∧ s.2 = B.new ∨ s.2 = B.update B.new (data.take s.1)
  advanced : s.1 = 0 ∨ s.1 = data.length ∨ h.bufferSize.toNat ≤ s.1

variable {B} {h : Blake3Hasher} {data : List UInt8}

/-- The sum stays in range: a buffer that does not reach the end at once is shorter than
the data, and so at most half of what a word can hold. -/
theorem Fed.sum_lt {s : Nat × B.Hasher} (fed : h.Fed B data s) (fits : data.length ≤ isizeMax)
    (more : s.1 < data.length) : s.1 + h.bufferSize.toNat < 2 ^ 64 := by
  have word := h.bufferSize.toNat_lt
  have advanced := fed.advanced
  unfold isizeMax at fits
  omega

theorem chunkRound_again {offset : Nat} {hasher : B.Hasher} (more : offset < data.length)
    (sum : offset + h.bufferSize.toNat < 2 ^ 64) :
    let stop := min (offset + h.bufferSize.toNat) data.length
    h.chunkRound B data (offset, hasher) =
      .again (stop, B.update hasher ((data.drop offset).take (stop - offset))) := by
  intro stop
  have sliced : slice data offset stop = some ((data.drop offset).take (stop - offset)) :=
    slice_eq (by omega) (by omega)
  rw [chunkRound, if_pos more, if_neg (Nat.not_le.mpr sum)]
  simp only [sliced, stop]

theorem Fed.step (room : 1 ≤ h.bufferSize.toNat) (fits : data.length ≤ isizeMax)
    (s : Nat × B.Hasher) (fed : h.Fed B data s) :
    (∃ t, h.chunkRound B data s = .again t ∧ h.Fed B data t ∧
        data.length - t.1 < data.length - s.1) ∨
      ∃ r, h.chunkRound B data s = .done r ∧
        ∃ hasher, r = .ok (B.finalize hasher) ∧ (data ≠ [] → hasher = B.update B.new data) := by
  obtain ⟨offset, hasher⟩ := s
  by_cases more : offset < data.length
  · refine .inl ⟨_, chunkRound_again more (fed.sum_lt fits more), ⟨?_, .inr ?_, ?_⟩, ?_⟩
    · exact Nat.min_le_right _ _
    · -- what was fed before, and the chunk behind it
      have whole (k : Nat) : data.take offset ++ (data.drop offset).take k = data.take (offset + k) :=
        List.take_add.symm
      have stop : offset + (min (offset + h.bufferSize.toNat) data.length - offset) =
          min (offset + h.bufferSize.toNat) data.length := by omega
      rcases fed.hasher with ⟨start, fresh⟩ | before
      · obtain rfl : offset = 0 := start
        obtain rfl : hasher = B.new := fresh
        rw [List.drop_zero, Nat.sub_zero]
      · change hasher = B.update B.new (data.take offset) at before
        rw [before]
        rw [B.update_update, whole, stop]
    · dsimp only
      omega
    · dsimp only
      omega
  · refine .inr ⟨.ok (B.finalize hasher), if_neg more, hasher, rfl, ?_⟩
    intro some_bytes
    have positive := List.length_pos_iff.mpr some_bytes
    rcases fed.hasher with ⟨start, -⟩ | before
    · obtain rfl : offset = 0 := start
      exact absurd positive more
    · rwa [List.take_of_length_le (Nat.not_lt.mp more)] at before

/-- The chunk loop ends for every input, and on one that is not empty it has fed all of it. -/
theorem calcBytesHashChunk_ends (room : 1 ≤ h.bufferSize.toNat) (fits : data.length ≤ isizeMax)
    {fuel : Nat} (enough : data.length < fuel) :
    ∃ hasher, h.calcBytesHashChunk B data fuel = some (.ok (B.finalize hasher)) ∧
      (data ≠ [] → hasher = B.update B.new data) := by
  have start : h.Fed B data (0, B.new) := ⟨Nat.zero_le _, .inl ⟨rfl, rfl⟩, .inl rfl⟩
  obtain ⟨r, ended, hasher, rfl, fed⟩ :=
    loop_of_decreasing (h.Fed B data) _ (fun s => data.length - s.1) (Fed.step room fits) start enough
  exact ⟨hasher, ended, fed⟩

theorem calculateHash_eq (room : 1 ≤ h.bufferSize.toNat) (fits : data.length ≤ isizeMax)
    {fuel : Nat} (enough : data.length < fuel) :
    h.calculateHash B data fuel = some (.ok (B.hash data)) := by
  unfold calculateHash
  split
  case isTrue large =>
      obtain ⟨hasher, ended, fed⟩ := calcBytesHashChunk_ends (B := B) room fits enough
      rw [ended, fed (List.ne_nil_of_length_pos (Nat.zero_lt_of_lt large))]
      rfl
  case isFalse => rfl

/-- Whichever way is taken, the contents of the file are fed at once. -/
theorem calculateFileHash_eq {host : Host} {path : String} (there : host.read path = .ok data)
    {parallelism : Nat} (known : host.availableParallelism = .ok parallelism) :
    h.calculateFileHash B host path = .ok (B.hash data) := by
  simp only [calculateFileHash, calcFileHash, calcFileHashMmap, calcFileHashMmapMultithread, there,
    known, B.updateReader_eq, B.updateMmap_eq, B.updateMmapRayon_eq, bind, Except.bind]
  split
  case isTrue =>
      split
      · rfl
      · rfl
  case isFalse => rfl

end Blake3Hasher

/-- A byte string and a file with these contents have the same hash, that of one update
with all of them, whatever the sizes select. The loop over chunks ends without a panic. -/
theorem hashing_paths_agree (B : Blake3) (h : Blake3Hasher) (room : 1 ≤ h.bufferSize)
    (data : List UInt8) (fits : data.length ≤ isizeMax) (host : Host) (path : String)
    (there : host.read path = .ok data) (parallelism : Nat)
    (known : host.availableParallelism = .ok parallelism) :
    h.calculateFileHash B host path = .ok (B.hash data) ∧
      ∀ fuel, data.length < fuel →
        h.calculateHash B data fuel = some (.ok (B.hash data)) ∧
        ∃ hash, h.calcBytesHashChunk B data fuel = some (.ok hash) := by
  have room' : 1 ≤ h.bufferSize.toNat := UInt64.le_iff_toNat_le.mp room
  refine ⟨Blake3Hasher.calculateFileHash_eq there known, ?_⟩
  intro fuel enough
  refine ⟨Blake3Hasher.calculateHash_eq room' fits enough, ?_⟩
  obtain ⟨hasher, ended, -⟩ := Blake3Hasher.calcBytesHashChunk_ends (B := B) room' fits enough
  exact ⟨_, ended⟩

namespace Sample

/-- A hasher that keeps its input, and hashes it to the sum of its bytes. -/
def sums : Blake3 where
  Hasher := List UInt8
  new := []
  update hasher a := hasher ++ a
  finalize hasher := .replicate DEFAULT_HASH_LEN (hasher.foldl (· + ·) 0)
  updateReader hasher contents := .ok (hasher ++ contents)
  updateMmap hasher contents := .ok (hasher ++ contents)
  updateMmapRayon hasher contents := .ok (hasher ++ contents)
  update_update := List.append_assoc
  updateReader_eq _ _ := rfl
  updateMmap_eq _ _ := rfl
  updateMmapRayon_eq _ _ := rfl

/-- One byte more than is hashed at once. -/
def large : List UInt8 := List.replicate (CHUNK_THRESHOLD + 1) 97

def host : Host := ⟨fun _ => .ok large, .ok 4⟩

end Sample

theorem hashing_paths_agree_large :
    Blake3Hasher.new.calculateFileHash Sample.sums Sample.host "large" =
        .ok (Sample.sums.hash Sample.large) ∧
      Blake3Hasher.new.calculateHash Sample.sums Sample.large (CHUNK_THRESHOLD + 2) =
        some (.ok (Sample.sums.hash Sample.large)) := by
  have length : Sample.large.length = CHUNK_THRESHOLD + 1 := List.length_replicate
  have fits : Sample.large.length ≤ isizeMax := by
    rw [length]
    decide
  obtain ⟨file, bytes⟩ := hashing_paths_agree Sample.sums Blake3Hasher.new (by decide) Sample.large
    fits Sample.host "large" rfl 4 rfl
  refine ⟨file, (bytes (CHUNK_THRESHOLD + 2) ?_).1⟩
  rw [length]
  exact Nat.lt_succ_self _

end Foctet.Core
