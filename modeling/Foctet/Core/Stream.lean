import Mathlib.Data.List.Nodup
import Mathlib.Algebra.Ring.Nat

/-! Stream and operation identifiers. Both are unsigned 32-bit counters that
restart at zero instead of wrapping. -/
namespace Foctet.Core

structure StreamId where
  id : UInt32
  deriving DecidableEq, Repr

structure OperationId where
  id : UInt32
  deriving DecidableEq, Repr

structure SessionId where
  id : UInt32
  deriving DecidableEq, Repr

/-- `u32::checked_add(n).unwrap_or(0)`. -/
def checkedAddOrZero (a n : UInt32) : UInt32 :=
  if a.toNat + n.toNat < 2 ^ 32 then a + n else 0

/-- Adds to the current value, returning the previous value and the updated counter. -/
def StreamId.fetchAdd (s : StreamId) (n : UInt32) : StreamId × StreamId :=
  (s, ⟨checkedAddOrZero s.id n⟩)

/-- The identifier an allocator started at `first` hands out after `k` others. -/
def StreamId.nth (first : StreamId) : Nat → StreamId
  | 0 => first
  | k + 1 => ((first.nth k).fetchAdd 1).2

/-- Until the counter runs out, the identifiers are consecutive. -/
theorem StreamId.nth_toNat (first : StreamId) (k : Nat) (h : first.id.toNat + k < 2 ^ 32) :
    (first.nth k).id.toNat = first.id.toNat + k := by
  induction k with
  | zero => rfl
  | succ k ih =>
      have hk := ih (by omega)
      have one : (1 : UInt32).toNat = 1 := rfl
      have fits : (first.nth k).id.toNat + 1 < 2 ^ 32 := by omega
      simp only [nth, fetchAdd, checkedAddOrZero, one, if_pos fits, UInt32.toNat_add]
      omega

theorem StreamId.nth_injective (first : StreamId) {j k : Nat} (hj : first.id.toNat + j < 2 ^ 32)
    (hk : first.id.toNat + k < 2 ^ 32) (h : first.nth j = first.nth k) : j = k := by
  have same := congrArg (fun s : StreamId => s.id.toNat) h
  simp only [first.nth_toNat j hj, first.nth_toNat k hk] at same
  omega

/-- The first `n` identifiers of an allocator. -/
def StreamId.upTo (first : StreamId) (n : Nat) : List StreamId := (List.range n).map first.nth

theorem StreamId.upTo_succ (first : StreamId) (n : Nat) :
    first.upTo (n + 1) = first.upTo n ++ [first.nth n] := by
  simp only [upTo, List.range_succ, List.map_append, List.map_cons, List.map_nil]

theorem StreamId.mem_upTo {first : StreamId} {n : Nat} {s : StreamId} :
    s ∈ first.upTo n ↔ ∃ k < n, first.nth k = s := by
  simp only [upTo, List.mem_map, List.mem_range]

theorem StreamId.upTo_nodup (first : StreamId) (n : Nat) (h : first.id.toNat + n ≤ 2 ^ 32) :
    (first.upTo n).Nodup := by
  refine List.Nodup.map_on ?_ List.nodup_range
  intro j hj k hk same
  rw [List.mem_range] at hj hk
  exact first.nth_injective (by omega) (by omega) same

end Foctet.Core
