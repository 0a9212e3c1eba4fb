import Foctet.Lib.Table
import Mathlib.Data.List.Nodup
import Mathlib.Data.List.Perm.Subperm

/-! How many keys of a table have an entry. A table is known by its lookups only, so its
size is bounded and not computed. -/
namespace Foctet.Lib
namespace Table
variable {κ ν : Type} [DecidableEq κ]

/-- At most `n` keys have an entry. -/
def AtMost (t : Table κ ν) (n : Nat) : Prop :=
  ∀ keys : List κ, keys.Nodup → (∀ k ∈ keys, t.get k ≠ none) → keys.length ≤ n

omit [DecidableEq κ] in
theorem atMost_empty (n : Nat) : (empty : Table κ ν).AtMost n := by
  intro keys _ entries
  cases keys with
  | nil => exact Nat.zero_le n
  | cons k keys => exact absurd rfl (entries k List.mem_cons_self)

omit [DecidableEq κ] in
theorem atMost_of_covered {t : Table κ ν} {all : List κ} (covered : ∀ k, t.get k ≠ none → k ∈ all) :
    t.AtMost all.length := by
  intro keys nodup entries
  exact (nodup.subperm fun k member => covered k (entries k member)).length_le

namespace AtMost
variable {t : Table κ ν} {n : Nat} {k : κ}

omit [DecidableEq κ] in
theorem mono {m : Nat} (h : t.AtMost n) (more : n ≤ m) : t.AtMost m :=
  fun keys nodup entries => Nat.le_trans (h keys nodup entries) more

theorem insert (h : t.AtMost n) (v : ν) : (t.insert k v).AtMost (n + 1) := by
  intro keys nodup entries
  have others := h (keys.erase k) (nodup.erase k) fun j member => by
    obtain ⟨other, there⟩ := nodup.mem_erase_iff.mp member
    rw [← get_insert_of_ne t other v]
    exact entries j there
  have shorter : keys.length ≤ (keys.erase k).length + 1 := by
    rw [List.length_erase]
    split <;> omega
  exact Nat.le_trans shorter (Nat.succ_le_succ others)

theorem remove (h : t.AtMost n) (k : κ) : (t.remove k).AtMost n :=
  fun keys nodup entries => h keys nodup fun j member => get_ne_none_of_remove (entries j member)

/-- An entry that is removed makes room for another. -/
theorem remove_entry (h : t.AtMost (n + 1)) (entry : t.get k ≠ none) : (t.remove k).AtMost n := by
  intro keys nodup entries
  have gone : k ∉ keys := fun member => entries k member (get_remove_self t k)
  have all := h (k :: keys) (List.nodup_cons.mpr ⟨gone, nodup⟩) fun j member => by
    rcases List.mem_cons.mp member with rfl | later
    · exact entry
    · exact get_ne_none_of_remove (entries j later)
  exact Nat.le_of_succ_le_succ all

omit [DecidableEq κ] in
theorem pos (h : t.AtMost n) (entry : t.get k ≠ none) : 1 ≤ n :=
  h [k] (List.nodup_singleton k) fun _ member => List.mem_singleton.mp member ▸ entry

end AtMost
end Table
end Foctet.Lib
