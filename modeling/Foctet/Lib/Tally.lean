import Foctet.Lib.Machine
import Mathlib.Algebra.BigOperators.Intervals

/-! Sums of a function below a bound, of which one value changes, and runs that go on as long as
a number goes down. -/
namespace Foctet.Lib

section change
variable {f g : Nat → Nat} {c n : Nat}

/-- Two functions that differ in one place. -/
theorem sum_change (within : c < n) (others : ∀ d, d ≠ c → f d = g d) :
    ∑ d ∈ Finset.range n, f d + g c = ∑ d ∈ Finset.range n, g d + f c := by
  have there : c ∈ Finset.range n := Finset.mem_range.mpr within
  have rest : ∑ d ∈ (Finset.range n).erase c, f d = ∑ d ∈ (Finset.range n).erase c, g d :=
    Finset.sum_congr rfl fun d member => others d (Finset.ne_of_mem_erase member)
  rw [← Finset.add_sum_erase _ f there, ← Finset.add_sum_erase _ g there, rest]
  omega

/-- Two functions of which the first is larger in one place at most. -/
theorem sum_grown {k : Nat} (others : ∀ d, d ≠ c → f d = g d) (own : f c ≤ g c + k) (n : Nat) :
    ∑ d ∈ Finset.range n, f d ≤ ∑ d ∈ Finset.range n, g d + k := by
  rcases Nat.lt_or_ge c n with within | out
  · have change := sum_change within others
    omega
  · have same : ∑ d ∈ Finset.range n, f d = ∑ d ∈ Finset.range n, g d := by
      refine Finset.sum_congr rfl fun d member => others d ?_
      have less := Finset.mem_range.mp member
      omega
    omega

end change

/-- From every state that is not there yet, some allowed labels lead to one that is nearer. Then
some lead there. -/
theorem run_descends {σ ℓ : Type} {step : σ → ℓ → Option σ} (allowed : ℓ → Prop) (inv goal : σ → Prop)
    (distance : σ → Nat)
    (nearer : ∀ s, inv s → ¬ goal s → ∃ ls s', (∀ l ∈ ls, allowed l) ∧ run step s ls = some s' ∧
      inv s' ∧ distance s' < distance s)
    {s : σ} (start : inv s) :
    ∃ ls s', (∀ l ∈ ls, allowed l) ∧ run step s ls = some s' ∧ inv s' ∧ goal s' := by
  induction far : distance s using Nat.strongRecOn generalizing s with
  | _ d ih =>
      by_cases there : goal s
      · exact ⟨[], s, List.forall_mem_nil _, rfl, start, there⟩
      · obtain ⟨ls, m, ok, first, kept, less⟩ := nearer s start there
        obtain ⟨ms, s', ok', rest, last, arrived⟩ := ih (distance m) (far ▸ less) kept rfl
        exact ⟨ls ++ ms, s', List.forall_mem_append.mpr ⟨ok, ok'⟩,
          run_append_some.mpr ⟨m, first, rest⟩, last, arrived⟩

end Foctet.Lib
