import Mathlib.Data.List.Basic

/-! Loops that need not end. A loop is given fuel for some number of rounds, and it ends if
some fuel is enough. There is one rule to show that a loop ends, by something that becomes
less in each round, and one to show that it goes on for ever. -/
namespace Foctet.Lib

/-- What one round comes to: another round, or the end. -/
inductive Round (σ ρ : Type) where
  | again (state : σ)
  | done (result : ρ)
  deriving DecidableEq, Repr

variable {σ ρ : Type} {round : σ → Round σ ρ} {s t : σ} {r r' : ρ}

def loop (round : σ → Round σ ρ) : Nat → σ → Option ρ
  | 0, _ => none
  | fuel + 1, s =>
      match round s with
      | .again t => loop round fuel t
      | .done r => some r

theorem loop_again (goes_on : round s = .again t) (fuel : Nat) :
    loop round (fuel + 1) s = loop round fuel t := by
  rw [loop, goes_on]

theorem loop_done (stops : round s = .done r) (fuel : Nat) : loop round (fuel + 1) s = some r := by
  rw [loop, stops]

/-- More fuel changes nothing about a loop that has ended. -/
theorem loop_add {fuel : Nat} (ended : loop round fuel s = some r) (more : Nat) :
    loop round (fuel + more) s = some r := by
  induction fuel generalizing s with
  | zero => cases ended
  | succ fuel ih =>
      rw [Nat.succ_add]
      cases step : round s with
      | again t =>
          rw [loop_again step] at ended ⊢
          exact ih ended
      | done r' => rwa [loop_done step] at ended ⊢

/-- The loop comes to its end with this result. -/
def Ends (round : σ → Round σ ρ) (s : σ) (r : ρ) : Prop := ∃ fuel, loop round fuel s = some r

theorem Ends.unique (one : Ends round s r) (other : Ends round s r') : r = r' := by
  obtain ⟨fuel, ended⟩ := one
  obtain ⟨fuel', ended'⟩ := other
  have long := loop_add ended fuel'
  rw [Nat.add_comm, loop_add ended' fuel] at long
  exact (Option.some.inj long).symm

theorem Ends.of_done (stops : round s = .done r) : Ends round s r := ⟨1, loop_done stops 0⟩

/-- A loop ends, and in time, if each of its rounds keeps an invariant and leaves less to do. -/
theorem loop_of_decreasing (inv : σ → Prop) (post : ρ → Prop) (left : σ → Nat)
    (step : ∀ s, inv s → (∃ t, round s = .again t ∧ inv t ∧ left t < left s) ∨
      ∃ r, round s = .done r ∧ post r)
    (start : inv s) {fuel : Nat} (enough : left s < fuel) :
    ∃ r, loop round fuel s = some r ∧ post r := by
  induction fuel generalizing s with
  | zero => cases enough
  | succ fuel ih =>
      rcases step s start with ⟨t, goes_on, kept, less⟩ | ⟨r, stops, holds⟩
      · rw [loop_again goes_on]
        exact ih kept (Nat.lt_of_lt_of_le less (Nat.le_of_lt_succ enough))
      · exact ⟨r, loop_done stops fuel, holds⟩

/-- A loop never ends if from each state of some kind it goes on to another of that kind. -/
theorem loop_of_cycling (inv : σ → Prop) (step : ∀ s, inv s → ∃ t, round s = .again t ∧ inv t)
    (start : inv s) (fuel : Nat) : loop round fuel s = none := by
  induction fuel generalizing s with
  | zero => rfl
  | succ fuel ih =>
      obtain ⟨t, goes_on, kept⟩ := step s start
      rw [loop_again goes_on]
      exact ih kept

end Foctet.Lib
