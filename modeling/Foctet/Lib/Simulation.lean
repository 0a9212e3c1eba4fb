import Foctet.Lib.Machine

/-! What is seen of a run, and runs of one machine as runs of another. -/
namespace Foctet.Lib

variable {σ ℓ τ ω : Type}

/-- What the labels of a run show, each in the state it is taken in. -/
def observed (step : σ → ℓ → Option σ) (observe : σ → ℓ → List ω) : σ → List ℓ → List ω
  | _, [] => []
  | s, l :: ls => observe s l ++ (step s l).elim [] fun s' => observed step observe s' ls

theorem observed_concat {step : σ → ℓ → Option σ} {observe : σ → ℓ → List ω} {s t : σ}
    {ls : List ℓ} (reached : run step s ls = some t) (l : ℓ) :
    observed step observe s (ls ++ [l]) = observed step observe s ls ++ observe t l := by
  induction ls generalizing s with
  | nil =>
      cases reached
      have last : (step t l).elim [] (fun _ => ([] : List ω)) = [] := by
        cases step t l <;> rfl
      simp only [List.nil_append, observed, last, List.append_nil]
  | cons m ls ih =>
      obtain ⟨s', hstep, hrest⟩ := run_cons_some.mp reached
      simp only [List.cons_append, observed, hstep, Option.elim_some, ih hrest, List.append_assoc]

/-- If each step of a run is some steps of a specification, which take what the step shows,
so is the whole run. A step may use all that is known of the run before it and after it. -/
theorem run_simulates {step : σ → ℓ → Option σ} {observe : σ → ℓ → List ω}
    {spec : τ → ω → Option τ} (view : σ → τ) {start s : σ} {ls : List ℓ}
    (simulates : ∀ pre l post s s', ls = pre ++ l :: post → run step start pre = some s →
      step s l = some s' → run spec (view s) (observe s l) = some (view s'))
    (reached : run step start ls = some s) :
    run spec (view start) (observed step observe start ls) = some (view s) := by
  induction ls using List.reverseRecOn generalizing s with
  | nil =>
      cases reached
      rfl
  | append_singleton ls l ih =>
      obtain ⟨t, before, last⟩ := run_concat_some.mp reached
      have earlier := ih (s := t) (fun pre m post u u' split => simulates pre m (post ++ [l]) u u'
        (by rw [split, List.append_assoc, List.cons_append])) before
      rw [observed_concat before]
      exact run_append_some.mpr ⟨view t, earlier, simulates ls l [] t s rfl before last⟩

/-- What each step keeps, as a relation between the labels taken so far and the state. -/
theorem run_history {step : σ → ℓ → Option σ} (P : List ℓ → σ → Prop)
    (keep : ∀ ls s l s', P ls s → step s l = some s' → P (ls ++ [l]) s') {start s : σ} {ls : List ℓ}
    (reached : run step start ls = some s) (init : P [] start) : P ls s := by
  induction ls using List.reverseRecOn generalizing s with
  | nil =>
      cases reached
      exact init
  | append_singleton ls l ih =>
      obtain ⟨t, before, last⟩ := run_concat_some.mp reached
      exact keep ls t l s (ih before) last

end Foctet.Lib
