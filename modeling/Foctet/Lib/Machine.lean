import Mathlib.Data.List.Basic
import Mathlib.Data.List.Induction

/-! Runs of a partial step function. A label that is not enabled stops the run,
so a theorem about every run covers every order in which labels can be taken. -/
namespace Foctet.Lib

variable {σ ℓ : Type}

def run (step : σ → ℓ → Option σ) : σ → List ℓ → Option σ
  | s, [] => some s
  | s, l :: ls => (step s l).bind fun s' => run step s' ls

theorem run_cons_some {step : σ → ℓ → Option σ} {s t : σ} {l : ℓ} {ls : List ℓ} :
    run step s (l :: ls) = some t ↔ ∃ s', step s l = some s' ∧ run step s' ls = some t := by
  simp only [run, Option.bind_eq_some_iff]

theorem run_append_some {step : σ → ℓ → Option σ} {s t : σ} {ls ms : List ℓ} :
    run step s (ls ++ ms) = some t ↔ ∃ s', run step s ls = some s' ∧ run step s' ms = some t := by
  induction ls generalizing s with
  | nil => simp [run]
  | cons l ls ih =>
      simp only [List.cons_append, run_cons_some, ih]
      constructor
      · rintro ⟨s', hstep, m, hls, hms⟩
        exact ⟨m, ⟨s', hstep, hls⟩, hms⟩
      · rintro ⟨m, ⟨s', hstep, hls⟩, hms⟩
        exact ⟨s', hstep, m, hls, hms⟩

theorem run_concat_some {step : σ → ℓ → Option σ} {s t : σ} {ls : List ℓ} {l : ℓ} :
    run step s (ls ++ [l]) = some t ↔ ∃ s', run step s ls = some s' ∧ step s' l = some t := by
  rw [run_append_some]
  simp [run]

/-- What the steps over allowed labels keep holds after every run of them. -/
theorem run_invariant {step : σ → ℓ → Option σ} (allowed : ℓ → Prop) (inv : σ → Prop)
    (keep : ∀ s l s', allowed l → step s l = some s' → inv s → inv s') {s t : σ} {ls : List ℓ}
    (ok : ∀ l ∈ ls, allowed l) (run_eq : run step s ls = some t) (start : inv s) : inv t := by
  induction ls generalizing s with
  | nil =>
      cases run_eq
      exact start
  | cons l ls ih =>
      obtain ⟨s', hstep, hrest⟩ := run_cons_some.mp run_eq
      exact ih (fun m hm => ok m (List.mem_cons_of_mem l hm)) hrest
        (keep s l s' (ok l List.mem_cons_self) hstep start)

/-- What every step hands back from its result to its source holds at the start
of a run whose end has it. -/
theorem run_back {step : σ → ℓ → Option σ} (back : σ → Prop)
    (earlier : ∀ s l s', step s l = some s' → back s' → back s) {s t : σ} {ls : List ℓ}
    (run_eq : run step s ls = some t) (last : back t) : back s := by
  induction ls generalizing s with
  | nil =>
      cases run_eq
      exact last
  | cons l ls ih =>
      obtain ⟨s', hstep, hrest⟩ := run_cons_some.mp run_eq
      exact earlier s l s' hstep (ih hrest)

/-- The steps may use a fact that only the last state is known to have, when it
is handed back along every step. -/
theorem run_invariant_back {step : σ → ℓ → Option σ} (allowed : ℓ → Prop) (back inv : σ → Prop)
    (earlier : ∀ s l s', step s l = some s' → back s' → back s)
    (keep : ∀ s l s', allowed l → step s l = some s' → back s' → inv s → inv s') {s t : σ}
    {ls : List ℓ} (ok : ∀ l ∈ ls, allowed l) (run_eq : run step s ls = some t) (last : back t)
    (start : inv s) : inv t := by
  induction ls generalizing s with
  | nil =>
      cases run_eq
      exact start
  | cons l ls ih =>
      obtain ⟨s', hstep, hrest⟩ := run_cons_some.mp run_eq
      exact ih (fun m hm => ok m (List.mem_cons_of_mem l hm)) hrest
        (keep s l s' (ok l List.mem_cons_self) hstep (run_back back earlier hrest last) start)

/-- Every state of a run has the property, its two ends included. -/
def Throughout (step : σ → ℓ → Option σ) (P : σ → Prop) (s : σ) (ls : List ℓ) : Prop :=
  ∀ pre post t, ls = pre ++ post → run step s pre = some t → P t

/-- A run with a property all along. -/
structure RunsThrough (step : σ → ℓ → Option σ) (P : σ → Prop) (s : σ) (ls : List ℓ) (t : σ) :
    Prop where
  reaches : run step s ls = some t
  throughout : Throughout step P s ls

section through
variable {step : σ → ℓ → Option σ} {P : σ → Prop} {s t u : σ} {l : ℓ} {ls ms : List ℓ}

theorem RunsThrough.nil (here : P s) : RunsThrough step P s [] s where
  reaches := rfl
  throughout pre post t cut reached := by
    obtain ⟨rfl, rfl⟩ := List.append_eq_nil_iff.mp cut.symm
    cases reached
    exact here

theorem RunsThrough.cons (here : P s) (hstep : step s l = some u)
    (rest : RunsThrough step P u ls t) : RunsThrough step P s (l :: ls) t where
  reaches := run_cons_some.mpr ⟨u, hstep, rest.reaches⟩
  throughout pre post v cut reached := by
    cases pre with
    | nil =>
        cases reached
        exact here
    | cons m pre =>
        cases cut
        obtain ⟨u', hstep', later⟩ := run_cons_some.mp reached
        obtain rfl := Option.some.inj (hstep.symm.trans hstep')
        exact rest.throughout pre post v rfl later

theorem RunsThrough.append (first : RunsThrough step P s ls u) (rest : RunsThrough step P u ms t) :
    RunsThrough step P s (ls ++ ms) t := by
  induction ls generalizing s with
  | nil =>
      cases first.reaches
      exact rest
  | cons l ls ih =>
      obtain ⟨v, hstep, later⟩ := run_cons_some.mp first.reaches
      refine .cons (first.throughout [] _ s rfl rfl) hstep (ih ⟨later, ?_⟩)
      intro pre post w cut reached
      exact first.throughout (l :: pre) post w (by rw [cut, List.cons_append])
        (run_cons_some.mpr ⟨v, hstep, reached⟩)

end through

/-- A measure that grows by at most one, and only with labels of one kind, is bounded by the
number of those labels. -/
theorem run_countP {step : σ → ℓ → Option σ} (measure : σ → Nat) (kind : ℓ → Bool)
    (grows : ∀ s l s', step s l = some s' → measure s' ≤ measure s + if kind l then 1 else 0)
    {s t : σ} {ls : List ℓ} (run_eq : run step s ls = some t) :
    measure t ≤ measure s + ls.countP kind := by
  induction ls generalizing s with
  | nil =>
      cases run_eq
      exact Nat.le_refl _
  | cons l ls ih =>
      obtain ⟨s', hstep, hrest⟩ := run_cons_some.mp run_eq
      have now := grows s l s' hstep
      have later := ih hrest
      rw [List.countP_cons]
      omega

/-- Cutting a run at each of its labels: at the first one, or further on. -/
theorem forall_cut_cons {P : List ℓ → ℓ → List ℓ → Prop} {l : ℓ} {ls : List ℓ} :
    (∀ pre m post, l :: ls = pre ++ m :: post → P pre m post) ↔
      P [] l ls ∧ ∀ pre m post, ls = pre ++ m :: post → P (l :: pre) m post := by
  constructor
  · intro all
    refine ⟨all [] l ls rfl, ?_⟩
    intro pre m post split
    exact all (l :: pre) m post (by rw [split, List.cons_append])
  · rintro ⟨first, further⟩ pre m post split
    cases pre with
    | nil =>
        cases split
        exact first
    | cons n pre =>
        cases split
        exact further pre m post rfl

/-- The same from the right, where what comes after a label does not matter. -/
theorem forall_cut_concat {P : List ℓ → ℓ → Prop} {ls : List ℓ} {l : ℓ} :
    (∀ pre m post, ls ++ [l] = pre ++ m :: post → P pre m) ↔
      (∀ pre m post, ls = pre ++ m :: post → P pre m) ∧ P ls l := by
  constructor
  · intro all
    refine ⟨?_, all ls l [] rfl⟩
    rintro pre m post rfl
    exact all pre m (post ++ [l]) (by simp)
  · rintro ⟨earlier, last⟩ pre m post split
    induction post using List.reverseRecOn with
    | nil =>
        obtain ⟨rfl, same⟩ := List.append_inj' split rfl
        obtain ⟨rfl⟩ := same
        exact last
    | append_singleton post n _ =>
        rw [← List.cons_append, ← List.append_assoc] at split
        exact earlier pre m post (List.append_inj' split rfl).1

/-- A label that occurs more than `n` times has an occurrence with `n` others before it. -/
theorem exists_cut_of_lt_count [DecidableEq ℓ] {l : ℓ} {ls : List ℓ} {n : Nat}
    (more : n < ls.count l) : ∃ pre post, ls = pre ++ l :: post ∧ pre.count l = n := by
  induction ls generalizing n with
  | nil => cases more
  | cons m ls ih =>
      by_cases own : m = l
      · subst own
        cases n with
        | zero => exact ⟨[], ls, rfl, rfl⟩
        | succ n =>
            rw [List.count_cons_self] at more
            obtain ⟨pre, post, rfl, count⟩ := ih (Nat.lt_of_succ_lt_succ more)
            exact ⟨m :: pre, post, rfl, by rw [List.count_cons_self, count]⟩
      · rw [List.count_cons_of_ne own] at more
        obtain ⟨pre, post, rfl, count⟩ := ih more
        exact ⟨m :: pre, post, rfl, by rw [List.count_cons_of_ne own, count]⟩

/-- A preorder holds between any two states of a run exactly if every step keeps to it. -/
theorem foldl_related_iff {R : σ → σ → Prop} (refl : ∀ s, R s s)
    (trans : ∀ s t u, R s t → R t u → R s u) (f : σ → ℓ → σ) (s : σ) (ls : List ℓ) :
    (∀ pre mid post, ls = pre ++ mid ++ post → R (pre.foldl f s) ((pre ++ mid).foldl f s)) ↔
      ∀ pre l post, ls = pre ++ l :: post → R (pre.foldl f s) (f (pre.foldl f s) l) := by
  constructor
  · intro all pre l post split
    have adjacent := all pre [l] post (by simpa using split)
    rwa [List.foldl_append] at adjacent
  · intro each pre mid
    induction mid using List.reverseRecOn with
    | nil =>
        intro post _
        rw [List.append_nil]
        exact refl _
    | append_singleton mid l ih =>
        intro post split
        have before := ih (l :: post) (by simpa using split)
        have last := each (pre ++ mid) l post (by simpa using split)
        rw [← List.append_assoc, List.foldl_concat]
        exact trans _ _ _ before last

/-- Runs of a step that also writes output; the outputs are concatenated. -/
def runOut {ω : Type} (step : σ → ℓ → Option (σ × List ω)) : σ → List ℓ → Option (σ × List ω)
  | s, [] => some (s, [])
  | s, l :: ls => (step s l).bind fun r => (runOut step r.1 ls).map fun q => (q.1, r.2 ++ q.2)

theorem runOut_cons_some {ω : Type} {step : σ → ℓ → Option (σ × List ω)} {s t : σ} {l : ℓ}
    {ls : List ℓ} {out : List ω} : runOut step s (l :: ls) = some (t, out) ↔
      ∃ s' o os, step s l = some (s', o) ∧ runOut step s' ls = some (t, os) ∧ out = o ++ os := by
  simp only [runOut, Option.bind_eq_some_iff, Option.map_eq_some_iff, Prod.exists, Prod.mk.injEq]
  constructor
  · rintro ⟨s', o, hstep, t', os, hrest, rfl, rfl⟩
    exact ⟨s', o, os, hstep, hrest, rfl⟩
  · rintro ⟨s', o, os, hstep, hrest, rfl⟩
    exact ⟨s', o, hstep, t, os, hrest, rfl, rfl⟩

theorem runOut_append_some {ω : Type} {step : σ → ℓ → Option (σ × List ω)} {s t : σ}
    {ls ms : List ℓ} {out : List ω} : runOut step s (ls ++ ms) = some (t, out) ↔
      ∃ s' o o', runOut step s ls = some (s', o) ∧ runOut step s' ms = some (t, o') ∧
        out = o ++ o' := by
  induction ls generalizing s out with
  | nil =>
      constructor
      · exact fun h => ⟨s, [], out, rfl, h, rfl⟩
      · rintro ⟨s', o, o', hnil, hrest, rfl⟩
        cases hnil
        exact hrest
  | cons l ls ih =>
      rw [List.cons_append, runOut_cons_some]
      constructor
      · rintro ⟨s', o, os, hstep, hrest, rfl⟩
        obtain ⟨m, p, p', hls, hms, rfl⟩ := ih.mp hrest
        exact ⟨m, o ++ p, p', runOut_cons_some.mpr ⟨s', o, p, hstep, hls, rfl⟩, hms,
          (List.append_assoc o p p').symm⟩
      · rintro ⟨m, p, p', hls, hms, rfl⟩
        obtain ⟨s', o, os, hstep, hrest, rfl⟩ := runOut_cons_some.mp hls
        exact ⟨s', o, os ++ p', hstep, ih.mpr ⟨m, os, p', hrest, hms, rfl⟩,
          List.append_assoc o os p'⟩

theorem runOut_concat_some {ω : Type} {step : σ → ℓ → Option (σ × List ω)} {s t : σ}
    {ls : List ℓ} {l : ℓ} {out : List ω} : runOut step s (ls ++ [l]) = some (t, out) ↔
      ∃ s' o o', runOut step s ls = some (s', o) ∧ step s' l = some (t, o') ∧ out = o ++ o' := by
  have last : ∀ s' o', runOut step s' [l] = some (t, o') ↔ step s' l = some (t, o') := by
    intro s' o'
    rw [runOut_cons_some]
    constructor
    · rintro ⟨_, _, _, hstep, hnil, rfl⟩
      cases hnil
      rwa [List.append_nil]
    · intro hstep
      exact ⟨t, o', [], hstep, rfl, (List.append_nil o').symm⟩
  simp only [runOut_append_some, last]

theorem runOut_invariant {ω : Type} {step : σ → ℓ → Option (σ × List ω)} (inv : σ → Prop)
    (keep : ∀ s l s' o, step s l = some (s', o) → inv s → inv s') {s t : σ} {ls : List ℓ}
    {out : List ω} (run_eq : runOut step s ls = some (t, out)) (start : inv s) : inv t := by
  induction ls generalizing s out with
  | nil =>
      cases run_eq
      exact start
  | cons l ls ih =>
      obtain ⟨s', o, os, hstep, hrest, -⟩ := runOut_cons_some.mp run_eq
      exact ih hrest (keep s l s' o hstep start)

end Foctet.Lib
