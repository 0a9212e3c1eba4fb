import Foctet.Lib.Outcome

/-! Operations that keep a log of what they tried, also when they fail. -/
namespace Foctet.Lib

structure Logged (ℓ ε α : Type) where
  log : List ℓ
  outcome : Outcome ε α

namespace Logged
variable {ℓ ε α β : Type}

def bind (x : Logged ℓ ε α) (f : α → Logged ℓ ε β) : Logged ℓ ε β :=
  match x.outcome with
  | .ok a => ⟨x.log ++ (f a).log, (f a).outcome⟩
  | .err e => ⟨x.log, .err e⟩
  | .panic => ⟨x.log, .panic⟩

instance : Monad (Logged ℓ ε) where
  pure a := ⟨[], .ok a⟩
  bind := bind

/-- An operation without an entry. -/
def silent (x : Outcome ε α) : Logged ℓ ε α := ⟨[], x⟩

@[simp] theorem ok_bind (log : List ℓ) (a : α) (f : α → Logged ℓ ε β) :
    ((⟨log, .ok a⟩ : Logged ℓ ε α) >>= f) = ⟨log ++ (f a).log, (f a).outcome⟩ := rfl

/-- Without its log, the operation is the one on outcomes. -/
theorem outcome_bind (x : Logged ℓ ε α) (f : α → Logged ℓ ε β) :
    (x >>= f).outcome = x.outcome >>= fun a => (f a).outcome := by
  obtain ⟨log, outcome⟩ := x
  cases outcome <;> rfl

theorem bind_assoc {γ : Type} (x : Logged ℓ ε α) (f : α → Logged ℓ ε β) (g : β → Logged ℓ ε γ) :
    (x >>= f >>= g) = x >>= fun a => f a >>= g := by
  obtain ⟨log, outcome⟩ := x
  cases outcome with
  | ok a =>
      rw [ok_bind, ok_bind]
      obtain ⟨later, outcome⟩ := f a
      cases outcome with
      | ok b => simp only [ok_bind, List.append_assoc]
      | err e => rfl
      | panic => rfl
  | err e => rfl
  | panic => rfl

theorem bind_silent (x : Logged ℓ ε α) (f : α → Outcome ε β) :
    (x >>= fun a => silent (f a)) = ⟨x.log, x.outcome >>= f⟩ := by
  obtain ⟨log, outcome⟩ := x
  cases outcome with
  | ok a => simp only [ok_bind, silent, List.append_nil, Outcome.ok_bind]
  | err e => rfl
  | panic => rfl

/-- Try one after another until one succeeds, with an entry for each that was tried. -/
def firstOk (entry : α → ℓ) (f : α → Outcome ε β) : List α → Logged ℓ ε (Option β)
  | [] => pure none
  | a :: rest =>
      match f a with
      | .ok b => ⟨[entry a], .ok (some b)⟩
      | .err _ => ⟨entry a :: (firstOk entry f rest).log, (firstOk entry f rest).outcome⟩
      | .panic => ⟨[entry a], .panic⟩

variable {entry : α → ℓ} {f : α → Outcome ε β}

theorem outcome_firstOk (l : List α) : (firstOk entry f l).outcome = Outcome.firstOk f l := by
  induction l with
  | nil => rfl
  | cons a l ih =>
      rw [firstOk, Outcome.firstOk]
      cases f a with
      | ok b => rfl
      | err e => exact ih
      | panic => rfl

theorem firstOk_append (l m : List α) : firstOk entry f (l ++ m) =
    firstOk entry f l >>= fun found => match found with
      | some b => pure (some b)
      | none => firstOk entry f m := by
  induction l with
  | nil => rfl
  | cons a l ih =>
      rw [List.cons_append, firstOk, firstOk, ih]
      cases f a with
      | ok b => rfl
      | err e =>
          obtain ⟨log, outcome⟩ := firstOk entry f l
          cases outcome <;> rfl
      | panic => rfl

theorem firstOk_map {γ δ : Type} {g : γ → α} {h : γ → Outcome ε δ} {k : δ → β} {l : List γ}
    (same : ∀ c ∈ l, f (g c) = h c >>= fun d => .ok (k d)) :
    firstOk entry f (l.map g) =
      firstOk (entry ∘ g) h l >>= fun found => pure (found.map k) := by
  induction l with
  | nil => rfl
  | cons c l ih =>
      rw [List.forall_mem_cons] at same
      obtain ⟨head, same⟩ := same
      rw [List.map_cons, firstOk, firstOk, head, ih same]
      cases h c with
      | ok d => rfl
      | err e =>
          obtain ⟨log, outcome⟩ := firstOk (entry ∘ g) h l
          cases outcome <;> rfl
      | panic => rfl

/-- If all fail, all were tried. -/
theorem firstOk_of_errors {l : List α} (errors : ∀ a ∈ l, ∃ e, f a = .err e) :
    firstOk entry f l = ⟨l.map entry, .ok none⟩ := by
  induction l with
  | nil => rfl
  | cons a l ih =>
      obtain ⟨⟨e, failed⟩, errors⟩ := List.forall_mem_cons.mp errors
      rw [firstOk, failed, ih errors]
      rfl

/-- Nothing is tried behind the first success. -/
theorem firstOk_of_success {before after : List α} {a : α} {b : β}
    (errors : ∀ x ∈ before, ∃ e, f x = .err e) (first : f a = .ok b) :
    firstOk entry f (before ++ a :: after) = ⟨(before ++ [a]).map entry, .ok (some b)⟩ := by
  rw [firstOk_append, firstOk_of_errors errors, firstOk, first, List.map_append]
  rfl

end Logged
end Foctet.Lib
