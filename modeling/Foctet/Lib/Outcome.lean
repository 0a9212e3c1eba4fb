import Mathlib.Data.List.Basic

/-! Operations that may fail in two ways: with an error for the caller, or with a
panic. And slices: of lists, which panic out of range, and of strings by bytes, which
panic inside a character. -/
namespace Foctet.Lib

/-- The largest value of a 64-bit `isize`, which is as far as memory goes. -/
def isizeMax : Nat := 0x7fffffffffffffff

inductive Outcome (ε α : Type) where
  | ok (value : α)
  | err (error : ε)
  | panic
  deriving DecidableEq, Repr

namespace Outcome
variable {ε ε' α β : Type}

def bind (x : Outcome ε α) (f : α → Outcome ε β) : Outcome ε β :=
  match x with
  | ok a => f a
  | err e => err e
  | panic => panic

instance : Monad (Outcome ε) where
  pure := ok
  bind := bind

/-- `ok_or` -/
def okOr (e : ε) : Option α → Outcome ε α
  | some a => ok a
  | none => err e

/-- An index operation: out of range is a panic. -/
def orPanic : Option α → Outcome ε α
  | some a => ok a
  | none => panic

def ofExcept : Except ε α → Outcome ε α
  | .ok a => ok a
  | .error e => err e

def mapErr (g : ε → ε') : Outcome ε α → Outcome ε' α
  | ok a => ok a
  | err e => err (g e)
  | panic => panic

/-- `if !condition { return Err(e) }` -/
def ensure (condition : Bool) (e : ε) : Outcome ε Unit := if condition then ok () else err e

@[simp] theorem ok_bind (a : α) (f : α → Outcome ε β) : (ok a >>= f) = f a := rfl
@[simp] theorem err_bind (e : ε) (f : α → Outcome ε β) : (err e >>= f) = err e := rfl
@[simp] theorem panic_bind (f : α → Outcome ε β) : (panic >>= f) = panic := rfl
@[simp] theorem pure_eq (a : α) : (pure a : Outcome ε α) = ok a := rfl

theorem bind_eq_ok {x : Outcome ε α} {f : α → Outcome ε β} {b : β} :
    (x >>= f) = ok b ↔ ∃ a, x = ok a ∧ f a = ok b := by
  cases x <;> simp

theorem bind_eq_panic {x : Outcome ε α} {f : α → Outcome ε β} :
    (x >>= f) = panic ↔ x = panic ∨ ∃ a, x = ok a ∧ f a = panic := by
  cases x <;> simp

@[simp] theorem okOr_eq_ok {e : ε} {o : Option α} {a : α} : okOr e o = ok a ↔ o = some a := by
  cases o <;> simp [okOr]

@[simp] theorem okOr_ne_panic {e : ε} {o : Option α} : okOr e o ≠ panic := by
  cases o <;> simp [okOr]

@[simp] theorem orPanic_eq_ok {o : Option α} {a : α} :
    (orPanic o : Outcome ε α) = ok a ↔ o = some a := by
  cases o <;> simp [orPanic]

@[simp] theorem orPanic_eq_panic {o : Option α} : (orPanic o : Outcome ε α) = panic ↔ o = none := by
  cases o <;> simp [orPanic]

@[simp] theorem ensure_eq_ok {condition : Bool} {e : ε} {u : Unit} :
    ensure condition e = ok u ↔ condition = true := by
  cases condition <;> simp [ensure]

@[simp] theorem ensure_ne_panic {condition : Bool} {e : ε} : ensure condition e ≠ panic := by
  cases condition <;> simp [ensure]

@[simp] theorem mapErr_eq_ok {g : ε → ε'} {x : Outcome ε α} {a : α} :
    x.mapErr g = ok a ↔ x = ok a := by
  cases x <;> simp [mapErr]

@[simp] theorem mapErr_eq_panic {g : ε → ε'} {x : Outcome ε α} :
    x.mapErr g = panic ↔ x = panic := by
  cases x <;> simp [mapErr]

/-- What every step keeps holds after all of them, if none failed. -/
theorem foldlM_invariant {σ ℓ : Type} {step : σ → ℓ → Outcome ε σ} (inv : σ → Prop)
    (keep : ∀ s l s', step s l = ok s' → inv s → inv s') {s t : σ} {ls : List ℓ}
    (run_eq : ls.foldlM step s = ok t) (start : inv s) : inv t := by
  induction ls generalizing s with
  | nil =>
      cases run_eq
      exact start
  | cons l ls ih =>
      rw [List.foldlM_cons, bind_eq_ok] at run_eq
      obtain ⟨s', hstep, hrest⟩ := run_eq
      exact ih hrest (keep s l s' hstep start)

/-- Try one after another until one succeeds: an error goes on to the next, a panic does not. -/
def firstOk (f : α → Outcome ε β) : List α → Outcome ε (Option β)
  | [] => ok none
  | a :: rest =>
      match f a with
      | ok b => ok (some b)
      | err _ => firstOk f rest
      | panic => panic

variable {f : α → Outcome ε β}

/-- What is found is the first success, with only errors before it. -/
theorem firstOk_eq_ok {l : List α} {b : β} : firstOk f l = ok (some b) ↔
    ∃ before a after, l = before ++ a :: after ∧ (∀ x ∈ before, ∃ e, f x = err e) ∧ f a = ok b := by
  induction l with
  | nil =>
      refine iff_of_false nofun ?_
      rintro ⟨before, a, after, split, -⟩
      exact absurd split (by simp)
  | cons x l ih =>
      constructor
      · intro found
        rw [firstOk] at found
        split at found
        case h_1 c first =>
            obtain rfl := Option.some.inj (ok.inj found)
            exact ⟨[], x, l, rfl, nofun, first⟩
        case h_2 e failed =>
            obtain ⟨before, a, after, rfl, errors, first⟩ := ih.mp found
            exact ⟨x :: before, a, after, rfl, List.forall_mem_cons.mpr ⟨⟨e, failed⟩, errors⟩, first⟩
        case h_3 => cases found
      · rintro ⟨before, a, after, split, errors, first⟩
        rcases before with - | ⟨y, before⟩
        · obtain ⟨rfl, rfl⟩ := List.cons.inj split
          rw [firstOk, first]
        · obtain ⟨rfl, rfl⟩ := List.cons.inj split
          obtain ⟨⟨e, failed⟩, errors⟩ := List.forall_mem_cons.mp errors
          rw [firstOk, failed]
          exact ih.mpr ⟨before, a, after, rfl, errors, first⟩

/-- Where nothing panics, one success is enough. -/
theorem firstOk_of_mem {l : List α} (calm : ∀ x ∈ l, f x ≠ panic) {a : α} {b : β} (there : a ∈ l)
    (succeeds : f a = ok b) : ∃ c, firstOk f l = ok (some c) := by
  induction l with
  | nil => cases there
  | cons x l ih =>
      rw [List.forall_mem_cons] at calm
      cases first : f x with
      | ok c => exact ⟨c, by rw [firstOk, first]⟩
      | panic => exact absurd first calm.1
      | err e =>
          have later : a ∈ l := by
            refine (List.mem_cons.mp there).resolve_left fun same => ?_
            rw [← same, succeeds] at first
            cases first
          obtain ⟨c, found⟩ := ih calm.2 later
          exact ⟨c, by rw [firstOk, first]; exact found⟩

end Outcome

/-- `l[start..stop]` -/
def slice {α : Type} (l : List α) (start stop : Nat) : Option (List α) :=
  if start ≤ stop ∧ stop ≤ l.length then some ((l.drop start).take (stop - start)) else none

theorem slice_eq {α : Type} {l : List α} {start stop : Nat} (ordered : start ≤ stop)
    (within : stop ≤ l.length) : slice l start stop = some ((l.drop start).take (stop - start)) :=
  if_pos ⟨ordered, within⟩

/-- `text.get(n..)`: the rest of a text from byte `n`, if that is where a character starts. -/
def dropBytes : Nat → List Char → Option (List Char)
  | 0, text => some text
  | _ + 1, [] => none
  | n + 1, c :: text => if c.utf8Size ≤ n + 1 then dropBytes (n + 1 - c.utf8Size) text else none

def byteLength : List Char → Nat
  | [] => 0
  | c :: text => c.utf8Size + byteLength text

theorem dropBytes_append (head text : List Char) :
    dropBytes (byteLength head) (head ++ text) = some text := by
  induction head with
  | nil => cases text <;> rfl
  | cons c head ih =>
      -- the first character is at least one byte wide
      obtain ⟨n, size⟩ : ∃ n, byteLength (c :: head) = n + 1 :=
        Nat.exists_eq_add_one_of_ne_zero (Nat.ne_of_gt (Nat.add_pos_left c.utf8Size_pos _))
      have rest : n + 1 - c.utf8Size = byteLength head := by
        rw [← size, byteLength, Nat.add_sub_cancel_left]
      have fits : c.utf8Size ≤ n + 1 := by
        rw [← size]
        exact Nat.le_add_right _ _
      rw [size, List.cons_append, dropBytes, if_pos fits, rest, ih]

end Foctet.Lib
