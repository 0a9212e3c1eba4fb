import Mathlib.Logic.Basic

/-! Finite maps read through their lookups. Two tables are equal when every
lookup agrees, which is all a program that only gets, inserts and removes can see. -/
namespace Foctet.Lib

def Table (κ ν : Type) : Type := κ → Option ν

namespace Table
variable {κ ν : Type} [DecidableEq κ]

def empty : Table κ ν := fun _ => none

def get (t : Table κ ν) (k : κ) : Option ν := t k

def insert (t : Table κ ν) (k : κ) (v : ν) : Table κ ν := fun j => if j = k then some v else t j

def remove (t : Table κ ν) (k : κ) : Table κ ν := fun j => if j = k then none else t j

omit [DecidableEq κ] in
@[simp] theorem get_empty (k : κ) : (empty : Table κ ν).get k = none := rfl

@[simp] theorem get_insert_self (t : Table κ ν) (k : κ) (v : ν) :
    (t.insert k v).get k = some v := if_pos rfl

@[simp] theorem get_remove_self (t : Table κ ν) (k : κ) : (t.remove k).get k = none :=
  if_pos rfl

theorem get_insert (t : Table κ ν) (k j : κ) (v : ν) :
    (t.insert k v).get j = if j = k then some v else t.get j := rfl

theorem get_remove (t : Table κ ν) (k j : κ) :
    (t.remove k).get j = if j = k then none else t.get j := rfl

@[simp] theorem get_insert_of_ne (t : Table κ ν) {k j : κ} (h : j ≠ k) (v : ν) :
    (t.insert k v).get j = t.get j := by
  rw [get_insert, if_neg h]

@[simp] theorem get_remove_of_ne (t : Table κ ν) {k j : κ} (h : j ≠ k) :
    (t.remove k).get j = t.get j := by
  rw [get_remove, if_neg h]

/-- What holds of the new entry and of the others holds of every entry after an insertion. -/
theorem forall_insert {t : Table κ ν} {k : κ} {v : ν} {P : κ → ν → Prop} (own : P k v)
    (others : ∀ j w, j ≠ k → t.get j = some w → P j w) :
    ∀ j w, (t.insert k v).get j = some w → P j w := by
  intro j w found
  rcases eq_or_ne j k with rfl | other
  · rw [get_insert_self] at found
    cases found
    exact own
  · rw [get_insert_of_ne t other] at found
    exact others j w other found

/-- What is still there after a removal was there before it. -/
theorem get_of_get_remove {t : Table κ ν} {k j : κ} {v : ν} (h : (t.remove k).get j = some v) :
    t.get j = some v := by
  rw [get_remove] at h
  split at h
  · cases h
  · exact h

theorem get_ne_none_of_remove {t : Table κ ν} {k j : κ} (h : (t.remove k).get j ≠ none) :
    t.get j ≠ none := by
  obtain ⟨v, found⟩ := Option.ne_none_iff_exists'.mp h
  rw [get_of_get_remove found]
  exact Option.some_ne_none v

theorem get_foldl_insert (f : κ → ν) (l : List κ) (t : Table κ ν) (k : κ) :
    (l.foldl (fun t j => t.insert j (f j)) t).get k = if k ∈ l then some (f k) else t.get k := by
  induction l generalizing t with
  | nil => rfl
  | cons j l ih =>
      rw [List.foldl_cons, ih, get_insert]
      by_cases own : k = j
      · subst own
        simp
      · simp [own]

/-- Some key has an entry that it did not have. -/
def Adds (t u : Table κ ν) : Prop := ∃ k v, u.get k = some v ∧ t.get k ≠ some v

omit [DecidableEq κ] in
theorem not_adds_self (t : Table κ ν) : ¬ t.Adds t := fun ⟨_, _, now, before⟩ => before now

omit [DecidableEq κ] in
theorem not_adds_empty (t : Table κ ν) : ¬ t.Adds .empty := by
  rintro ⟨k, v, now, -⟩
  cases now

theorem not_adds_remove (t : Table κ ν) (k : κ) : ¬ t.Adds (t.remove k) :=
  fun ⟨_, _, now, before⟩ => before (get_of_get_remove now)

theorem adds_insert {t : Table κ ν} {k : κ} {v : ν} (other : t.get k ≠ some v) :
    t.Adds (t.insert k v) := ⟨k, v, get_insert_self t k v, other⟩

end Table

namespace SortedMap
variable {ν : Type}

/-- Insertion into a map that is kept in the order of its keys. -/
def insert (k : Nat) (v : ν) : List (Nat × ν) → List (Nat × ν)
  | [] => [(k, v)]
  | (j, w) :: rest =>
      if k < j then (k, v) :: (j, w) :: rest
      else if k = j then (k, v) :: rest
      else (j, w) :: insert k v rest

theorem insert_above {k : Nat} {v : ν} {m : List (Nat × ν)} (above : ∀ p ∈ m, p.1 < k) :
    insert k v m = m ++ [(k, v)] := by
  induction m with
  | nil => rfl
  | cons p m ih =>
      obtain ⟨j, w⟩ := p
      rw [List.forall_mem_cons] at above
      obtain ⟨below, above⟩ := above
      rw [insert, if_neg (Nat.lt_asymm below), if_neg (Nat.ne_of_gt below), ih above, List.cons_append]

end SortedMap

/-- In a list without equal keys a key finds one entry. -/
theorem filter_key {α β : Type} [DecidableEq β] (key : α → β) {l : List α} {a : α}
    (nodup : (l.map key).Nodup) (member : a ∈ l) : l.filter (fun b => key b = key a) = [a] := by
  induction l with
  | nil => cases member
  | cons b l ih =>
      rw [List.map_cons, List.nodup_cons] at nodup
      obtain ⟨new, nodup⟩ := nodup
      rcases List.mem_cons.mp member with rfl | member
      · rw [List.filter_cons_of_pos (by simp), List.filter_eq_nil_iff.mpr]
        intro b there
        simp only [decide_eq_true_eq]
        intro same
        exact new (same ▸ List.mem_map_of_mem there)
      · have other : key b ≠ key a := fun same => new (same ▸ List.mem_map_of_mem member)
        rw [List.filter_cons_of_neg (by simpa using other), ih nodup member]

end Foctet.Lib
