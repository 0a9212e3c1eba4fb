import Mathlib.Data.List.Induction
import Mathlib.Data.List.Sort

/-! Lists that loops build: what a loop collects, in which order things first appear, what a
stable sort keeps of the order before, and which of the greatest elements is picked. -/
namespace Foctet.Lib

/-- A loop whose rounds add elements collects what any of its rounds adds. -/
theorem mem_foldl_iff {α β : Type} {round : List α → β → List α} {a : α} {adds : β → Prop}
    (step : ∀ collected b, a ∈ round collected b ↔ a ∈ collected ∨ adds b)
    (collected : List α) (l : List β) :
    a ∈ l.foldl round collected ↔ a ∈ collected ∨ ∃ b ∈ l, adds b := by
  induction l generalizing collected with
  | nil => simp
  | cons b l ih => rw [List.foldl_cons, ih, step, List.exists_mem_cons_iff, or_assoc]

/-- Either all of a list is so, or there is a first element that is not. -/
theorem forall_or_first {α : Type} (p : α → Prop) (l : List α) :
    (∀ a ∈ l, p a) ∨ ∃ before a after, l = before ++ a :: after ∧ (∀ x ∈ before, p x) ∧ ¬ p a := by
  induction l with
  | nil => exact .inl (List.forall_mem_nil p)
  | cons b l ih =>
      by_cases holds : p b
      case neg => exact .inr ⟨[], b, l, rfl, List.forall_mem_nil p, holds⟩
      case pos =>
          rcases ih with all | ⟨before, a, after, rfl, earlier, fails⟩
          · exact .inl (List.forall_mem_cons.mpr ⟨holds, all⟩)
          · exact .inr ⟨b :: before, a, after, rfl, List.forall_mem_cons.mpr ⟨holds, earlier⟩, fails⟩

/-- Two elements of a list may be put in front of it, in either order. -/
theorem perm_cons_cons {α : Type} {l : List α} {x y : α} (x_there : x ∈ l) (y_there : y ∈ l)
    (other : x ≠ y) : ∃ rest, (x :: y :: rest).Perm l ∧ (y :: x :: rest).Perm l := by
  obtain ⟨before, after, rfl⟩ := List.append_of_mem x_there
  have front : (x :: (before ++ after)).Perm (before ++ x :: after) := List.perm_middle.symm
  have y_rest : y ∈ before ++ after :=
    (List.mem_cons.mp (front.mem_iff.mpr y_there)).resolve_left other.symm
  obtain ⟨before', after', split⟩ := List.append_of_mem y_rest
  have both : (x :: y :: (before' ++ after')).Perm (before ++ x :: after) := by
    refine List.Perm.trans (List.Perm.cons x ?_) front
    rw [split]
    exact List.perm_middle.symm
  exact ⟨before' ++ after', both, (List.Perm.swap x y _).trans both⟩

section
variable {α : Type} [DecidableEq α] {seen l : List α}

/-- The elements of `seen` in the order in which they first appear there. -/
structure FirstAppearances (seen l : List α) : Prop where
  mem_iff : ∀ a, a ∈ l ↔ a ∈ seen
  order : l.Pairwise fun x y => seen.idxOf x < seen.idxOf y

theorem FirstAppearances.of_nodup (nodup : l.Nodup) : FirstAppearances l l := by
  refine ⟨fun a => .rfl, ?_⟩
  rw [List.pairwise_iff_getElem]
  intro i j i_lt j_lt less
  rwa [nodup.idxOf_getElem, nodup.idxOf_getElem]

theorem FirstAppearances.push (first : FirstAppearances seen l) (a : α) :
    FirstAppearances (seen ++ [a]) (if a ∈ l then l else l ++ [a]) := by
  -- an element that was there keeps its place
  have kept : ∀ x ∈ l, (seen ++ [a]).idxOf x = seen.idxOf x := fun x there =>
    List.idxOf_append_of_mem ((first.mem_iff x).mp there)
  have order : l.Pairwise fun x y => (seen ++ [a]).idxOf x < (seen ++ [a]).idxOf y := by
    apply first.order.imp_of_mem
    intro x y x_there y_there before
    rwa [kept x x_there, kept y y_there]
  split
  case isTrue there =>
      refine ⟨fun x => ?_, order⟩
      rw [List.mem_append, List.mem_singleton, ← first.mem_iff]
      exact (or_iff_left_of_imp fun same => same ▸ there).symm
  case isFalse new =>
      refine ⟨fun x => ?_, List.pairwise_append.mpr ⟨order, List.pairwise_singleton _ _, ?_⟩⟩
      · rw [List.mem_append, List.mem_append, first.mem_iff]
      · intro x x_there y own
        rw [List.mem_singleton.mp own, kept x x_there,
          List.idxOf_append_of_notMem fun there => new ((first.mem_iff a).mpr there)]
        exact Nat.lt_add_right _ (List.idxOf_lt_length_of_mem ((first.mem_iff x).mp x_there))

end

section
variable {α : Type} {r before : α → α → Prop} [DecidableRel r] [IsTrans α r] [Std.Total r] {l : List α}

theorem pairwise_orderedInsert {a : α} (sorted : l.Pairwise fun x y => r x y ∧ (r y x → before x y))
    (first : ∀ y ∈ l, before a y) :
    (l.orderedInsert r a).Pairwise fun x y => r x y ∧ (r y x → before x y) := by
  induction l with
  | nil => exact List.pairwise_singleton _ _
  | cons b l ih =>
      obtain ⟨behind, sorted'⟩ := List.pairwise_cons.mp sorted
      rw [List.orderedInsert_cons]
      split
      case isTrue le =>
          refine List.pairwise_cons.mpr ⟨fun y there => ⟨?_, fun _ => first y there⟩, sorted⟩
          rcases List.mem_cons.mp there with rfl | there
          · exact le
          · exact trans_of r le (behind y there).1
      case isFalse not_le =>
          refine List.pairwise_cons.mpr ⟨fun y there => ?_, ih sorted' fun y there =>
            first y (List.mem_cons_of_mem b there)⟩
          rcases (List.mem_orderedInsert r).mp there with rfl | there
          · exact ⟨(total_of r b y).resolve_right not_le, fun le => absurd le not_le⟩
          · exact behind y there

/-- Sorting is stable: of two elements that may stand in either order, the one that came
before still does. -/
theorem stable_insertionSort (came : l.Pairwise before) :
    (l.insertionSort r).Pairwise fun x y => r x y ∧ (r y x → before x y) := by
  induction l with
  | nil => exact .nil
  | cons a l ih =>
      obtain ⟨first, came⟩ := List.pairwise_cons.mp came
      apply pairwise_orderedInsert (ih came)
      intro y there
      exact first y ((List.mem_insertionSort r).mp there)

end

section
variable {α κ : Type} [LinearOrder κ] (key : α → κ)

theorem filter_orderedInsert (k : κ) (a : α) (l : List α) :
    (l.orderedInsert (fun x y => key y ≤ key x) a).filter (key · = k) =
      (a :: l).filter (key · = k) := by
  induction l with
  | nil => rfl
  | cons b l ih =>
      rw [List.orderedInsert_cons]
      split
      case isTrue => rfl
      case isFalse less =>
          -- the two change places, and only one of them can have the key
          rw [List.filter_cons, ih]
          by_cases own : key a = k
          · have other : ¬ key b = k := fun same => less (le_of_eq (same.trans own.symm))
            simp only [List.filter_cons, own, other, decide_true, decide_false, if_true,
              Bool.false_eq_true, if_false]
          · simp only [List.filter_cons, own, decide_false, Bool.false_eq_true, if_false]

/-- Sorting by a key leaves the elements of one key as they stood. -/
theorem filter_insertionSort (k : κ) (l : List α) :
    (l.insertionSort fun x y => key y ≤ key x).filter (key · = k) = l.filter (key · = k) := by
  induction l with
  | nil => rfl
  | cons a l ih =>
      rw [List.insertionSort_cons, filter_orderedInsert, List.filter_cons, List.filter_cons, ih]

theorem pairwise_ties_iff {R : α → α → Prop} {l : List α} :
    l.Pairwise (fun x y => key x = key y → R x y) ↔ ∀ k, (l.filter (key · = k)).Pairwise R := by
  simp only [List.pairwise_filter, decide_eq_true_eq]
  constructor
  · intro ties k
    apply ties.imp
    intro x y related own other
    exact related (own.trans other.symm)
  · intro each
    rw [List.pairwise_iff_getElem]
    intro i j i_lt j_lt less same
    exact List.pairwise_iff_getElem.mp (each (key l[i])) i j i_lt j_lt less rfl same.symm

/-- What holds between elements of equal keys holds after sorting exactly if it did before. -/
theorem pairwise_ties_insertionSort {R : α → α → Prop} {l : List α} :
    (l.insertionSort fun x y => key y ≤ key x).Pairwise (fun x y => key x = key y → R x y) ↔
      l.Pairwise (fun x y => key x = key y → R x y) := by
  simp only [pairwise_ties_iff, filter_insertionSort]

/-- The elements with the greatest key, in their order. -/
def greatest (l : List α) : List α := l.filter fun a => l.all fun b => key b ≤ key a

/-- `max_by_key`: of equal elements the later one is kept. -/
def maxByKey (l : List α) : Option α :=
  l.foldl (fun best a =>
    match best with
    | none => some a
    | some b => if key b > key a then some b else some a) none

variable {key} {l : List α}

theorem mem_greatest {a : α} : a ∈ greatest key l ↔ a ∈ l ∧ ∀ b ∈ l, key b ≤ key a := by
  simp only [greatest, List.mem_filter, List.all_eq_true, decide_eq_true_eq]

/-- They are the elements that have the same key as one of them. -/
theorem greatest_eq {a : α} (top : a ∈ greatest key l) : greatest key l = l.filter (key · = key a) := by
  obtain ⟨there, above⟩ := mem_greatest.mp top
  apply List.filter_congr
  intro b member
  rw [Bool.eq_iff_iff, List.all_eq_true, decide_eq_true_eq]
  constructor
  · intro all
    exact le_antisymm (above b member) (of_decide_eq_true (all a there))
  · intro same c c_there
    rw [decide_eq_true_eq, same]
    exact above c c_there

/-- Sorting puts the first of them in front. -/
theorem head?_insertionSort : (l.insertionSort fun x y => key y ≤ key x).head? = (greatest key l).head? := by
  have sorted := List.pairwise_insertionSort (fun x y => key y ≤ key x) l
  have perm := List.perm_insertionSort (fun x y => key y ≤ key x) l
  cases sort : l.insertionSort fun x y => key y ≤ key x with
  | nil =>
      rw [sort] at perm
      rw [List.nil_perm.mp perm]
      rfl
  | cons a rest =>
      rw [sort] at sorted perm
      have top : a ∈ greatest key l := by
        refine mem_greatest.mpr ⟨perm.mem_iff.mp List.mem_cons_self, fun b member => ?_⟩
        rcases List.mem_cons.mp (perm.mem_iff.mpr member) with rfl | later
        · exact le_refl _
        · exact (List.pairwise_cons.mp sorted).1 b later
      rw [greatest_eq top, ← filter_insertionSort key, sort, List.filter_cons_of_pos (by simp)]
      rfl

theorem greatest_eq_nil : greatest key l = [] ↔ l = [] := by
  rw [← List.head?_eq_none_iff, ← head?_insertionSort, List.head?_eq_none_iff,
    ← List.length_eq_zero_iff, List.length_insertionSort, List.length_eq_zero_iff]

/-- The maximum is the last of them. -/
theorem maxByKey_eq : maxByKey key l = (greatest key l).getLast? := by
  induction l using List.reverseRecOn with
  | nil => rfl
  | append_singleton l a ih =>
      rw [maxByKey, List.foldl_concat, ← maxByKey, ih]
      cases last : (greatest key l).getLast? with
      | none =>
          rw [greatest_eq_nil.mp (List.getLast?_eq_none_iff.mp last)]
          simp [greatest]
      | some b =>
          obtain ⟨there, above⟩ := mem_greatest.mp (List.mem_of_getLast? last)
          by_cases greater : key b > key a
          · -- the greatest are those of before
            have same : greatest key (l ++ [a]) = greatest key l := by
              have top : b ∈ greatest key (l ++ [a]) := by
                refine mem_greatest.mpr ⟨List.mem_append_left _ there, ?_⟩
                rw [List.forall_mem_append]
                exact ⟨above, List.forall_mem_singleton.mpr (le_of_lt greater)⟩
              rw [greatest_eq top, greatest_eq (List.mem_of_getLast? last), List.filter_append,
                List.filter_cons_of_neg (by simpa using ne_of_lt greater), List.filter_nil,
                List.append_nil]
            simp only [greater, if_true, same, last]
          · have top : a ∈ greatest key (l ++ [a]) := by
              refine mem_greatest.mpr ⟨List.mem_append_right _ List.mem_cons_self, ?_⟩
              rw [List.forall_mem_append]
              refine ⟨fun c member => ?_, List.forall_mem_singleton.mpr (le_refl _)⟩
              exact le_trans (above c member) (not_lt.mp greater)
            rw [greatest_eq top, List.filter_append, List.filter_cons_of_pos (by simp),
              List.filter_nil, List.getLast?_concat]
            simp only [greater, if_false]

end
end Foctet.Lib
