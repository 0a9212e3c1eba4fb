import Mathlib.Data.List.Basic

/-! Buffered transducers. A move reads from the front of a buffer, may emit one
item, or is blocked until more input arrives. A move that is possible stays the
same move when bytes are appended behind it, so the emitted items cannot depend
on where the input was cut. -/
namespace Foctet.Lib

/-- The laws of a move: it ignores what lies behind the bytes it reads, and
every move lowers a rank, so a buffer is exhausted after finitely many moves. -/
structure Transducer (σ β ι : Type) where
  move : σ → List β → Option (Option ι × σ × List β)
  rank : σ → List β → Nat
  stable : ∀ {s a o s' a'}, move s a = some (o, s', a') →
    ∀ b, move s (a ++ b) = some (o, s', a' ++ b)
  lower : ∀ {s a o s' a'}, move s a = some (o, s', a') → rank s' a' < rank s a

/-- Items emitted so far, with the state and the buffer left behind. -/
structure Emitted (σ β ι : Type) where
  items : List ι
  state : σ
  rest : List β
  deriving DecidableEq, Repr

namespace Transducer
variable {σ β ι : Type} (T : Transducer σ β ι)

/-- Moves until the transducer is blocked. -/
def settle (s : σ) (a : List β) : Emitted σ β ι :=
  match _moved : T.move s a with
  | none => ⟨[], s, a⟩
  | some (o, s', a') =>
      let later := settle s' a'
      ⟨o.toList ++ later.items, later.state, later.rest⟩
  termination_by T.rank s a
  decreasing_by exact T.lower ‹_›

/-- Moves until an item is emitted or the transducer is blocked. -/
def poll (s : σ) (a : List β) : Option ι × σ × List β :=
  match _moved : T.move s a with
  | none => (none, s, a)
  | some (some x, s', a') => (some x, s', a')
  | some (none, s', a') => poll s' a'
  termination_by T.rank s a
  decreasing_by exact T.lower ‹_›

theorem settle_blocked {s : σ} {a : List β} (h : T.move s a = none) :
    T.settle s a = ⟨[], s, a⟩ := by
  rw [settle]
  split
  · rfl
  · rename_i moved
    rw [h] at moved
    cases moved

theorem settle_move {s s' : σ} {a a' : List β} {o : Option ι}
    (h : T.move s a = some (o, s', a')) :
    T.settle s a = ⟨o.toList ++ (T.settle s' a').items, (T.settle s' a').state,
      (T.settle s' a').rest⟩ := by
  rw [settle]
  split
  · rename_i stuck
    rw [h] at stuck
    cases stuck
  · rename_i moved
    rw [h] at moved
    cases moved
    rfl

theorem poll_blocked {s : σ} {a : List β} (h : T.move s a = none) :
    T.poll s a = (none, s, a) := by
  rw [poll]
  split <;> simp_all

theorem poll_silent {s s' : σ} {a a' : List β} (h : T.move s a = some (none, s', a')) :
    T.poll s a = T.poll s' a' := by
  rw [poll]
  split <;> simp_all

theorem poll_emit {s s' : σ} {a a' : List β} {x : ι}
    (h : T.move s a = some (some x, s', a')) : T.poll s a = (some x, s', a') := by
  rw [poll]
  split <;> simp_all

/-- Induction along the moves of one buffer. -/
theorem move_induction {motive : σ → List β → Prop}
    (blocked : ∀ s a, T.move s a = none → motive s a)
    (moved : ∀ s a o s' a', T.move s a = some (o, s', a') → motive s' a' → motive s a)
    (s : σ) (a : List β) : motive s a := by
  induction hn : T.rank s a using Nat.strongRecOn generalizing s a with
  | _ n ih =>
      cases h : T.move s a with
      | none => exact blocked s a h
      | some r =>
          obtain ⟨o, s', a'⟩ := r
          have hlt := T.lower h
          exact moved s a o s' a' h (ih _ (hn ▸ hlt) s' a' rfl)

/-- A settled transducer is blocked. -/
theorem move_settle (s : σ) (a : List β) :
    T.move (T.settle s a).state (T.settle s a).rest = none := by
  induction s, a using T.move_induction with
  | blocked s a h => rw [T.settle_blocked h]; exact h
  | moved s a o s' a' h ih => rw [T.settle_move h]; exact ih

/-- Settling a prefix first changes neither the items nor where the run ends. -/
theorem settle_append (s : σ) (a b : List β) :
    T.settle s (a ++ b) =
      ⟨(T.settle s a).items ++ (T.settle (T.settle s a).state ((T.settle s a).rest ++ b)).items,
        (T.settle (T.settle s a).state ((T.settle s a).rest ++ b)).state,
        (T.settle (T.settle s a).state ((T.settle s a).rest ++ b)).rest⟩ := by
  induction s, a using T.move_induction with
  | blocked s a h => simp only [T.settle_blocked h, List.nil_append]
  | moved s a o s' a' h ih =>
      rw [T.settle_move (T.stable h b), ih, T.settle_move h]
      simp only [List.append_assoc]

/-- One poll takes the first item off what settling would emit. -/
theorem settle_poll (s : σ) (a : List β) :
    T.settle s a = ⟨(T.poll s a).1.toList ++ (T.settle (T.poll s a).2.1 (T.poll s a).2.2).items,
      (T.settle (T.poll s a).2.1 (T.poll s a).2.2).state,
      (T.settle (T.poll s a).2.1 (T.poll s a).2.2).rest⟩ := by
  induction s, a using T.move_induction with
  | blocked s a h => simp only [T.poll_blocked h, Option.toList_none, List.nil_append]
  | moved s a o s' a' h ih =>
      cases o with
      | none =>
          rw [T.settle_move h, T.poll_silent h]
          simpa only [Option.toList_none, List.nil_append] using ih
      | some x => rw [T.settle_move h, T.poll_emit h]

/-- A poll may be taken before the rest of the input has arrived. -/
theorem settle_poll_append (s : σ) (a b : List β) :
    T.settle s (a ++ b) =
      ⟨(T.poll s a).1.toList ++ (T.settle (T.poll s a).2.1 ((T.poll s a).2.2 ++ b)).items,
        (T.settle (T.poll s a).2.1 ((T.poll s a).2.2 ++ b)).state,
        (T.settle (T.poll s a).2.1 ((T.poll s a).2.2 ++ b)).rest⟩ := by
  induction s, a using T.move_induction with
  | blocked s a h => simp only [T.poll_blocked h, Option.toList_none, List.nil_append]
  | moved s a o s' a' h ih =>
      cases o with
      | none =>
          rw [T.settle_move (T.stable h b), T.poll_silent h]
          simpa only [Option.toList_none, List.nil_append] using ih
      | some x => rw [T.settle_move (T.stable h b), T.poll_emit h]

/-- A poll without an item leaves the transducer blocked. -/
theorem settle_poll_none {s : σ} {a : List β} (h : (T.poll s a).1 = none) :
    T.settle s a = ⟨[], (T.poll s a).2.1, (T.poll s a).2.2⟩ := by
  induction s, a using T.move_induction with
  | blocked s a hb => simp only [T.settle_blocked hb, T.poll_blocked hb]
  | moved s a o s' a' hm ih =>
      cases o with
      | none =>
          rw [T.poll_silent hm] at h ⊢
          rw [T.settle_move hm, ih h]
          rfl
      | some x =>
          rw [T.poll_emit hm] at h
          cases h

/-- A poll that emits lowers the rank. -/
theorem poll_lower {s : σ} {a : List β} {x : ι} (h : (T.poll s a).1 = some x) :
    T.rank (T.poll s a).2.1 (T.poll s a).2.2 < T.rank s a := by
  induction s, a using T.move_induction with
  | blocked s a hb =>
      rw [T.poll_blocked hb] at h
      cases h
  | moved s a o s' a' hm ih =>
      cases o with
      | none =>
          rw [T.poll_silent hm] at h ⊢
          exact Nat.lt_trans (ih h) (T.lower hm)
      | some y =>
          rw [T.poll_emit hm]
          exact T.lower hm

/-- Chunks are appended to the buffer one at a time, each settled before the next. -/
def feed (s : σ) (a : List β) : List (List β) → Emitted σ β ι
  | [] => ⟨[], s, a⟩
  | chunk :: chunks =>
      let now := T.settle s (a ++ chunk)
      let later := feed now.state now.rest chunks
      ⟨now.items ++ later.items, later.state, later.rest⟩

/-- Feeding any cut of the input is settling the whole input at once. -/
theorem feed_eq_settle {s : σ} {a : List β} (hb : T.move s a = none) (chunks : List (List β)) :
    T.feed s a chunks = T.settle s (a ++ chunks.flatten) := by
  induction chunks generalizing s a with
  | nil => simp only [feed, List.flatten_nil, List.append_nil, T.settle_blocked hb]
  | cons chunk chunks ih =>
      have hnow := T.move_settle s (a ++ chunk)
      simp only [feed, List.flatten_cons, ih hnow]
      rw [← List.append_assoc a chunk, T.settle_append s (a ++ chunk)]

end Transducer

/-- A reader of blocks: the state fixes how many bytes the next block has, and a
block may be empty only if the state then gets lighter. -/
structure BlockReader (σ β ι : Type) where
  need : σ → Nat
  read : σ → List β → Option ι × σ
  weight : σ → Nat
  lighter : ∀ s block, weight (read s block).2 < 2 * need s + weight s

namespace BlockReader
variable {σ β ι : Type} (R : BlockReader σ β ι)

def moves (s : σ) (a : List β) : Option (Option ι × σ × List β) :=
  if a.length < R.need s then none
  else some ((R.read s (a.take (R.need s))).1, (R.read s (a.take (R.need s))).2, a.drop (R.need s))

theorem moves_short {s : σ} {a : List β} (h : a.length < R.need s) : R.moves s a = none :=
  if_pos h

theorem moves_block {s : σ} {a : List β} (h : R.need s ≤ a.length) :
    R.moves s a = some ((R.read s (a.take (R.need s))).1, (R.read s (a.take (R.need s))).2,
      a.drop (R.need s)) := if_neg (Nat.not_lt.mpr h)

theorem moves_some {s s' : σ} {a a' : List β} {o : Option ι} (h : R.moves s a = some (o, s', a')) :
    R.need s ≤ a.length ∧ R.read s (a.take (R.need s)) = (o, s') ∧ a' = a.drop (R.need s) := by
  by_cases short : a.length < R.need s
  · rw [R.moves_short short] at h
    cases h
  · rw [R.moves_block (Nat.not_lt.mp short), Option.some.injEq, Prod.mk.injEq, Prod.mk.injEq] at h
    exact ⟨Nat.not_lt.mp short, Prod.ext h.1 h.2.1, h.2.2.symm⟩

/-- Reading blocks is a transducer. -/
def toTransducer : Transducer σ β ι where
  move := R.moves
  rank s a := 2 * a.length + R.weight s
  stable := by
    intro s a o s' a' h b
    obtain ⟨enough, hread, rfl⟩ := R.moves_some h
    have enough' : R.need s ≤ (a ++ b).length := by rw [List.length_append]; omega
    rw [R.moves_block enough', List.take_append_of_le_length enough,
      List.drop_append_of_le_length enough, hread]
  lower := by
    intro s a o s' a' h
    obtain ⟨enough, hread, rfl⟩ := R.moves_some h
    have light := R.lighter s (a.take (R.need s))
    rw [hread] at light
    simp only [List.length_drop] at light ⊢
    omega

end BlockReader
end Foctet.Lib
