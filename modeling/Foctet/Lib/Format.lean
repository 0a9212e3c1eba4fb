import Mathlib.Algebra.Ring.Nat
import Mathlib.Data.List.Forall2
import Mathlib.Data.Finset.Sort

/-! Formats that tell by themselves where a value ends. A reader takes a value off the front
of its input and gives back the rest, so that formats can be put one behind the other. It may
accept more than what the writer writes: what it accepts as a value are the spellings of it. -/
namespace Foctet.Lib

/-- A writer and a reader. The error `short n` says that `n` more bytes were needed. -/
structure Format (ε : Type) (short : Nat → ε) (α : Type) where
  encode : α → List UInt8
  decode : List UInt8 → Except ε (α × List UInt8)
  /-- the values that can be written -/
  Fits : α → Prop
  decode_encode : ∀ {a}, Fits a → ∀ rest, decode (encode a ++ rest) = .ok (a, rest)
  /-- What is behind the part that was read plays no role. -/
  reads : ∀ {bytes a rest}, decode bytes = .ok (a, rest) →
    ∃ part, bytes = part ++ rest ∧ ∀ more, decode (part ++ more) = .ok (a, more)
  /-- More bytes help only where the reader has asked for them. -/
  refuses : ∀ {bytes e}, decode bytes = .error e →
    (∃ n, e = short n) ∨ ∀ more, decode (bytes ++ more) = .error e

namespace Format
variable {ε : Type} {short : Nat → ε} {α β : Type}

/-- The reader takes `part` for the value, whatever is behind it. -/
def Spells (f : Format ε short α) (a : α) (part : List UInt8) : Prop :=
  ∀ more, f.decode (part ++ more) = .ok (a, more)

section laws
variable {f : Format ε short α} {a : α} {bytes rest part : List UInt8}

theorem spells_encode (fits : f.Fits a) : f.Spells a (f.encode a) := f.decode_encode fits

theorem decode_eq_ok :
    f.decode bytes = .ok (a, rest) ↔ ∃ part, bytes = part ++ rest ∧ f.Spells a part := by
  constructor
  · exact f.reads
  · rintro ⟨part, rfl, spells⟩
    exact spells rest

theorem Spells.decode (spells : f.Spells a part) : f.decode part = .ok (a, []) := by
  have alone := spells []
  rwa [List.append_nil] at alone

/-- No spelling of a value goes on to a spelling of another. -/
theorem Spells.append {b : α} {more : List UInt8} (left : f.Spells a part)
    (right : f.Spells b (part ++ more)) : a = b ∧ more = [] := by
  have ended := right.decode
  rw [left more] at ended
  cases ended
  exact ⟨rfl, rfl⟩

/-- A value that was cut off is refused, and the error says that bytes are missing. -/
theorem Spells.cut {missing : List UInt8} (spells : f.Spells a (part ++ missing))
    (some_missing : missing ≠ []) : ∃ n, f.decode part = .error (short n) := by
  cases read : f.decode part with
  | ok result =>
      obtain ⟨first, rfl, early⟩ := f.reads read
      rw [List.append_assoc] at spells
      exact absurd (List.append_eq_nil_iff.mp (Spells.append early spells).2).2 some_missing
  | error e =>
      rcases f.refuses read with ⟨n, rfl⟩ | always
      · exact ⟨n, rfl⟩
      · have ended := spells.decode
        rw [always missing] at ended
        cases ended

end laws

/-! ### Formats without parts -/

/-- No bytes at all for one value. -/
def const (a : α) : Format ε short α where
  encode _ := []
  decode bytes := .ok (a, bytes)
  Fits b := b = a
  decode_encode := by
    rintro b rfl rest
    rfl
  reads := by
    intro bytes b rest read
    cases read
    exact ⟨[], rfl, fun more => rfl⟩
  refuses := by
    intro bytes e read
    cases read

/-- Nothing is accepted. -/
def fail (e : ε) : Format ε short α where
  encode _ := []
  decode _ := .error e
  Fits _ := False
  decode_encode := False.elim
  reads := by
    intro bytes a rest read
    cases read
  refuses := by
    intro bytes e' read
    exact .inr fun more => read

/-- A number of bytes. What is reported of an input with fewer depends on whether they are
read at once or one by one. -/
def fixed (k : Nat) (lacks : Nat → Nat) : Format ε short { l : List UInt8 // l.length = k } where
  encode l := l
  decode bytes :=
    if enough : k ≤ bytes.length then
      .ok (⟨bytes.take k, List.length_take_of_le enough⟩, bytes.drop k)
    else .error (short (lacks bytes.length))
  Fits _ := True
  decode_encode := by
    rintro ⟨l, rfl⟩ - rest
    rw [dif_pos (by simp)]
    simp only [List.take_left, List.drop_left]
  reads := by
    intro bytes l rest read
    split at read
    case isTrue enough =>
        cases read
        refine ⟨bytes.take k, (List.take_append_drop k bytes).symm, fun more => ?_⟩
        have length := List.length_take_of_le enough
        rw [dif_pos (by simp [length])]
        simp only [List.take_left' length, List.drop_left' length]
    case isFalse => cases read
  refuses := by
    intro bytes e read
    split at read
    case isTrue => cases read
    case isFalse =>
        cases read
        exact .inl ⟨_, rfl⟩

/-- One byte. -/
def byte : Format ε short UInt8 where
  encode b := [b]
  decode
    | [] => .error (short 1)
    | b :: rest => .ok (b, rest)
  Fits _ := True
  decode_encode _ _ := rfl
  reads := by
    intro bytes b rest read
    cases bytes with
    | nil => cases read
    | cons c bytes =>
        cases read
        exact ⟨[b], rfl, fun more => rfl⟩
  refuses := by
    intro bytes e read
    cases bytes with
    | nil =>
        cases read
        exact .inl ⟨1, rfl⟩
    | cons c bytes => cases read

theorem const_spells {a b : α} {part : List UInt8} :
    (const a : Format ε short α).Spells b part ↔ b = a ∧ part = [] := by
  constructor
  · intro spells
    cases spells.decode
    exact ⟨rfl, rfl⟩
  · rintro ⟨rfl, rfl⟩ more
    rfl

theorem not_fail_spells {e : ε} {a : α} {part : List UInt8} :
    ¬ (fail e : Format ε short α).Spells a part := by
  intro spells
  cases spells.decode

theorem fixed_spells {k : Nat} {lacks : Nat → Nat} {l : { l : List UInt8 // l.length = k }}
    {part : List UInt8} :
    (fixed k lacks : Format ε short _).Spells l part ↔ part = l.1 := by
  constructor
  · intro spells
    have read := spells.decode
    simp only [fixed] at read
    split at read
    case isTrue enough =>
        have parts := Prod.mk.inj (Except.ok.inj read)
        have whole := List.take_append_drop k part
        rw [parts.2, List.append_nil] at whole
        rw [← parts.1]
        exact whole.symm
    case isFalse => cases read
  · rintro rfl
    exact spells_encode (f := fixed k lacks) trivial

theorem byte_spells {b : UInt8} {part : List UInt8} :
    (byte : Format ε short UInt8).Spells b part ↔ part = [b] := by
  constructor
  · intro spells
    cases part with
    | nil => cases spells.decode
    | cons c part =>
        cases spells.decode
        rfl
  · rintro rfl more
    rfl

/-! ### Formats with parts -/

/-- A first part that decides how the rest is written. -/
def dependent (f : Format ε short β) (g : β → Format ε short α) (key : α → β) :
    Format ε short α where
  encode a := f.encode (key a) ++ (g (key a)).encode a
  decode bytes :=
    match f.decode bytes with
    | .ok (b, rest) => (g b).decode rest
    | .error e => .error e
  Fits a := f.Fits (key a) ∧ (g (key a)).Fits a
  decode_encode := by
    intro a fits rest
    rw [List.append_assoc, f.decode_encode fits.1]
    exact (g (key a)).decode_encode fits.2 rest
  reads := by
    intro bytes a rest read
    split at read
    case h_1 b behind first =>
        obtain ⟨u, rfl, before⟩ := f.reads first
        obtain ⟨v, rfl, after⟩ := (g b).reads read
        refine ⟨u ++ v, (List.append_assoc u v rest).symm, fun more => ?_⟩
        rw [List.append_assoc, before]
        exact after more
    case h_2 => cases read
  refuses := by
    intro bytes e read
    split at read
    case h_1 b behind first =>
        obtain ⟨u, rfl, before⟩ := f.reads first
        refine ((g b).refuses read).imp_right fun always more => ?_
        rw [List.append_assoc, before]
        exact always more
    case h_2 e' first =>
        cases read
        refine (f.refuses first).imp_right fun always more => ?_
        rw [always]

/-- Values of another type, where what was read is checked. -/
def refine (f : Format ε short α) (check : α → Except ε β) (back : β → Option α) :
    Format ε short β where
  encode b := (back b).elim [] f.encode
  decode bytes :=
    match f.decode bytes with
    | .ok (a, rest) => (check a).map (·, rest)
    | .error e => .error e
  Fits b := ∃ a, back b = some a ∧ f.Fits a ∧ check a = .ok b
  decode_encode := by
    rintro b ⟨a, written, fits, checked⟩ rest
    rw [written, Option.elim_some, f.decode_encode fits]
    dsimp only
    rw [checked]
    rfl
  reads := by
    intro bytes b rest read
    split at read
    case h_1 a behind first =>
        obtain ⟨u, rfl, before⟩ := f.reads first
        cases checked : check a with
        | ok b' =>
            rw [checked] at read
            cases read
            refine ⟨u, rfl, fun more => ?_⟩
            rw [before]
            dsimp only
            rw [checked]
            rfl
        | error e =>
            rw [checked] at read
            cases read
    case h_2 => cases read
  refuses := by
    intro bytes e read
    split at read
    case h_1 a behind first =>
        obtain ⟨u, rfl, before⟩ := f.reads first
        refine .inr fun more => ?_
        rw [List.append_assoc, before]
        dsimp only
        cases checked : check a with
        | ok b' =>
            rw [checked] at read
            cases read
        | error e' =>
            rw [checked] at read
            cases read
            rfl
    case h_2 e' first =>
        cases read
        refine (f.refuses first).imp_right fun always more => ?_
        rw [always]

section parts
variable {f : Format ε short β} {g : β → Format ε short α} {key : α → β} {a : α} {b : β}
  {part : List UInt8}

theorem dependent_spells : (dependent f g key).Spells a part ↔
    ∃ b u v, part = u ++ v ∧ f.Spells b u ∧ (g b).Spells a v := by
  constructor
  · intro spells
    have read := spells.decode
    simp only [dependent] at read
    split at read
    case h_1 b behind first =>
        obtain ⟨u, rfl, before⟩ := f.reads first
        obtain ⟨v, rfl, after⟩ := (g b).reads read
        exact ⟨b, u, v, by rw [List.append_nil], before, after⟩
    case h_2 => cases read
  · rintro ⟨b, u, v, rfl, before, after⟩ more
    simp only [dependent]
    rw [List.append_assoc, before]
    exact after more

theorem refine_spells {check : β → Except ε α} {back : α → Option β} :
    (f.refine check back).Spells a part ↔ ∃ b, f.Spells b part ∧ check b = .ok a := by
  constructor
  · intro spells
    have read := spells.decode
    simp only [refine] at read
    split at read
    case h_1 b behind first =>
        obtain ⟨u, rfl, before⟩ := f.reads first
        cases checked : check b with
        | ok a' =>
            rw [checked] at read
            cases read
            refine ⟨b, ?_, checked⟩
            rw [List.append_nil]
            exact before
        | error e =>
            rw [checked] at read
            cases read
    case h_2 => cases read
  · rintro ⟨b, before, checked⟩ more
    simp only [refine]
    rw [before]
    dsimp only
    rw [checked]
    rfl

end parts

/-- Values of another type, where nothing can go wrong. -/
def map (f : Format ε short α) (wrap : α → β) (unwrap : β → α) : Format ε short β :=
  f.refine (fun a => .ok (wrap a)) (fun b => some (unwrap b))

theorem map_fits {f : Format ε short α} {wrap : α → β} {unwrap : β → α} {b : β} :
    (f.map wrap unwrap).Fits b ↔ f.Fits (unwrap b) ∧ wrap (unwrap b) = b := by
  simp only [map, refine, Option.some.injEq, Except.ok.injEq, exists_eq_left']

theorem map_spells {f : Format ε short α} {wrap : α → β} {unwrap : β → α} {b : β}
    {part : List UInt8} :
    (f.map wrap unwrap).Spells b part ↔ ∃ a, f.Spells a part ∧ wrap a = b := by
  simp only [map, refine_spells, Except.ok.injEq]

/-- Two values, one behind the other. -/
def pair (f : Format ε short α) (g : Format ε short β) : Format ε short (α × β) :=
  dependent f (fun a => g.map (a, ·) Prod.snd) Prod.fst

theorem pair_fits {f : Format ε short α} {g : Format ε short β} {p : α × β} :
    (pair f g).Fits p ↔ f.Fits p.1 ∧ g.Fits p.2 := by
  simp only [pair, dependent, map_fits, and_true]

theorem pair_spells {f : Format ε short α} {g : Format ε short β} {p : α × β} {part : List UInt8} :
    (pair f g).Spells p part ↔ ∃ u v, part = u ++ v ∧ f.Spells p.1 u ∧ g.Spells p.2 v := by
  simp only [pair, dependent_spells, map_spells]
  constructor
  · rintro ⟨a, u, v, rfl, before, b, after, rfl⟩
    exact ⟨u, v, rfl, before, after⟩
  · rintro ⟨u, v, rfl, before, after⟩
    exact ⟨p.1, u, v, rfl, before, p.2, after, rfl⟩

/-- A given number of values. -/
def times (f : Format ε short α) : Nat → Format ε short (List α)
  | 0 => const []
  | n + 1 => (pair f (times f n)).refine (fun p => .ok (p.1 :: p.2)) fun
    | [] => none
    | a :: l => some (a, l)

theorem times_fits {f : Format ε short α} {n : Nat} {l : List α} :
    (times f n).Fits l ↔ l.length = n ∧ ∀ a ∈ l, f.Fits a := by
  induction n generalizing l with
  | zero =>
      cases l with
      | nil => simp [times, const]
      | cons a l => simp [times, const]
  | succ n ih =>
      cases l with
      | nil => simp [times, refine]
      | cons a l =>
          simp only [times, refine, Option.some.injEq, exists_eq_left', and_true, pair_fits, ih,
            List.length_cons, Nat.succ.injEq, List.forall_mem_cons]
          exact and_left_comm

theorem times_spells {f : Format ε short α} {n : Nat} {l : List α} {part : List UInt8} :
    (times f n).Spells l part ↔
      l.length = n ∧ ∃ parts, part = parts.flatten ∧ List.Forall₂ f.Spells l parts := by
  induction n generalizing l part with
  | zero =>
      rw [times, const_spells]
      constructor
      · rintro ⟨rfl, rfl⟩
        exact ⟨rfl, [], rfl, .nil⟩
      · rintro ⟨length, parts, rfl, each⟩
        cases List.length_eq_zero_iff.mp length
        cases each
        exact ⟨rfl, rfl⟩
  | succ n ih =>
      simp only [times, refine_spells, pair_spells, ih, Except.ok.injEq]
      constructor
      · rintro ⟨⟨a, l⟩, ⟨u, v, rfl, first, rfl, parts, rfl, each⟩, rfl⟩
        exact ⟨rfl, u :: parts, rfl, .cons first each⟩
      · rintro ⟨length, parts, rfl, each⟩
        cases each with
        | nil => cases length
        | @cons a u l parts first each =>
            exact ⟨(a, l), ⟨u, parts.flatten, rfl, first, Nat.succ.inj length, parts, rfl, each⟩,
              rfl⟩

/-- A list behind its length. -/
def counted (count : Format ε short Nat) (f : Format ε short α) : Format ε short (List α) :=
  dependent count (times f) List.length

theorem counted_fits {count : Format ε short Nat} {f : Format ε short α} {l : List α} :
    (counted count f).Fits l ↔ count.Fits l.length ∧ ∀ a ∈ l, f.Fits a := by
  simp only [counted, dependent, times_fits, true_and]

theorem counted_spells {count : Format ε short Nat} {f : Format ε short α} {l : List α}
    {part : List UInt8} :
    (counted count f).Spells l part ↔ ∃ u parts, part = u ++ parts.flatten ∧
      count.Spells l.length u ∧ List.Forall₂ f.Spells l parts := by
  simp only [counted, dependent_spells, times_spells]
  constructor
  · rintro ⟨n, u, v, rfl, before, rfl, parts, rfl, each⟩
    exact ⟨u, parts, rfl, before, each⟩
  · rintro ⟨u, parts, rfl, before, each⟩
    exact ⟨l.length, u, parts.flatten, rfl, before, rfl, parts, rfl, each⟩

/-- The members of a set in order. -/
def inOrder [LinearOrder α] (s : Finset α) : List α := s.sort

/-- A set as the list of its members in order. The reader inserts what it finds. -/
def ordered [LinearOrder α] (f : Format ε short (List α)) : Format ε short (Finset α) :=
  f.map List.toFinset inOrder

theorem ordered_spells [LinearOrder α] {f : Format ε short (List α)} {s : Finset α}
    {part : List UInt8} :
    f.ordered.Spells s part ↔ ∃ l, f.Spells l part ∧ l.toFinset = s := map_spells

theorem ordered_fits [LinearOrder α] {f : Format ε short (List α)} {s : Finset α} :
    f.ordered.Fits s ↔ f.Fits (inOrder s) := by
  simp only [ordered, map_fits, inOrder, Finset.sort_toFinset, and_true]

end Format

/-! ### What a crate that writes values provides -/

/-- The formats a crate has for the parts of records, and what is relied on: an array is its
bytes, the fields of a record stand one behind the other, an option is told by what it begins
with, and a sequence stands behind its length, which can be any machine word. -/
structure Serializer where
  Error : Type
  /-- so many more bytes were needed -/
  short : Nat → Error
  usize : Format Error short Nat
  array (k : Nat) : Format Error short { l : List UInt8 // l.length = k }
  pair {α β : Type} : Format Error short α → Format Error short β → Format Error short (α × β)
  option {α : Type} : Format Error short α → Format Error short (Option α)
  sequence {α : Type} : Format Error short α → Format Error short (List α)
  absent : List UInt8
  present : List UInt8
  usize_fits : ∀ n, n < 2 ^ 64 → usize.Fits n
  array_fits : ∀ {k} l, (array k).Fits l
  array_spells : ∀ {k l part}, (array k).Spells l part ↔ part = l.1
  pair_fits : ∀ {α β} {f : Format Error short α} {g : Format Error short β} {p},
    f.Fits p.1 → g.Fits p.2 → (pair f g).Fits p
  pair_spells : ∀ {α β} {f : Format Error short α} {g : Format Error short β} {p part},
    (pair f g).Spells p part ↔ ∃ u v, part = u ++ v ∧ f.Spells p.1 u ∧ g.Spells p.2 v
  option_fits : ∀ {α} {f : Format Error short α} {o}, (∀ a ∈ o, f.Fits a) → (option f).Fits o
  none_spells : ∀ {α} {f : Format Error short α} {part},
    (option f).Spells none part ↔ part = absent
  some_spells : ∀ {α} {f : Format Error short α} {a part},
    (option f).Spells (some a) part ↔ ∃ rest, part = present ++ rest ∧ f.Spells a rest
  sequence_fits : ∀ {α} {f : Format Error short α} {l},
    usize.Fits l.length → (∀ a ∈ l, f.Fits a) → (sequence f).Fits l
  sequence_spells : ∀ {α} {f : Format Error short α} {l part},
    (sequence f).Spells l part ↔ ∃ count parts, part = count ++ parts.flatten ∧
      usize.Spells l.length count ∧ List.Forall₂ f.Spells l parts

end Foctet.Lib
