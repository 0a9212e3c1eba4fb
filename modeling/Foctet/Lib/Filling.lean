import Mathlib.Data.List.Infix

/-! Pouring chunks into a file until it has an exact length. The length is compared after
each chunk, so a chunk that goes past it is not noticed; and what a write returns need not
say how the disk has fared with it. -/
namespace Foctet.Lib

variable {β : Type}

/-- The writes of these chunks, one after another, have all returned without an error. -/
def Taken (takes : List (List β) → List β → Bool) (given : List (List β)) : Prop :=
  ∀ before chunk, before ++ [chunk] <+: given → takes before chunk = true

/-- What a disk does for one file, by the chunks it was given. An error may come late, with
another write or with the flush. Until a flush has succeeded, all that is known of the file is
that it has first bytes of what was given. -/
structure Disk (β : Type) where
  creates : Bool
  /-- whether `write_all` of a chunk succeeds after these others -/
  takes : List (List β) → List β → Bool
  flushes : List (List β) → Bool
  /-- what the file comes to hold -/
  content : List (List β) → List β
  begins : ∀ given, content given <+: given.flatten
  flushed : ∀ given, Taken takes given → flushes given = true → content given = given.flatten

namespace Disk

/-- A disk on which nothing fails. -/
def working : Disk β where
  creates := true
  takes _ _ := true
  flushes _ := true
  content := List.flatten
  begins _ := List.prefix_rfl
  flushed _ _ _ := rfl

@[simp] theorem working_takes (given : List (List β)) (chunk : List β) :
    working.takes given chunk = true := rfl

@[simp] theorem working_flushes (given : List (List β)) : working.flushes given = true := rfl

@[simp] theorem working_content (given : List (List β)) : working.content given = given.flatten := rfl

/-- A disk with room for some bytes only. A write that goes past them returns before it was
made, and the error comes with the next call, as it does from `tokio::fs::File`. -/
def room (r : Nat) : Disk β where
  creates := true
  takes given _ := given.flatten.length ≤ r
  flushes given := given.flatten.length ≤ r
  content given := given.flatten.take r
  begins _ := List.take_prefix r _
  flushed _ _ fits := List.take_of_length_le (of_decide_eq_true fits)

structure Works (disk : Disk β) : Prop where
  creates : disk.creates = true
  takes : ∀ given chunk, disk.takes given chunk = true
  flushes : ∀ given, disk.flushes given = true

variable {disk : Disk β}

theorem Works.content (works : disk.Works) (given : List (List β)) :
    disk.content given = given.flatten :=
  disk.flushed given (fun before chunk _ => works.takes before chunk) (works.flushes given)

theorem content_length_le (disk : Disk β) (given : List (List β)) :
    (disk.content given).length ≤ given.flatten.length := (disk.begins given).length_le

end Disk

/-- The chunks come to an exact length at the end of one of them. -/
def Hits (len : Nat) (file : List β) (chunks : List (List β)) : Prop :=
  ∃ q, q ≠ [] ∧ q <+: chunks ∧ (file ++ q.flatten).length = len

/-- They go past it without coming to it. -/
def Overruns (len : Nat) (chunks : List (List β)) : Prop :=
  len < chunks.flatten.length ∧ ¬ Hits len [] chunks

inductive Fill where
  | full
  | broken
  | short
  deriving DecidableEq, Repr

/-- How the filling ended, the chunks that were given to the disk, and those that were not. -/
structure Filled (β : Type) where
  outcome : Fill
  given : List (List β)
  rest : List (List β)

/-- Gives chunks to the disk until they have the length, a write fails, or none is left. -/
def fill (disk : Disk β) (len : Nat) : List (List β) → List (List β) → Filled β
  | given, [] => ⟨.short, given, []⟩
  | given, chunk :: chunks =>
      if disk.takes given chunk then
        if (given ++ [chunk]).flatten.length = len then ⟨.full, given ++ [chunk], chunks⟩
        else fill disk len (given ++ [chunk]) chunks
      else ⟨.broken, given ++ [chunk], chunks⟩

theorem not_hits_nil (len : Nat) (file : List β) : ¬ Hits len file [] := by
  rintro ⟨q, some_chunk, begins, -⟩
  exact some_chunk (List.prefix_nil.mp begins)

theorem hits_cons {len : Nat} {file chunk : List β} {chunks : List (List β)} :
    Hits len file (chunk :: chunks) ↔
      (file ++ chunk).length = len ∨ Hits len (file ++ chunk) chunks := by
  constructor
  · rintro ⟨q, some_chunk, begins, length⟩
    obtain ⟨d, q, rfl⟩ := List.exists_cons_of_ne_nil some_chunk
    obtain ⟨rfl, later⟩ := List.cons_prefix_cons.mp begins
    rw [List.flatten_cons, ← List.append_assoc] at length
    by_cases last : q = []
    · subst last
      exact .inl (by simpa using length)
    · exact .inr ⟨q, last, later, length⟩
  · rintro (length | ⟨q, -, begins, length⟩)
    · exact ⟨[chunk], nofun, List.prefix_append [chunk] chunks, by simpa using length⟩
    · refine ⟨chunk :: q, nofun, List.cons_prefix_cons.mpr ⟨rfl, begins⟩, ?_⟩
      rwa [List.flatten_cons, ← List.append_assoc]

theorem Hits.length_le {len : Nat} {file : List β} {chunks : List (List β)}
    (hits : Hits len file chunks) : file.length ≤ len := by
  obtain ⟨q, -, -, rfl⟩ := hits
  rw [List.length_append]
  omega

theorem taken_nil (takes : List (List β) → List β → Bool) : Taken takes [] := by
  intro before chunk begins
  exact absurd (List.prefix_nil.mp begins) (List.append_ne_nil_of_right_ne_nil _ (List.cons_ne_nil _ _))

theorem Taken.concat {takes : List (List β) → List β → Bool} {given : List (List β)} {chunk : List β}
    (taken : Taken takes given) (last : takes given chunk = true) : Taken takes (given ++ [chunk]) := by
  intro before chunk' begins
  rcases List.prefix_concat_iff.mp begins with same | earlier
  · obtain ⟨rfl, last_eq⟩ := List.append_inj' same rfl
    cases last_eq
    exact last
  · exact taken before chunk' earlier

/-- What is known about a filling by how it ended. -/
structure Filled.Accounts (disk : Disk β) (len : Nat) (given chunks : List (List β)) (f : Filled β) :
    Prop where
  parts : f.given ++ f.rest = given ++ chunks
  onward : given <+: f.given
  full : f.outcome = .full → f.given ≠ given ∧ f.given.flatten.length = len
  taken : f.outcome ≠ .broken → Taken disk.takes given → Taken disk.takes f.given
  broken : f.outcome = .broken → ¬ Taken disk.takes f.given
  short : f.outcome = .short → f.rest = [] ∧ ¬ Hits len given.flatten chunks
  within : Hits len given.flatten chunks → f.given.flatten.length ≤ len

section step
variable {disk : Disk β} {len : Nat} {given chunks : List (List β)} {chunk : List β} {f : Filled β}

theorem flatten_concat (given : List (List β)) (chunk : List β) :
    (given ++ [chunk]).flatten = given.flatten ++ chunk := by
  rw [List.flatten_append, List.flatten_singleton]

theorem Filled.Accounts.of_nil : Filled.Accounts disk len given [] ⟨.short, given, []⟩ where
  parts := rfl
  onward := List.prefix_rfl
  full := nofun
  taken _ taken := taken
  broken := nofun
  short _ := ⟨rfl, not_hits_nil len _⟩
  within hits := absurd hits (not_hits_nil len _)

theorem Filled.Accounts.of_refused (refused : disk.takes given chunk = false) :
    Filled.Accounts disk len given (chunk :: chunks) ⟨.broken, given ++ [chunk], chunks⟩ where
  parts := List.append_assoc given [chunk] chunks
  onward := List.prefix_append given [chunk]
  full := nofun
  taken other := absurd rfl other
  broken _ taken := by
    have accepted := taken given chunk List.prefix_rfl
    rw [refused] at accepted
    cases accepted
  short := nofun
  within hits := by
    rw [flatten_concat]
    rcases hits_cons.mp hits with length | later
    · exact Nat.le_of_eq length
    · exact later.length_le

theorem Filled.Accounts.of_full (accepted : disk.takes given chunk = true)
    (length : (given ++ [chunk]).flatten.length = len) :
    Filled.Accounts disk len given (chunk :: chunks) ⟨.full, given ++ [chunk], chunks⟩ where
  parts := List.append_assoc given [chunk] chunks
  onward := List.prefix_append given [chunk]
  full _ := ⟨by simp, length⟩
  taken _ taken := taken.concat accepted
  broken := nofun
  short := nofun
  within _ := Nat.le_of_eq length

/-- A chunk that was written without reaching the length counts with those after it. -/
theorem Filled.Accounts.cons (later : f.Accounts disk len (given ++ [chunk]) chunks)
    (accepted : disk.takes given chunk = true) (other : (given ++ [chunk]).flatten.length ≠ len) :
    f.Accounts disk len given (chunk :: chunks) := by
  have hits_iff : Hits len given.flatten (chunk :: chunks) ↔
      Hits len (given ++ [chunk]).flatten chunks := by
    rw [flatten_concat] at other ⊢
    exact hits_cons.trans (or_iff_right other)
  constructor
  case parts => rw [later.parts, List.append_assoc, List.singleton_append]
  case onward => exact (List.prefix_append given [chunk]).trans later.onward
  case full =>
      intro full
      refine ⟨?_, (later.full full).2⟩
      intro same
      have longer := later.onward.length_le
      rw [same, List.length_append, List.length_singleton] at longer
      omega
  case taken => exact fun other taken => later.taken other (taken.concat accepted)
  case broken => exact later.broken
  case short => rw [hits_iff]; exact later.short
  case within => rw [hits_iff]; exact later.within

theorem fill_accounts (disk : Disk β) (len : Nat) (given chunks : List (List β)) :
    (fill disk len given chunks).Accounts disk len given chunks := by
  induction chunks generalizing given with
  | nil => exact .of_nil
  | cons chunk chunks ih =>
      rw [fill]
      cases accepted : disk.takes given chunk with
      | false => exact .of_refused accepted
      | true =>
          rw [if_pos rfl]
          split
          case isTrue length => exact .of_full accepted length
          case isFalse other => exact (ih (given ++ [chunk])).cons accepted other

end step

section whole
variable {disk : Disk β} {len : Nat} {chunks : List (List β)} {f : Filled β}
  (accounts : f.Accounts disk len [] chunks)
include accounts

theorem Filled.Accounts.initial : f.given <+: chunks := ⟨f.rest, accounts.parts⟩

theorem Filled.Accounts.hits (full : f.outcome = .full) : Hits len [] chunks :=
  ⟨f.given, (accounts.full full).1, accounts.initial, (accounts.full full).2⟩

theorem Filled.Accounts.all (short : f.outcome = .short) : f.given = chunks := by
  have parts := accounts.parts
  rwa [(accounts.short short).1, List.append_nil, List.nil_append] at parts

/-- Chunks that do not overrun the length are not given past it. -/
theorem Filled.Accounts.length_le (within : ¬ Overruns len chunks) :
    f.given.flatten.length ≤ len := by
  by_cases hits : Hits len [] chunks
  · exact accounts.within hits
  · have total : chunks.flatten.length ≤ len := by
      by_contra past
      exact within ⟨Nat.not_le.mp past, hits⟩
    exact Nat.le_trans accounts.initial.flatten.length_le total

/-- And neither is more than the length in the file. -/
theorem Filled.Accounts.content_length_le (within : ¬ Overruns len chunks) :
    (disk.content f.given).length ≤ len :=
  Nat.le_trans (disk.content_length_le f.given) (accounts.length_le within)

/-- Too few bytes do not fill the file. -/
theorem Filled.Accounts.not_full (less : chunks.flatten.length < len) : f.outcome ≠ .full := by
  intro full
  have enough := accounts.initial.flatten.length_le
  rw [(accounts.full full).2] at enough
  omega

theorem Filled.Accounts.flushed (ended : f.outcome ≠ .broken) (flushes : disk.flushes f.given = true) :
    disk.content f.given = f.given.flatten :=
  disk.flushed f.given (accounts.taken ended (taken_nil _)) flushes

theorem Filled.Accounts.not_broken (works : disk.Works) : f.outcome ≠ .broken :=
  fun broken => accounts.broken broken fun before chunk _ => works.takes before chunk

/-- Where the disk works, a file that was filled stays within the length only if the chunks do
not overrun it. -/
theorem Filled.Accounts.not_overruns (works : disk.Works) (bounded : f.given.flatten.length ≤ len) :
    ¬ Overruns len chunks := by
  intro past
  cases outcome : f.outcome with
  | full => exact past.2 (accounts.hits outcome)
  | broken => exact accounts.not_broken works outcome
  | short =>
      rw [accounts.all outcome] at bounded
      exact Nat.not_lt.mpr bounded past.1

end whole

end Foctet.Lib
