import Foctet.Lib.Bincode
import Foctet.Core.Addr
import Foctet.Core.Uuid

/-! Tickets, which name a content and the node that has it, and the addresses in them, which are
passed on as text. Their bytes are those of a crate that writes the fields in order. -/
namespace Foctet.Core
open Foctet.Lib

structure RelayAddr (A : Type) where
  nodeId : NodeId
  addresses : Finset A

/-- A node address with all its fields. -/
structure FullNodeAddr (A : Type) where
  nodeId : NodeId
  addresses : Finset A
  relayAddr : Option (RelayAddr A)

abbrev ContentId := UuidV4

structure TransferTicket (A : Type) where
  nodeAddr : FullNodeAddr A
  contentId : ContentId

/-- The crates for text and for bytes, with the texts of the errors of the latter. -/
structure SerialCrates extends TextCrates, Serializer where
  text : Error → String

/-! ### The bytes of the records -/

namespace Serial
variable {A : Type} [LinearOrder A] (C : SerialCrates) (S : Format C.Error C.short A)

/-- The bytes of the key, which are not asked to be a key. -/
def nodeId : Format C.Error C.short NodeId :=
  (C.array 32).map (fun l => ⟨l.1, l.2⟩) (fun k => ⟨k.publicKey, k.length⟩)

def contentId : Format C.Error C.short ContentId :=
  (C.array UUID_V4_BYTES_LEN).map (fun l => ⟨l.1, l.2⟩) (fun u => ⟨u.id, u.length⟩)

def addresses : Format C.Error C.short (Finset A) := (C.sequence S).ordered

def relayAddr : Format C.Error C.short (RelayAddr A) :=
  (C.pair (nodeId C) (addresses C S)).map (fun p => ⟨p.1, p.2⟩) (fun r => (r.nodeId, r.addresses))

def nodeAddr : Format C.Error C.short (FullNodeAddr A) :=
  (C.pair (nodeId C) (C.pair (addresses C S) (C.option (relayAddr C S)))).map
    (fun p => ⟨p.1, p.2.1, p.2.2⟩) (fun n => (n.nodeId, n.addresses, n.relayAddr))

def transferTicket : Format C.Error C.short (TransferTicket A) :=
  (C.pair (nodeAddr C S) (contentId C)).map (fun p => ⟨p.1, p.2⟩)
    (fun t => (t.nodeAddr, t.contentId))

/-! ### What can be written, and what is read -/

/-- The ways to write a set of addresses: its members in any order, some of them more than
once, behind their number. -/
def SpellsSet (set : Finset A) (part : List UInt8) : Prop :=
  ∃ l count parts, part = count ++ parts.flatten ∧ l.toFinset = set ∧
    C.usize.Spells l.length count ∧ List.Forall₂ S.Spells l parts

/-- The ways to write a relay. -/
def SpellsRelay (r : RelayAddr A) (part : List UInt8) : Prop :=
  ∃ others, part = r.nodeId.publicKey ++ others ∧ SpellsSet C S r.addresses others

/-- The ways to write a relay that may be missing. -/
def SpellsOption : Option (RelayAddr A) → List UInt8 → Prop
  | none, part => part = C.absent
  | some r, part => ∃ behind, part = C.present ++ behind ∧ SpellsRelay C S r behind

/-- The ways to write a node address. -/
def SpellsNode (n : FullNodeAddr A) (part : List UInt8) : Prop :=
  ∃ direct relay, part = n.nodeId.publicKey ++ (direct ++ relay) ∧
    SpellsSet C S n.addresses direct ∧ SpellsOption C S n.relayAddr relay

/-- The ways to write a ticket. -/
def SpellsTicket (t : TransferTicket A) (part : List UInt8) : Prop :=
  ∃ node, part = node ++ t.contentId.id ∧ SpellsNode C S t.nodeAddr node

/-- What is asked of a set for it to be written: each address can be, and a machine word can
count them. -/
def FitsSet (set : Finset A) : Prop := set.card < 2 ^ 64 ∧ ∀ a ∈ set, S.Fits a

variable {C} {S} {part : List UInt8}

theorem nodeId_spells {k : NodeId} : (nodeId C).Spells k part ↔ part = k.publicKey := by
  simp only [nodeId, Format.map_spells, C.array_spells]
  constructor
  · rintro ⟨l, rfl, rfl⟩
    rfl
  · rintro rfl
    exact ⟨⟨k.publicKey, k.length⟩, rfl, rfl⟩

theorem contentId_spells {u : ContentId} : (contentId C).Spells u part ↔ part = u.id := by
  simp only [contentId, Format.map_spells, C.array_spells]
  constructor
  · rintro ⟨l, rfl, rfl⟩
    rfl
  · rintro rfl
    exact ⟨⟨u.id, u.length⟩, rfl, rfl⟩

theorem addresses_spells {set : Finset A} :
    (addresses C S).Spells set part ↔ SpellsSet C S set part := by
  simp only [addresses, Format.ordered_spells, C.sequence_spells, SpellsSet]
  constructor
  · rintro ⟨l, ⟨count, parts, rfl, number, each⟩, rfl⟩
    exact ⟨l, count, parts, rfl, rfl, number, each⟩
  · rintro ⟨l, count, parts, rfl, rfl, number, each⟩
    exact ⟨l, ⟨count, parts, rfl, number, each⟩, rfl⟩

theorem relayAddr_spells {r : RelayAddr A} :
    (relayAddr C S).Spells r part ↔ SpellsRelay C S r part := by
  simp only [relayAddr, Format.map_spells, C.pair_spells, nodeId_spells, addresses_spells,
    SpellsRelay]
  constructor
  · rintro ⟨⟨id, set⟩, ⟨u, others, rfl, rfl, spells⟩, rfl⟩
    exact ⟨others, rfl, spells⟩
  · rintro ⟨others, rfl, spells⟩
    exact ⟨(r.nodeId, r.addresses), ⟨_, others, rfl, rfl, spells⟩, rfl⟩

theorem option_spells {o : Option (RelayAddr A)} :
    (C.option (relayAddr C S)).Spells o part ↔ SpellsOption C S o part := by
  cases o with
  | none => exact C.none_spells
  | some r => simp only [C.some_spells, relayAddr_spells, SpellsOption]

theorem nodeAddr_spells {n : FullNodeAddr A} :
    (nodeAddr C S).Spells n part ↔ SpellsNode C S n part := by
  simp only [nodeAddr, Format.map_spells, C.pair_spells, nodeId_spells, addresses_spells,
    option_spells, SpellsNode]
  constructor
  · rintro ⟨⟨id, set, o⟩, ⟨u, v, rfl, rfl, direct, relay, rfl, first, second⟩, rfl⟩
    exact ⟨direct, relay, rfl, first, second⟩
  · rintro ⟨direct, relay, rfl, first, second⟩
    exact ⟨(n.nodeId, n.addresses, n.relayAddr),
      ⟨_, _, rfl, rfl, direct, relay, rfl, first, second⟩, rfl⟩

theorem transferTicket_spells {t : TransferTicket A} :
    (transferTicket C S).Spells t part ↔ SpellsTicket C S t part := by
  simp only [transferTicket, Format.map_spells, C.pair_spells, nodeAddr_spells, contentId_spells,
    SpellsTicket]
  constructor
  · rintro ⟨⟨n, id⟩, ⟨node, v, rfl, spells, rfl⟩, rfl⟩
    exact ⟨node, rfl, spells⟩
  · rintro ⟨node, rfl, spells⟩
    exact ⟨(t.nodeAddr, t.contentId), ⟨node, _, rfl, spells, rfl⟩, rfl⟩

theorem nodeId_fits (k : NodeId) : (nodeId C).Fits k := Format.map_fits.mpr ⟨C.array_fits _, rfl⟩

theorem contentId_fits (u : ContentId) : (contentId C).Fits u :=
  Format.map_fits.mpr ⟨C.array_fits _, rfl⟩

theorem addresses_fits {set : Finset A} (fits : FitsSet C S set) : (addresses C S).Fits set := by
  refine Format.ordered_fits.mpr (C.sequence_fits (C.usize_fits _ ?_) ?_)
  · rw [Format.inOrder, Finset.length_sort]
    exact fits.1
  · intro a member
    exact fits.2 a ((Finset.mem_sort _).mp member)

theorem relayAddr_fits {r : RelayAddr A} (fits : FitsSet C S r.addresses) :
    (relayAddr C S).Fits r :=
  Format.map_fits.mpr ⟨C.pair_fits (nodeId_fits _) (addresses_fits fits), rfl⟩

theorem nodeAddr_fits {n : FullNodeAddr A} (direct : FitsSet C S n.addresses)
    (relay : ∀ r ∈ n.relayAddr, FitsSet C S r.addresses) : (nodeAddr C S).Fits n := by
  have others : (C.option (relayAddr C S)).Fits n.relayAddr :=
    C.option_fits fun r given => relayAddr_fits (relay r given)
  exact Format.map_fits.mpr
    ⟨C.pair_fits (nodeId_fits _) (C.pair_fits (addresses_fits direct) others), rfl⟩

theorem transferTicket_fits {t : TransferTicket A} (node : (nodeAddr C S).Fits t.nodeAddr) :
    (transferTicket C S).Fits t :=
  Format.map_fits.mpr ⟨C.pair_fits node (contentId_fits _), rfl⟩

end Serial

/-! ### Text -/

section text
variable (C : SerialCrates) {α : Type}

/-- `from_base32` of a record. What is behind the value is not looked at. -/
def fromBase32 (f : Format C.Error C.short α) (encoded : List Char) : Except String α :=
  match C.base32Decode encoded with
  | none => .error "Failed to decode base32 string"
  | some decoded =>
      match f.decode decoded with
      | .ok (value, _) => .ok value
      | .error e => .error ("Failed to decode base32 string: " ++ C.text e)

/-- `to_base32` of a record -/
def toBase32 (f : Format C.Error C.short α) (value : α) : Except String (List Char) :=
  .ok (C.base32Encode (f.encode value))

/-- The text reads as the value exactly if its bytes begin with a spelling of it. -/
def ReadsAs (read : List Char → Except String α) (spells : α → List UInt8 → Prop) : Prop :=
  ∀ encoded value, read encoded = .ok value ↔
    ∃ part rest, C.base32Decode encoded = some (part ++ rest) ∧ spells value part

/-- What was written is read again, whatever is behind it; cut off anywhere it is refused, and the
error says that bytes are missing. -/
def RoundTrips (write : α → Except String (List Char)) (read : List Char → Except String α)
    (value : α) : Prop :=
  ∃ bytes, write value = .ok (C.base32Encode bytes) ∧
    (∀ rest, read (C.base32Encode (bytes ++ rest)) = .ok value) ∧
    ∀ part missing, bytes = part ++ missing → missing ≠ [] →
      ∃ n, read (C.base32Encode part) =
        .error ("Failed to decode base32 string: " ++ C.text (C.short n))

variable {C} {f : Format C.Error C.short α}

theorem fromBase32_readsAs {spells : α → List UInt8 → Prop}
    (same : ∀ {value part}, f.Spells value part ↔ spells value part) :
    ReadsAs C (fromBase32 C f) spells := by
  intro encoded value
  unfold fromBase32
  simp only [← same]
  cases C.base32Decode encoded with
  | none => simp
  | some decoded =>
      simp only [Option.some.injEq]
      constructor
      · intro read
        split at read
        case h_1 value' rest first =>
            cases read
            obtain ⟨part, rfl, spells⟩ := Format.decode_eq_ok.mp first
            exact ⟨part, rest, rfl, spells⟩
        case h_2 => cases read
      · rintro ⟨part, rest, rfl, spells⟩
        rw [spells rest]

theorem toBase32_roundTrips {value : α} (fits : f.Fits value) :
    RoundTrips C (toBase32 C f) (fromBase32 C f) value := by
  have spells := Format.spells_encode fits
  refine ⟨f.encode value, rfl, fun rest => ?_, fun part missing cut some_missing => ?_⟩
  · exact (fromBase32_readsAs Iff.rfl _ _).mpr ⟨_, rest, C.base32Decode_encode _, spells⟩
  · rw [cut] at spells
    obtain ⟨n, short⟩ := spells.cut some_missing
    refine ⟨n, ?_⟩
    rw [fromBase32, C.base32Decode_encode]
    simp only [short]

end text

section records
variable {A : Type} [LinearOrder A] (C : SerialCrates) (S : Format C.Error C.short A)

def FullNodeAddr.fromBase32 : List Char → Except String (FullNodeAddr A) :=
  Core.fromBase32 C (Serial.nodeAddr C S)

def FullNodeAddr.toBase32 : FullNodeAddr A → Except String (List Char) :=
  Core.toBase32 C (Serial.nodeAddr C S)

def RelayAddr.fromBase32 : List Char → Except String (RelayAddr A) :=
  Core.fromBase32 C (Serial.relayAddr C S)

def RelayAddr.toBase32 : RelayAddr A → Except String (List Char) :=
  Core.toBase32 C (Serial.relayAddr C S)

def TransferTicket.fromBase32 : List Char → Except String (TransferTicket A) :=
  Core.fromBase32 C (Serial.transferTicket C S)

def TransferTicket.toBase32 : TransferTicket A → Except String (List Char) :=
  Core.toBase32 C (Serial.transferTicket C S)

end records

namespace Sample

def serialCrates : SerialCrates where
  toTextCrates := textCrates
  toSerializer := Bincode.standard
  text
    | .UnexpectedEnd _ => "UnexpectedEnd"
    | _ => "DecodeError"

/-- Addresses that are numbers, two of the node and one of its relay. -/
def ticket : TransferTicket Nat where
  nodeAddr :=
    { nodeId := ⟨List.replicate 32 7, rfl⟩
      addresses := {300, 3}
      relayAddr := some ⟨⟨List.replicate 32 9, rfl⟩, {5}⟩ }
  contentId := UuidV4.zero

end Sample

end Foctet.Core
