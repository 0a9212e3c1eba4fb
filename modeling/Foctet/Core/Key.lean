import Foctet.Lib.Outcome

/-! Ed25519 public keys, which are also the node IDs. The curve itself and the
base32 alphabet are given. -/
namespace Foctet.Core

/-- What the key code takes from ed25519_dalek and base32. -/
structure KeyCrates where
  /-- `VerifyingKey::from_bytes` of 32 bytes succeeds. -/
  verifyingKeyFromBytes : List UInt8 → Bool
  /-- `Signature::try_from` of a slice succeeds. -/
  signatureTryFrom : List UInt8 → Bool
  /-- `vkey.verify(msg, &sig).is_ok()`, of the bytes of the key and of the signature -/
  verify : List UInt8 → List UInt8 → List UInt8 → Bool
  /-- `base32::decode` in the unpadded alphabet of RFC 4648 -/
  base32Decode : List Char → Option (List UInt8)

structure PublicKey where
  publicKey : List UInt8
  length : publicKey.length = 32
  deriving DecidableEq

abbrev NodeId := PublicKey

namespace PublicKey
variable (C : KeyCrates)

def tryFromBytes (k : List UInt8) : Option PublicKey :=
  if length : k.length = 32 then
    if C.verifyingKeyFromBytes k then some ⟨k, length⟩ else none
  else none

def fromBase32 (encoded : List Char) : Option PublicKey := do
  let decoded ← C.base32Decode encoded
  tryFromBytes C decoded

def verify (k : PublicKey) (msg sig : List UInt8) : Bool :=
  C.signatureTryFrom sig && C.verifyingKeyFromBytes k.publicKey && C.verify k.publicKey msg sig

end PublicKey

/-- Only the public half is read. -/
structure Keypair where
  verifyingKey : PublicKey

/-- `Keypair::public` -/
def Keypair.publicKey (k : Keypair) : PublicKey := k.verifyingKey

end Foctet.Core
