import Foctet.Net.Certificate

/-! What `parse_unverified` reads from a certificate: when it accepts, and when the
slice past the scheme of the URI panics. -/
namespace Foctet.Net
open Foctet.Core Foctet.Lib

section
variable (C : Crates)

/-- The first URI of the subject alternative name, when there is one to read. -/
def sanUri (cert : X509Certificate) : Option (List Char) :=
  match C.subjectAlternativeName cert with
  | .ok (some generalNames) => generalNames.findSome? GeneralName.uri?
  | _ => none

/-- The foctet extension that counts is the last one. -/
def EffectiveExtension (extensions : List X509Extension) (ext : X509Extension) : Prop :=
  ∃ before after, extensions = before ++ ext :: after ∧ ext.oid = FOCTET_EXT_OID ∧
    ∀ later ∈ after, later.oid ≠ FOCTET_EXT_OID

/-- Every foctet extension decodes, and the last one to a node ID and a signature. -/
structure ExtensionHolds (extensions : List X509Extension) (id : NodeId) (signature : List UInt8) :
    Prop where
  decode : ∀ ext ∈ extensions, ext.oid = FOCTET_EXT_OID → (C.decodeDer ext.value).isSome
  effective : ∃ ext nodeIdBytes, EffectiveExtension extensions ext ∧
    C.decodeDer ext.value = some (nodeIdBytes, signature) ∧
    PublicKey.tryFromBytes C.toKeyCrates nodeIdBytes = some id

end

variable {C : Crates} {cert : X509Certificate} {id : NodeId} {signature : List UInt8}

theorem effectiveExtension_cons {head ext : X509Extension} {rest : List X509Extension} :
    EffectiveExtension (head :: rest) ext ↔ EffectiveExtension rest ext ∨
      ext = head ∧ head.oid = FOCTET_EXT_OID ∧ ∀ later ∈ rest, later.oid ≠ FOCTET_EXT_OID := by
  constructor
  · rintro ⟨before, after, split, named, last⟩
    rcases before with - | ⟨first, before⟩
    · obtain ⟨rfl, rfl⟩ := List.cons.inj split
      exact .inr ⟨rfl, named, last⟩
    · obtain ⟨rfl, rfl⟩ := List.cons.inj split
      exact .inl ⟨before, after, rfl, named, last⟩
  · rintro (⟨before, after, rfl, named, last⟩ | ⟨rfl, named, last⟩)
    · exact ⟨head :: before, after, rfl, named, last⟩
    · exact ⟨[], rest, rfl, named, last⟩

theorem extensionLoop_ne_panic (extracted : Option (List UInt8 × List UInt8))
    (extensions : List X509Extension) : extensionLoop C extracted extensions ≠ .panic := by
  induction extensions generalizing extracted with
  | nil => exact nofun
  | cons ext rest ih =>
      rw [extensionLoop]
      split
      · rw [Ne, Outcome.bind_eq_panic]
        rintro (refused | ⟨decoded, -, panicked⟩)
        · exact Outcome.okOr_ne_panic refused
        · exact ih _ panicked
      · exact ih _

/-- What the loop holds at its end was put there by the last foctet extension, or was held
from the start when there is none. -/
theorem extensionLoop_eq_ok {extracted : Option (List UInt8 × List UInt8)}
    {pair : List UInt8 × List UInt8} {extensions : List X509Extension} :
    extensionLoop C extracted extensions = .ok (some pair) ↔
      (∀ ext ∈ extensions, ext.oid = FOCTET_EXT_OID → (C.decodeDer ext.value).isSome) ∧
      ((∃ ext, EffectiveExtension extensions ext ∧ C.decodeDer ext.value = some pair) ∨
        extracted = some pair ∧ ∀ ext ∈ extensions, ext.oid ≠ FOCTET_EXT_OID) := by
  induction extensions generalizing extracted with
  | nil =>
      simp [extensionLoop, EffectiveExtension]
  | cons head rest ih =>
      rw [extensionLoop]
      simp only [List.forall_mem_cons, effectiveExtension_cons]
      split
      case isTrue named =>
        rw [Outcome.bind_eq_ok]
        simp only [Outcome.okOr_eq_ok, ih]
        constructor
        · rintro ⟨decoded, found, decode, ⟨ext, last, held⟩ | ⟨⟨⟩, none⟩⟩
          · exact ⟨⟨fun _ => by rw [found]; rfl, decode⟩, .inl ⟨ext, .inl last, held⟩⟩
          · exact ⟨⟨fun _ => by rw [found]; rfl, decode⟩, .inl ⟨head, .inr ⟨rfl, named, none⟩, found⟩⟩
        · rintro ⟨⟨first, decode⟩, ⟨ext, last | ⟨rfl, -, none⟩, held⟩ | ⟨-, other, -⟩⟩
          · obtain ⟨decoded, found⟩ := Option.isSome_iff_exists.mp (first named)
            exact ⟨decoded, found, decode, .inl ⟨ext, last, held⟩⟩
          · exact ⟨pair, held, decode, .inr ⟨rfl, none⟩⟩
          · exact absurd named other
      case isFalse other =>
        simp only [ih, other, false_implies, true_and, false_and, and_false, or_false, ne_eq,
          not_false_eq_true]

theorem sanNodeId_eq_ok : sanNodeId C cert = .ok id ↔ ∃ uri encoded, sanUri C cert = some uri ∧
    dropBytes (byteLength uriScheme) uri = some encoded ∧
    PublicKey.fromBase32 C.toKeyCrates encoded = some id := by
  rw [sanNodeId, sanUri]
  rcases C.subjectAlternativeName cert with refused | (- | generalNames)
  · simp
  · simp [Outcome.okOr]
  · simp only [Outcome.bind_eq_ok, Outcome.okOr_eq_ok, Outcome.orPanic_eq_ok]
    constructor
    · rintro ⟨names, ⟨⟩, uri, first, encoded, rest, decoded⟩
      exact ⟨uri, encoded, first, rest, decoded⟩
    · rintro ⟨uri, encoded, first, rest, decoded⟩
      exact ⟨_, rfl, uri, first, encoded, rest, decoded⟩

theorem sanNodeId_eq_panic : sanNodeId C cert = .panic ↔ ∃ uri, sanUri C cert = some uri ∧
    dropBytes (byteLength uriScheme) uri = none := by
  rw [sanNodeId, sanUri]
  rcases C.subjectAlternativeName cert with refused | (- | generalNames)
  · simp
  · simp [Outcome.okOr]
  · simp only [Outcome.bind_eq_panic, Outcome.okOr_eq_ok, Outcome.okOr_ne_panic, false_or,
      Outcome.orPanic_eq_panic, and_false, exists_const, or_false]
    constructor
    · rintro ⟨names, ⟨⟩, uri, first, outside⟩
      exact ⟨uri, first, outside⟩
    · rintro ⟨uri, first, outside⟩
      exact ⟨_, rfl, uri, first, outside⟩

theorem parseUnverified_eq_ok {derInput : List UInt8} {c : FoctetCertificate} :
    parseUnverified C derInput = .ok c ↔ C.parseX509Certificate derInput = some c.certificate ∧
      sanNodeId C c.certificate = .ok c.nodeId ∧
      ExtensionHolds C c.certificate.extensions c.nodeId c.extension.signature := by
  simp only [parseUnverified, Outcome.bind_eq_ok, Outcome.okOr_eq_ok, Outcome.ensure_eq_ok,
    Outcome.pure_eq, Outcome.ok.injEq, decide_eq_true_eq]
  constructor
  · rintro ⟨x509Cert, parsed, sanId, named, extracted, looped, ⟨nodeIdBytes, signature⟩, rfl, extId,
      key, -, rfl, rfl⟩
    obtain ⟨decode, ⟨ext, last, held⟩ | ⟨⟨⟩, -⟩⟩ := extensionLoop_eq_ok.mp looped
    exact ⟨parsed, named, decode, ext, nodeIdBytes, last, held, key⟩
  · obtain ⟨x509Cert, extId, signature⟩ := c
    rintro ⟨parsed, named, decode, ext, nodeIdBytes, last, held, key⟩
    exact ⟨x509Cert, parsed, extId, named, _, extensionLoop_eq_ok.mpr ⟨decode, .inl ⟨ext, last, held⟩⟩,
      (nodeIdBytes, signature), rfl, extId, key, (), rfl, rfl⟩

theorem parseUnverified_eq_panic {derInput : List UInt8} :
    parseUnverified C derInput = .panic ↔
      ∃ cert, C.parseX509Certificate derInput = some cert ∧ sanNodeId C cert = .panic := by
  simp only [parseUnverified, Outcome.bind_eq_panic, Outcome.okOr_eq_ok, Outcome.okOr_ne_panic,
    Outcome.ensure_ne_panic, extensionLoop_ne_panic, Outcome.pure_eq, false_or]
  simp

/-- Parsing is total and holds the URI to its scheme exactly on these certificates: the
slice needs nine bytes, and only the scheme itself keeps a URI with other nine bytes in
front of the node ID of the extension out. -/
theorem parseUnverified_scheme_iff (C : Crates) (derInput : List UInt8) :
    (parseUnverified C derInput ≠ .panic ∧
      ∀ c, parseUnverified C derInput = .ok c →
        C.parseX509Certificate derInput = some c.certificate ∧
        ∃ encoded, sanUri C c.certificate = some (uriScheme ++ encoded) ∧
          PublicKey.fromBase32 C.toKeyCrates encoded = some c.nodeId ∧
          ExtensionHolds C c.certificate.extensions c.nodeId c.extension.signature) ↔
    ∀ cert uri, C.parseX509Certificate derInput = some cert → sanUri C cert = some uri →
      uriScheme <+: uri ∨
        ∃ encoded, dropBytes (byteLength uriScheme) uri = some encoded ∧
          ¬ ∃ id signature, PublicKey.fromBase32 C.toKeyCrates encoded = some id ∧
            ExtensionHolds C cert.extensions id signature := by
  constructor
  · rintro ⟨total, scheme⟩ cert uri parsed first
    cases rest : dropBytes (byteLength uriScheme) uri with
    | none =>
        exact absurd (parseUnverified_eq_panic.mpr
          ⟨cert, parsed, sanNodeId_eq_panic.mpr ⟨uri, first, rest⟩⟩) total
    | some encoded =>
        refine or_iff_not_imp_right.mpr fun accepted => ?_
        simp only [Option.some.injEq, exists_eq_left', not_not] at accepted
        obtain ⟨id, signature, decoded, held⟩ := accepted
        have named := sanNodeId_eq_ok.mpr ⟨uri, encoded, first, rest, decoded⟩
        obtain ⟨-, text, same, -⟩ := scheme ⟨cert, id, signature⟩
          (parseUnverified_eq_ok.mpr ⟨parsed, named, held⟩)
        obtain rfl : uriScheme ++ text = uri := Option.some.inj (same.symm.trans first)
        exact List.prefix_append _ _
  · intro condition
    refine ⟨fun panicked => ?_, fun c accepted => ?_⟩
    · obtain ⟨cert, parsed, outside⟩ := parseUnverified_eq_panic.mp panicked
      obtain ⟨uri, first, none⟩ := sanNodeId_eq_panic.mp outside
      rcases condition cert uri parsed first with ⟨text, rfl⟩ | ⟨encoded, some, -⟩
      · exact absurd ((dropBytes_append _ _).symm.trans none) nofun
      · exact absurd (some.symm.trans none) nofun
    · obtain ⟨parsed, named, held⟩ := parseUnverified_eq_ok.mp accepted
      obtain ⟨uri, encoded, first, rest, decoded⟩ := sanNodeId_eq_ok.mp named
      rcases condition _ uri parsed first with ⟨text, rfl⟩ | ⟨other, some, refused⟩
      · obtain rfl := Option.some.inj ((dropBytes_append _ _).symm.trans rest)
        exact ⟨parsed, text, first, decoded, held⟩
      · obtain rfl := Option.some.inj (some.symm.trans rest)
        exact absurd ⟨_, _, decoded, held⟩ refused

namespace Sample

/-- DER of a value: its tag, its length and its content. -/
def tlv (tag : UInt8) (content : List UInt8) : List UInt8 :=
  let length := content.length
  tag :: (if length < 128 then [length.toUInt8]
    else if length < 256 then [0x81, length.toUInt8]
    else [0x82, (length / 256).toUInt8, length.toUInt8]) ++ content

/-- An Ed25519 public key, and its base32 text. -/
def nodeId : NodeId where
  publicKey :=
  [0xbd, 0x29, 0x7d, 0x26, 0x29, 0x3f, 0xeb, 0xa5, 0x4c, 0x7b, 0x88, 0x2b, 0x40, 0x6b, 0x69,
   0x4c, 0xef, 0x87, 0x03, 0xdf, 0x79, 0x24, 0x53, 0x93, 0x78, 0xd7, 0x6f, 0x50, 0x1b, 0x84,
   0xac, 0x0e]
  length := rfl

def nodeText : List Char :=
  ['X', 'U', 'U', 'X', '2', 'J', 'R', 'J', 'H', '7', 'V', '2', 'K', 'T', 'D', '3', 'R', 'A',
   'V', 'U', 'A', '2', '3', 'J', 'J', 'T', 'X', 'Y', 'O', 'A', '6', '7', 'P', 'E', 'S', 'F',
   'H', 'E', '3', 'Y', '2', '5', 'X', 'V', 'A', 'G', '4', 'E', 'V', 'Q', 'H', 'A']

/-- A key on P-256, as `generate` makes one. -/
def certificateKey : List UInt8 :=
  [0x04, 0x52, 0xd4, 0x40, 0x10, 0x84, 0x3a, 0xe3, 0xd2, 0xde, 0x0e, 0x37, 0xc3, 0x56, 0xbf,
   0xef, 0xaa, 0x4c, 0x26, 0x91, 0x2e, 0x30, 0xeb, 0x5d, 0x11, 0xbe, 0xc7, 0x9d, 0x88, 0x27,
   0x11, 0x44, 0x97, 0x26, 0x09, 0x67, 0x81, 0xd1, 0x1e, 0x0b, 0x52, 0x5f, 0xaf, 0x88, 0x61,
   0x30, 0xf7, 0x0b, 0xc6, 0x5e, 0xb1, 0x63, 0xd6, 0xf3, 0xca, 0x5d, 0x17, 0x33, 0x1d, 0x49,
   0x81, 0x69, 0x55, 0xc6, 0xbb]

def ecdsaWithSha256 : List UInt8 := tlv 0x30 (tlv 0x06 [0x2a, 0x86, 0x48, 0xce, 0x3d, 0x04, 0x03, 0x02])

def prime256v1 : List UInt8 := tlv 0x06 [0x2a, 0x86, 0x48, 0xce, 0x3d, 0x03, 0x01, 0x07]

def subjectPki : SubjectPublicKeyInfo where
  algorithm := ⟨.KEY_TYPE_EC_PUBLIC_KEY, some prime256v1⟩
  subjectPublicKey := certificateKey
  raw := tlv 0x30 (tlv 0x30 (tlv 0x06 [0x2a, 0x86, 0x48, 0xce, 0x3d, 0x02, 0x01] ++ prime256v1) ++
    tlv 0x03 (0x00 :: certificateKey))

/-- The node key's signature of the certificate key. -/
def extensionSignature : List UInt8 :=
  [0x31, 0xcc, 0x77, 0x68, 0x1c, 0xcc, 0x29, 0xe1, 0xe6, 0x41, 0x98, 0x6d, 0x7a, 0xa4, 0x5b,
   0x9c, 0x2f, 0x44, 0x84, 0x0e, 0xb7, 0x45, 0xc0, 0x8d, 0xfc, 0xc6, 0xc6, 0x2f, 0x3c, 0x03,
   0x51, 0x6e, 0x29, 0xb7, 0x93, 0x68, 0x9a, 0x46, 0xba, 0xd1, 0xfe, 0xb8, 0x85, 0x16, 0x61,
   0x52, 0x9f, 0x3d, 0x4b, 0x54, 0xa7, 0x8d, 0x03, 0xa8, 0x83, 0x35, 0x89, 0x99, 0xd7, 0xf1,
   0x4d, 0x8f, 0xa5, 0x09]

def extensionValue : List UInt8 :=
  tlv 0x30 (tlv 0x04 nodeId.publicKey ++ tlv 0x04 extensionSignature)

def ascii (text : List Char) : List UInt8 := text.map fun c => c.toNat.toUInt8

def sanValue (uri : List Char) : List UInt8 := tlv 0x30 (tlv 0x86 (ascii uri))

def tbsCertificate (uri : List Char) : List UInt8 :=
  tlv 0x30 (tlv 0xa0 (tlv 0x02 [0x02]) ++ tlv 0x02 [0x01] ++ ecdsaWithSha256 ++ tlv 0x30 [] ++
    tlv 0x30 (tlv 0x17 (ascii ['7', '5', '0', '1', '0', '1', '0', '0', '0', '0', '0', '0', 'Z']) ++
      tlv 0x18 (ascii ['4', '0', '9', '6', '0', '1', '0', '1', '0', '0', '0', '0', '0', '0', 'Z'])) ++
    tlv 0x30 [] ++ subjectPki.raw ++
    tlv 0xa3 (tlv 0x30
      (tlv 0x30 (tlv 0x06 [0x55, 0x1d, 0x11] ++ tlv 0x04 (sanValue uri)) ++
       tlv 0x30 (tlv 0x06 [0x2b, 0x06, 0x01, 0x04, 0x01, 0x81, 0xfd, 0x59, 0x01, 0x01] ++
         tlv 0x04 extensionValue))))

/-- The certificate key's signature of `tbsCertificate` with the URI of `nodeText`. -/
def selfSignature : List UInt8 :=
  [0x30, 0x45, 0x02, 0x21, 0x00, 0x97, 0x10, 0xd7, 0xc2, 0x7f, 0x2f, 0x1d, 0x06, 0x63, 0x95,
   0x04, 0xd0, 0x50, 0x71, 0x3c, 0x37, 0xef, 0xc8, 0x45, 0x59, 0x47, 0xa5, 0x3d, 0xc6, 0x31,
   0xfe, 0xa9, 0xd5, 0x7e, 0x6b, 0xe9, 0xfd, 0x02, 0x20, 0x1c, 0x34, 0xa7, 0x76, 0x67, 0x5c,
   0x86, 0x8f, 0x4d, 0x3a, 0xe7, 0x99, 0x05, 0xa2, 0xa7, 0xa0, 0x35, 0xbe, 0x3f, 0xe8, 0xbd,
   0xc9, 0x7a, 0xf5, 0xe6, 0x60, 0x4c, 0xda, 0x9a, 0x74, 0x5e, 0xc0]

def certificateDer (uri : List Char) : List UInt8 :=
  tlv 0x30 (tbsCertificate uri ++ ecdsaWithSha256 ++ tlv 0x03 (0x00 :: selfSignature))

def certificate (uri : List Char) : X509Certificate where
  tbsCertificate := tbsCertificate uri
  subjectPki := subjectPki
  validity := ⟨157766400, 67090118400⟩
  extensions := [⟨[2, 5, 29, 17], sanValue uri⟩, ⟨FOCTET_EXT_OID, extensionValue⟩]
  signatureAlgorithm := ⟨.SIG_ECDSA_WITH_SHA256, none⟩
  signatureValue := selfSignature

/-- The message of a server's CertificateVerify, and the certificate key's signature of it. -/
def handshakeMessage : List UInt8 :=
  List.replicate 64 0x20 ++ ascii
    ['T', 'L', 'S', ' ', '1', '.', '3', ',', ' ', 's', 'e', 'r', 'v', 'e', 'r', ' ', 'C', 'e', 'r', 't',
     'i', 'f', 'i', 'c', 'a', 't', 'e', 'V', 'e', 'r', 'i', 'f', 'y'] ++
    0x00 :: (List.range 32).map Nat.toUInt8

def handshakeSignature : List UInt8 :=
  [0x30, 0x44, 0x02, 0x20, 0x1d, 0xc3, 0xa9, 0x81, 0xe0, 0xa5, 0xb2, 0x49, 0x80, 0x93, 0xb8,
   0xcc, 0x88, 0x6c, 0x29, 0x51, 0x46, 0x5c, 0x71, 0x66, 0xb9, 0x8a, 0x62, 0xaf, 0x4c, 0x14,
   0xd3, 0xff, 0x59, 0x1b, 0xb6, 0xfe, 0x02, 0x20, 0x14, 0xb9, 0xac, 0x83, 0x63, 0x82, 0x02,
   0x14, 0x10, 0xbc, 0x2f, 0x29, 0x62, 0x36, 0x1a, 0x6d, 0x28, 0x7d, 0x23, 0x7c, 0x1c, 0x52,
   0x9c, 0x46, 0xc2, 0x7f, 0xdd, 0x6c, 0x79, 0x96, 0xc5, 0x33]

/-- The given functions at the sample certificate with this URI. -/
def crates (uri : List Char) : Crates where
  verifyingKeyFromBytes key := key = nodeId.publicKey
  signatureTryFrom signature := signature.length = 64
  verify key message signature := key = nodeId.publicKey ∧
    message = FOCTET_SIGNING_PREFIX ++ subjectPki.raw ∧ signature = extensionSignature
  base32Decode text := if text = nodeText then some nodeId.publicKey else none
  parseX509Certificate der := if der = certificateDer uri then some (certificate uri) else none
  subjectAlternativeName cert :=
    if cert = certificate uri then .ok (some [.URI uri]) else .ok none
  decodeDer value := if value = extensionValue then some (nodeId.publicKey, extensionSignature) else none
  asOid parameters := if parameters = prime256v1 then some .EC_P256 else none
  rsassaPssHash _ := none
  ringVerify key message signature := key = ⟨.ECDSA_P256_SHA256_ASN1, certificateKey⟩ ∧
    (message = tbsCertificate (uriScheme ++ nodeText) ∧ signature = selfSignature ∨
      message = handshakeMessage ∧ signature = handshakeSignature)
  isValidAt := Validity.isValidAt
  connects := .inFull
  accepts := .inFull
  isValidAt_eq _ _ := rfl
  connects_runsInFull := Tls.inFull_runsInFull
  accepts_runsInFull := Tls.inFull_runsInFull

end Sample

def Sample.foreignUri : List Char := ['h', 't', 't', 'p', 's', ':', '/', '/', 'x'] ++ Sample.nodeText

/-- A URI of one character panics, and one of another scheme passes. -/
theorem uri_scheme_unchecked :
    parseUnverified (Sample.crates ['x']) (Sample.certificateDer ['x']) = .panic ∧
    parseUnverified (Sample.crates Sample.foreignUri) (Sample.certificateDer Sample.foreignUri) =
      .ok ⟨Sample.certificate Sample.foreignUri, Sample.nodeId, Sample.extensionSignature⟩ ∧
    sanUri (Sample.crates Sample.foreignUri) (Sample.certificate Sample.foreignUri) =
      some Sample.foreignUri ∧
    ¬ uriScheme <+: Sample.foreignUri := by
  decide +kernel

end Foctet.Net
