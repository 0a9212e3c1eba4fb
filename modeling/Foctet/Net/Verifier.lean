import Foctet.Net.Parsing

/-! The rustls verifier of foctet. A certificate is parsed on its own in each callback
and once more when the node ID is read off the finished handshake, each time with the
clock of that moment. -/
namespace Foctet.Net
open Foctet.Core Foctet.Lib

structure FoctetCertificateVerifier where
  /-- The node ID we intend to connect to. -/
  remoteNodeId : Option NodeId
  deriving DecidableEq

/-- `From<cert::ParseError>` -/
def RustlsError.ofParseError : WebpkiError → RustlsError
  | .BadDer => .InvalidCertificate .BadEncoding
  | e => .InvalidCertificate (.Other e)

section
variable (C : Crates) (now : Int)

def verifyPresentedCerts (endEntity : List UInt8) (intermediates : List (List UInt8)) :
    Outcome RustlsError NodeId := do
  Outcome.ensure intermediates.isEmpty (.General "foctet-tls requires exactly one certificate")
  let cert ← (parse C now endEntity).mapErr fun _ => RustlsError.InvalidCertificate .BadEncoding
  return cert.nodeId

def verifyTls13Signature (cert : List UInt8) (signatureScheme : SignatureScheme)
    (message signature : List UInt8) : Outcome RustlsError Unit := do
  let cert ← (parse C now cert).mapErr RustlsError.ofParseError
  (cert.verifySignature C signatureScheme message signature).mapErr
    fun _ => RustlsError.InvalidCertificate .BadSignature

namespace FoctetCertificateVerifier

def new : FoctetCertificateVerifier := ⟨none⟩

def withRemoteNodeId (remoteNodeId : Option NodeId) : FoctetCertificateVerifier := ⟨remoteNodeId⟩

def verificationSchemes : List SignatureScheme :=
  [.ECDSA_NISTP384_SHA384, .ECDSA_NISTP256_SHA256, .ED25519, .RSA_PSS_SHA512, .RSA_PSS_SHA384,
   .RSA_PSS_SHA256, .RSA_PKCS1_SHA512, .RSA_PKCS1_SHA384, .RSA_PKCS1_SHA256]

def verifyServerCert (v : FoctetCertificateVerifier) (endEntity : List UInt8)
    (intermediates : List (List UInt8)) : Outcome RustlsError Unit := do
  let nodeId ← verifyPresentedCerts C now endEntity intermediates
  match v.remoteNodeId with
  | some remoteNodeId =>
      Outcome.ensure (remoteNodeId = nodeId) (.InvalidCertificate .ApplicationVerificationFailure)
  | none => .ok ()

/-- A server has no node ID to compare with. -/
def verifyClientCert (_ : FoctetCertificateVerifier) (endEntity : List UInt8)
    (intermediates : List (List UInt8)) : Outcome RustlsError Unit := do
  let _ ← verifyPresentedCerts C now endEntity intermediates
  return ()

end FoctetCertificateVerifier

/-- `extract_client_remote_node_id`, `extract_server_remote_node_id` and, on QUIC,
`extract_remote_node_id`, from the certificates that TLS kept. -/
def extractRemoteNodeId (peerCertificates : Option (List (List UInt8))) :
    Outcome AnyhowError NodeId := do
  let certs ← Outcome.okOr (.message "No peer identity") peerCertificates
  let cert ← Outcome.okOr (.message "No certificate found") certs.head?
  let foctetCert ← (parse C now cert).mapErr AnyhowError.parse
  return foctetCert.nodeId

/-- The certificate's own key verifies a message under a scheme. -/
def FoctetCertificate.KeyVerifies (c : FoctetCertificate) (scheme : SignatureScheme)
    (message signature : List UInt8) : Prop :=
  ∃ algorithm, FoctetCertificate.verificationAlgorithm scheme = .ok algorithm ∧
    C.ringVerify ⟨algorithm, c.certificate.subjectPki.subjectPublicKey⟩ message signature = true

end

variable {C : Crates} {now : Int} {c : FoctetCertificate} {scheme : SignatureScheme}
  {message signature endEntity : List UInt8} {intermediates : List (List UInt8)}

namespace FoctetCertificate

theorem verifySignature_eq_ok {u : Unit} : c.verifySignature C scheme message signature = .ok u ↔
    c.signatureScheme C = .ok scheme ∧ c.KeyVerifies C scheme message signature := by
  simp only [verifySignature, publicKey, Outcome.bind_eq_ok, Outcome.ensure_eq_ok, Outcome.pure_eq,
    Outcome.ok.injEq, decide_eq_true_eq]
  constructor
  · rintro ⟨pk, ⟨current, own, -, rfl, algorithm, chosen, rfl⟩, verified⟩
    exact ⟨own, algorithm, chosen, verified⟩
  · rintro ⟨own, algorithm, chosen, verified⟩
    exact ⟨_, ⟨scheme, own, (), rfl, algorithm, chosen, rfl⟩, verified⟩

theorem verify_eq_ok : c.verify C now = .ok () ↔ c.certificate.validity.isValidAt now = true ∧
    (∃ scheme, c.signatureScheme C = .ok scheme ∧
      c.KeyVerifies C scheme c.certificate.tbsCertificate c.certificate.signatureValue) ∧
    c.nodeId.verify C.toKeyCrates c.signingMsg c.extension.signature = true := by
  simp only [verify, C.isValidAt_eq, Outcome.bind_eq_ok, Outcome.ensure_eq_ok, Outcome.mapErr_eq_ok,
    verifySignature_eq_ok, nodeId]
  constructor
  · rintro ⟨-, valid, scheme, own, -, ⟨-, signed⟩, extension⟩
    exact ⟨valid, ⟨scheme, own, signed⟩, extension⟩
  · rintro ⟨valid, ⟨scheme, own, signed⟩, extension⟩
    exact ⟨(), valid, scheme, own, (), ⟨own, signed⟩, extension⟩

/-- A certificate that once passed fails later only when it has run out. -/
theorem verify_later (passed : c.verify C now = .ok ()) (later : Int) : c.verify C later =
    Outcome.ensure (c.certificate.validity.isValidAt later) .InvalidCertValidity := by
  rw [verify, Outcome.bind_eq_ok] at passed
  obtain ⟨-, -, rest⟩ := passed
  rw [verify, C.isValidAt_eq]
  cases c.certificate.validity.isValidAt later with
  | true => exact rest
  | false => rfl

/-- ring verifies none of the schemes with SHA-1 or MD5, nor P-521, nor Ed448. -/
theorem verificationAlgorithm_offered {algorithm : VerificationAlgorithm}
    (chosen : verificationAlgorithm scheme = .ok algorithm) :
    scheme ∈ FoctetCertificateVerifier.verificationSchemes := by
  cases scheme <;> first | decide | cases chosen

theorem rsaScheme_ne_panic {algorithm : AlgorithmIdentifier} :
    rsaScheme C algorithm ≠ some .panic := by
  unfold rsaScheme
  repeat' split
  all_goals simp

theorem ecScheme_ne_panic {pki algorithm : AlgorithmIdentifier} : ecScheme C pki algorithm ≠ .panic := by
  simp only [ecScheme, ne_eq, Outcome.bind_eq_panic, Outcome.okOr_ne_panic, false_or, not_exists, not_and]
  intro parameters _ oid _
  repeat' split
  all_goals simp

theorem signatureScheme_ne_panic : c.signatureScheme C ≠ .panic := by
  unfold signatureScheme
  dsimp only
  split
  case h_1 returned found =>
      rintro rfl
      split at found
      · exact rsaScheme_ne_panic found
      · cases found
  case h_2 =>
      repeat' split
      · exact ecScheme_ne_panic
      all_goals simp

theorem verifySignature_ne_panic : c.verifySignature C scheme message signature ≠ .panic := by
  have algorithms : verificationAlgorithm scheme ≠ .panic := by
    cases scheme <;> simp [verificationAlgorithm]
  simp [verifySignature, publicKey, Outcome.bind_eq_panic, signatureScheme_ne_panic, algorithms]

/-- Nothing in `verify` indexes or unwraps. -/
theorem verify_ne_panic : c.verify C now ≠ .panic := by
  simp [verify, Outcome.bind_eq_panic, signatureScheme_ne_panic, verifySignature_ne_panic]

end FoctetCertificate

theorem parse_eq_ok : parse C now endEntity = .ok c ↔
    parseUnverified C endEntity = .ok c ∧ c.verify C now = .ok () := by
  simp only [parse, Outcome.bind_eq_ok, Outcome.pure_eq, Outcome.ok.injEq]
  constructor
  · rintro ⟨cert, parsed, ⟨⟩, passed, rfl⟩
    exact ⟨parsed, passed⟩
  · rintro ⟨parsed, passed⟩
    exact ⟨c, parsed, (), passed, rfl⟩

theorem parse_eq_panic : parse C now endEntity = .panic ↔ parseUnverified C endEntity = .panic := by
  simp [parse, Outcome.bind_eq_panic, FoctetCertificate.verify_ne_panic]

/-- A certificate that once passed passes again until it has run out. -/
theorem parse_later (passed : parse C now endEntity = .ok c) (later : Int) :
    parse C later endEntity = .ok c ↔ c.certificate.validity.isValidAt later = true := by
  obtain ⟨parsed, verified⟩ := parse_eq_ok.mp passed
  rw [parse_eq_ok, FoctetCertificate.verify_later verified, Outcome.ensure_eq_ok]
  exact and_iff_right parsed

theorem verifyPresentedCerts_eq_ok {n : NodeId} :
    verifyPresentedCerts C now endEntity intermediates = .ok n ↔
      intermediates = [] ∧ ∃ c, parse C now endEntity = .ok c ∧ c.nodeId = n := by
  simp only [verifyPresentedCerts, Outcome.bind_eq_ok, Outcome.ensure_eq_ok, Outcome.mapErr_eq_ok,
    Outcome.pure_eq, Outcome.ok.injEq, List.isEmpty_iff, exists_const]

theorem verifyPresentedCerts_eq_panic :
    verifyPresentedCerts C now endEntity intermediates = .panic ↔
      intermediates = [] ∧ parseUnverified C endEntity = .panic := by
  simp [verifyPresentedCerts, Outcome.bind_eq_panic, parse_eq_panic]

namespace FoctetCertificateVerifier
variable {v : FoctetCertificateVerifier}

theorem verifyServerCert_eq_ok : v.verifyServerCert C now endEntity intermediates = .ok () ↔
    ∃ n, verifyPresentedCerts C now endEntity intermediates = .ok n ∧
      ∀ r, v.remoteNodeId = some r → r = n := by
  simp only [verifyServerCert, Outcome.bind_eq_ok]
  rcases v with ⟨- | r⟩ <;> simp

theorem verifyServerCert_eq_panic : v.verifyServerCert C now endEntity intermediates = .panic ↔
    verifyPresentedCerts C now endEntity intermediates = .panic := by
  simp only [verifyServerCert, Outcome.bind_eq_panic]
  rcases v with ⟨- | r⟩ <;> simp

theorem verifyClientCert_eq_ok : v.verifyClientCert C now endEntity intermediates = .ok () ↔
    ∃ n, verifyPresentedCerts C now endEntity intermediates = .ok n := by
  simp only [verifyClientCert, Outcome.bind_eq_ok, Outcome.pure_eq, and_true]

theorem verifyClientCert_eq_panic : v.verifyClientCert C now endEntity intermediates = .panic ↔
    verifyPresentedCerts C now endEntity intermediates = .panic := by
  simp [verifyClientCert, Outcome.bind_eq_panic]

end FoctetCertificateVerifier

theorem verifyTls13Signature_eq_ok :
    verifyTls13Signature C now endEntity scheme message signature = .ok () ↔
      ∃ c, parse C now endEntity = .ok c ∧ c.signatureScheme C = .ok scheme ∧
        c.KeyVerifies C scheme message signature := by
  simp only [verifyTls13Signature, Outcome.bind_eq_ok, Outcome.mapErr_eq_ok,
    FoctetCertificate.verifySignature_eq_ok]

theorem verifyTls13Signature_eq_panic :
    verifyTls13Signature C now endEntity scheme message signature = .panic ↔
      parseUnverified C endEntity = .panic := by
  simp [verifyTls13Signature, Outcome.bind_eq_panic, parse_eq_panic,
    FoctetCertificate.verifySignature_ne_panic]

theorem extractRemoteNodeId_eq_panic :
    extractRemoteNodeId C now (some (endEntity :: intermediates)) = .panic ↔
      parseUnverified C endEntity = .panic := by
  simp [extractRemoteNodeId, Outcome.okOr, Outcome.bind_eq_panic, parse_eq_panic]

/-- Whatever the clock says, one certificate parses to one value. -/
theorem parse_unique {c' : FoctetCertificate} {later : Int} (first : parse C now endEntity = .ok c)
    (second : parse C later endEntity = .ok c') : c' = c := by
  obtain ⟨parsed, -⟩ := parse_eq_ok.mp first
  obtain ⟨again, -⟩ := parse_eq_ok.mp second
  exact Outcome.ok.inj (again.symm.trans parsed)

/-- The node ID of the connection is that of the verified certificate, as long as the
certificate has not run out between the handshake and the reading of the node ID. -/
theorem extractRemoteNodeId_later (passed : parse C now endEntity = .ok c) (later : Int) :
    extractRemoteNodeId C later (some (endEntity :: intermediates)) =
      if c.certificate.validity.isValidAt later then .ok c.nodeId
      else .err (.parse .InvalidCertValidity) := by
  obtain ⟨parsed, verified⟩ := parse_eq_ok.mp passed
  have again := FoctetCertificate.verify_later verified later
  simp only [extractRemoteNodeId, parse, parsed, List.head?_cons, Outcome.okOr, Outcome.ok_bind, again]
  cases c.certificate.validity.isValidAt later with
  | true => rfl
  | false => rfl

/-- What a certificate proves of the node that presents it: the URI and the extension name
one node, that node signed the certificate key, and the certificate key signed both the
certificate and the handshake. -/
structure Authenticated (C : Crates) (c : FoctetCertificate) (endEntity : List UInt8)
    (scheme : SignatureScheme) (message signature : List UInt8) : Prop where
  parsed : C.parseX509Certificate endEntity = some c.certificate
  uri : ∃ uri encoded, sanUri C c.certificate = some uri ∧
    dropBytes (byteLength uriScheme) uri = some encoded ∧
    PublicKey.fromBase32 C.toKeyCrates encoded = some c.nodeId
  extension : ExtensionHolds C c.certificate.extensions c.nodeId c.extension.signature
  possession : c.nodeId.verify C.toKeyCrates (FOCTET_SIGNING_PREFIX ++ c.certificate.subjectPki.raw)
    c.extension.signature = true
  selfSigned : c.KeyVerifies C scheme c.certificate.tbsCertificate c.certificate.signatureValue
  handshake : c.KeyVerifies C scheme message signature

theorem authenticated_of_parse (passed : parse C now endEntity = .ok c)
    (own : c.signatureScheme C = .ok scheme) (handshake : c.KeyVerifies C scheme message signature) :
    Authenticated C c endEntity scheme message signature := by
  obtain ⟨accepted, verified⟩ := parse_eq_ok.mp passed
  obtain ⟨parsed, named, extension⟩ := parseUnverified_eq_ok.mp accepted
  obtain ⟨-, ⟨current, also, selfSigned⟩, possession⟩ := FoctetCertificate.verify_eq_ok.mp verified
  obtain rfl : current = scheme := Outcome.ok.inj (also.symm.trans own)
  exact ⟨parsed, sanNodeId_eq_ok.mp named, extension, possession, selfSigned, handshake⟩

/-- Both callbacks accept only a certificate that authenticates one node, and that node is
the one the connection is later given. -/
theorem verifier_sound (C : Crates) (v : FoctetCertificateVerifier) (presentedAt signedAt : Int)
    (endEntity : List UInt8) (intermediates : List (List UInt8)) (scheme : SignatureScheme)
    (message signature : List UInt8)
    (presented : v.verifyServerCert C presentedAt endEntity intermediates = .ok () ∨
      v.verifyClientCert C presentedAt endEntity intermediates = .ok ())
    (signed : verifyTls13Signature C signedAt endEntity scheme message signature = .ok ()) :
    intermediates = [] ∧ ∃ n c, c.nodeId = n ∧
      Authenticated C c endEntity scheme message signature ∧
      scheme ∈ FoctetCertificateVerifier.verificationSchemes ∧
      scheme ∉ [.RSA_PKCS1_SHA1, .ECDSA_SHA1_Legacy, .ECDSA_NISTP521_SHA512, .ED448] ∧
      (∀ code, scheme ≠ .Unknown code) ∧
      c.certificate.validity.isValidAt presentedAt = true ∧
      c.certificate.validity.isValidAt signedAt = true ∧
      (v.verifyServerCert C presentedAt endEntity intermediates = .ok () →
        ∀ r, v.remoteNodeId = some r → r = n) ∧
      ∀ later, extractRemoteNodeId C later (some (endEntity :: intermediates)) =
        if c.certificate.validity.isValidAt later then .ok n
        else .err (.parse .InvalidCertValidity) := by
  obtain ⟨n, accepted⟩ : ∃ n, verifyPresentedCerts C presentedAt endEntity intermediates = .ok n := by
    rcases presented with server | client
    · obtain ⟨n, accepted, -⟩ := FoctetCertificateVerifier.verifyServerCert_eq_ok.mp server
      exact ⟨n, accepted⟩
    · exact FoctetCertificateVerifier.verifyClientCert_eq_ok.mp client
  obtain ⟨alone, c, passed, rfl⟩ := verifyPresentedCerts_eq_ok.mp accepted
  obtain ⟨again, passedAgain, own, handshake⟩ := verifyTls13Signature_eq_ok.mp signed
  obtain rfl := parse_unique passed passedAgain
  have offered := FoctetCertificate.verificationAlgorithm_offered handshake.choose_spec.1
  refine ⟨alone, again.nodeId, again, rfl, authenticated_of_parse passed own handshake, offered, ?_, ?_,
    ?_, ?_, ?_, extractRemoteNodeId_later passed⟩
  · cases scheme with
    | Unknown code => simp
    | _ => revert offered; decide
  · rintro code rfl
    exact absurd offered (by simp [FoctetCertificateVerifier.verificationSchemes])
  · exact (FoctetCertificate.verify_eq_ok.mp (parse_eq_ok.mp passed).2).1
  · exact (FoctetCertificate.verify_eq_ok.mp (parse_eq_ok.mp passedAgain).2).1
  · intro server r intended
    obtain ⟨n, same, meant⟩ := FoctetCertificateVerifier.verifyServerCert_eq_ok.mp server
    obtain rfl := Outcome.ok.inj (accepted.symm.trans same)
    exact meant r intended

def Sample.uri : List Char := uriScheme ++ Sample.nodeText

/-- A client that means the sample node accepts its certificate. -/
theorem verifier_sound_sample : ∃ c, c.nodeId = Sample.nodeId ∧
    Authenticated (Sample.crates Sample.uri) c (Sample.certificateDer Sample.uri)
      .ECDSA_NISTP256_SHA256 Sample.handshakeMessage Sample.handshakeSignature := by
  have server : (FoctetCertificateVerifier.withRemoteNodeId (some Sample.nodeId)).verifyServerCert
      (Sample.crates Sample.uri) 1700000000 (Sample.certificateDer Sample.uri) [] = .ok () := by
    decide +kernel
  obtain ⟨-, n, c, rfl, authenticated, -, -, -, -, -, meant, -⟩ := verifier_sound (Sample.crates Sample.uri) _
    1700000000 1700000001 _ [] _ _ _ (.inl server)
    (by decide +kernel : verifyTls13Signature (Sample.crates Sample.uri) 1700000001
      (Sample.certificateDer Sample.uri) .ECDSA_NISTP256_SHA256 Sample.handshakeMessage
      Sample.handshakeSignature = .ok ())
  exact ⟨c, (meant server _ rfl).symm, authenticated⟩

end Foctet.Net
