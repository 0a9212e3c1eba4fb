import Foctet.Core.Key

/-! X.509 certificates as foctet reads them: parsing without verification, the
signature scheme of a certificate, and the checks of `verify`. DER, X.509, ring,
the curves and TLS are given functions. -/
namespace Foctet.Net
open Foctet.Core Foctet.Lib

abbrev Oid := List Nat

def FOCTET_EXT_OID : Oid := [1, 3, 6, 1, 4, 1, 32473, 1, 1]

/-- `b"foctet-tls-handshake:"` -/
def FOCTET_SIGNING_PREFIX : List UInt8 :=
  [0x66, 0x6f, 0x63, 0x74, 0x65, 0x74, 0x2d, 0x74, 0x6c, 0x73, 0x2d,
   0x68, 0x61, 0x6e, 0x64, 0x73, 0x68, 0x61, 0x6b, 0x65, 0x3a]

namespace Oid

def PKCS1_RSAENCRYPTION : Oid := [1, 2, 840, 113549, 1, 1, 1]
def PKCS1_RSASSAPSS : Oid := [1, 2, 840, 113549, 1, 1, 10]
def PKCS1_SHA256WITHRSA : Oid := [1, 2, 840, 113549, 1, 1, 11]
def PKCS1_SHA384WITHRSA : Oid := [1, 2, 840, 113549, 1, 1, 12]
def PKCS1_SHA512WITHRSA : Oid := [1, 2, 840, 113549, 1, 1, 13]
def NIST_HASH_SHA256 : Oid := [2, 16, 840, 1, 101, 3, 4, 2, 1]
def NIST_HASH_SHA384 : Oid := [2, 16, 840, 1, 101, 3, 4, 2, 2]
def NIST_HASH_SHA512 : Oid := [2, 16, 840, 1, 101, 3, 4, 2, 3]
def KEY_TYPE_EC_PUBLIC_KEY : Oid := [1, 2, 840, 10045, 2, 1]
def EC_P256 : Oid := [1, 2, 840, 10045, 3, 1, 7]
def NIST_EC_P384 : Oid := [1, 3, 132, 0, 34]
def NIST_EC_P521 : Oid := [1, 3, 132, 0, 35]
def SIG_ECDSA_WITH_SHA256 : Oid := [1, 2, 840, 10045, 4, 3, 2]
def SIG_ECDSA_WITH_SHA384 : Oid := [1, 2, 840, 10045, 4, 3, 3]
def SIG_ECDSA_WITH_SHA512 : Oid := [1, 2, 840, 10045, 4, 3, 4]
def SIG_ED25519 : Oid := [1, 3, 101, 112]
def SIG_ED448 : Oid := [1, 3, 101, 113]

end Oid

structure AlgorithmIdentifier where
  algorithm : Oid
  parameters : Option (List UInt8)
  deriving DecidableEq

structure SubjectPublicKeyInfo where
  algorithm : AlgorithmIdentifier
  subjectPublicKey : List UInt8
  raw : List UInt8
  deriving DecidableEq

structure X509Extension where
  oid : Oid
  value : List UInt8
  deriving DecidableEq

/-- Only the URIs among the general names are read. -/
inductive GeneralName where
  | URI (uri : List Char)
  | other
  deriving DecidableEq

/-- Seconds since the epoch, both ends included. -/
structure Validity where
  notBefore : Int
  notAfter : Int
  deriving DecidableEq

/-- What `is_valid_at` of x509_parser is to mean. -/
def Validity.isValidAt (v : Validity) (time : Int) : Bool := v.notBefore ≤ time && time ≤ v.notAfter

structure X509Certificate where
  /-- the bytes of the TBS certificate -/
  tbsCertificate : List UInt8
  subjectPki : SubjectPublicKeyInfo
  validity : Validity
  extensions : List X509Extension
  signatureAlgorithm : AlgorithmIdentifier
  signatureValue : List UInt8
  deriving DecidableEq

/-- The errors of webpki that the module returns. -/
inductive WebpkiError where
  | BadDer
  | UnknownIssuer
  | ExtensionValueInvalid
  | InvalidCertValidity
  | SignatureAlgorithmMismatch
  | InvalidSignatureForPublicKey
  | UnsupportedSignatureAlgorithm
  | UnsupportedSignatureAlgorithmForPublicKey
  deriving DecidableEq, Repr

inductive CertificateError where
  | BadEncoding
  | BadSignature
  | ApplicationVerificationFailure
  | Other (e : WebpkiError)
  deriving DecidableEq, Repr

inductive RustlsError where
  | General (text : String)
  | InvalidCertificate (e : CertificateError)
  deriving DecidableEq, Repr

/-- An `anyhow::Error`: a message of this crate, or the error of another. -/
inductive AnyhowError where
  | message (text : String)
  | parse (e : WebpkiError)
  | tls (e : RustlsError)
  | other
  deriving DecidableEq, Repr

inductive SignatureScheme where
  | RSA_PKCS1_SHA1
  | ECDSA_SHA1_Legacy
  | RSA_PKCS1_SHA256
  | ECDSA_NISTP256_SHA256
  | RSA_PKCS1_SHA384
  | ECDSA_NISTP384_SHA384
  | RSA_PKCS1_SHA512
  | ECDSA_NISTP521_SHA512
  | RSA_PSS_SHA256
  | RSA_PSS_SHA384
  | RSA_PSS_SHA512
  | ED25519
  | ED448
  | Unknown (code : UInt16)
  deriving DecidableEq, Repr

/-- The algorithms of `ring::signature`. -/
inductive VerificationAlgorithm where
  | RSA_PKCS1_2048_8192_SHA256
  | RSA_PKCS1_2048_8192_SHA384
  | RSA_PKCS1_2048_8192_SHA512
  | ECDSA_P256_SHA256_ASN1
  | ECDSA_P384_SHA384_ASN1
  | RSA_PSS_2048_8192_SHA256
  | RSA_PSS_2048_8192_SHA384
  | RSA_PSS_2048_8192_SHA512
  | ED25519
  deriving DecidableEq, Repr

structure UnparsedPublicKey where
  algorithm : VerificationAlgorithm
  bytes : List UInt8
  deriving DecidableEq

/-- A TLS library, for one side of a handshake: what it makes of what the verifier returned for
the peer's certificate and for its signature, and of the chain that was presented. -/
abbrev Tls :=
  Outcome RustlsError Unit → Outcome RustlsError Unit → List (List UInt8) →
    Outcome AnyhowError (List (List UInt8))

/-- Every handshake is a full one, in which the verifier is asked for both: it succeeds exactly
when both are accepted, the chain is kept, and it panics where the verifier does. No session is
resumed, since a resumed one asks for neither. -/
structure Tls.RunsInFull (run : Tls) : Prop where
  succeeds : ∀ presented signed chain kept,
    run presented signed chain = .ok kept ↔ presented = .ok () ∧ signed = .ok () ∧ kept = chain
  panics : ∀ presented signed chain,
    run presented signed chain = .panic ↔ presented = .panic ∨ presented = .ok () ∧ signed = .panic

/-- The first error counts. -/
def Tls.inFull : Tls := fun presented signed chain => do
  presented.mapErr .tls
  signed.mapErr .tls
  return chain

theorem Tls.inFull_runsInFull : Tls.inFull.RunsInFull where
  succeeds presented signed chain kept := by
    cases presented <;> cases signed <;> simp [inFull, Outcome.mapErr, eq_comm]
  panics presented signed chain := by
    cases presented <;> cases signed <;> simp [inFull, Outcome.mapErr]

/-- What the certificate code takes from x509_parser, yasna and ring, and the transports from
rustls, on TCP and below quinn. -/
structure Crates extends KeyCrates where
  parseX509Certificate : List UInt8 → Option X509Certificate
  /-- The general names of the extension, if it is there. An error when it does not parse. -/
  subjectAlternativeName : X509Certificate → Except Unit (Option (List GeneralName))
  /-- `yasna::decode_der` of a sequence of two octet strings -/
  decodeDer : List UInt8 → Option (List UInt8 × List UInt8)
  asOid : List UInt8 → Option Oid
  /-- The hash named by RSASSA-PSS parameters, if they parse as such. -/
  rsassaPssHash : AlgorithmIdentifier → Option Oid
  /-- `UnparsedPublicKey::verify` on a message and a signature -/
  ringVerify : UnparsedPublicKey → List UInt8 → List UInt8 → Bool
  isValidAt : Validity → Int → Bool
  /-- as a client -/
  connects : Tls
  /-- as a server, which asks for a certificate -/
  accepts : Tls
  isValidAt_eq : ∀ validity time, isValidAt validity time = validity.isValidAt time
  connects_runsInFull : connects.RunsInFull
  accepts_runsInFull : accepts.RunsInFull

structure FoctetExtension where
  publicKey : PublicKey
  signature : List UInt8
  deriving DecidableEq

structure FoctetCertificate where
  certificate : X509Certificate
  extension : FoctetExtension
  deriving DecidableEq

variable (C : Crates)

def GeneralName.uri? : GeneralName → Option (List Char)
  | .URI uri => some uri
  | .other => none

/-- `"foctet://"` -/
def uriScheme : List Char := ['f', 'o', 'c', 't', 'e', 't', ':', '/', '/']

/-- The node ID of the subject alternative name. Of `"foctet://"` only the length is used:
which bytes the URI starts with is not looked at. -/
def sanNodeId (cert : X509Certificate) : Outcome WebpkiError NodeId :=
  match C.subjectAlternativeName cert with
  | .ok sanOpt => do
      let generalNames ← Outcome.okOr .BadDer sanOpt
      let uri ← Outcome.okOr .UnknownIssuer (generalNames.findSome? GeneralName.uri?)
      let encoded ← Outcome.orPanic (dropBytes (byteLength uriScheme) uri)
      Outcome.okOr .UnknownIssuer (PublicKey.fromBase32 C.toKeyCrates encoded)
  | .error _ => .err .UnknownIssuer

/-- The loop over the extensions; the node ID and the signature are set together. -/
def extensionLoop (extracted : Option (List UInt8 × List UInt8)) :
    List X509Extension → Outcome WebpkiError (Option (List UInt8 × List UInt8))
  | [] => .ok extracted
  | ext :: rest =>
      if ext.oid = FOCTET_EXT_OID then do
        let decoded ← Outcome.okOr .ExtensionValueInvalid (C.decodeDer ext.value)
        extensionLoop (some decoded) rest
      else extensionLoop extracted rest

def parseUnverified (derInput : List UInt8) : Outcome WebpkiError FoctetCertificate := do
  let x509Cert ← Outcome.okOr .BadDer (C.parseX509Certificate derInput)
  let sanNodeId ← sanNodeId C x509Cert
  let extracted ← extensionLoop C none x509Cert.extensions
  let (nodeIdBytes, signature) ← Outcome.okOr .UnknownIssuer extracted
  let extNodeId ← Outcome.okOr .UnknownIssuer (PublicKey.tryFromBytes C.toKeyCrates nodeIdBytes)
  Outcome.ensure (sanNodeId = extNodeId) .UnknownIssuer
  return { certificate := x509Cert, extension := { publicKey := extNodeId, signature := signature } }

namespace FoctetCertificate

def nodeId (c : FoctetCertificate) : NodeId := c.extension.publicKey

/-- The returns under `pki_algorithm == OID_PKCS1_RSAENCRYPTION`; none when the code falls
through to what follows. -/
def rsaScheme (signatureAlgorithm : AlgorithmIdentifier) :
    Option (Outcome WebpkiError SignatureScheme) :=
  if signatureAlgorithm.algorithm = .PKCS1_SHA256WITHRSA then some (.ok .RSA_PKCS1_SHA256)
  else if signatureAlgorithm.algorithm = .PKCS1_SHA384WITHRSA then some (.ok .RSA_PKCS1_SHA384)
  else if signatureAlgorithm.algorithm = .PKCS1_SHA512WITHRSA then some (.ok .RSA_PKCS1_SHA512)
  else if signatureAlgorithm.algorithm = .PKCS1_RSASSAPSS then
    match C.rsassaPssHash signatureAlgorithm with
    | some hashOid =>
        if hashOid = .NIST_HASH_SHA256 then some (.ok .RSA_PSS_SHA256)
        else if hashOid = .NIST_HASH_SHA384 then some (.ok .RSA_PSS_SHA384)
        else if hashOid = .NIST_HASH_SHA512 then some (.ok .RSA_PSS_SHA512)
        else some (.err .UnsupportedSignatureAlgorithm)
    | none => some (.err .UnsupportedSignatureAlgorithm)
  else none

/-- The branch under `pki_algorithm == OID_KEY_TYPE_EC_PUBLIC_KEY`. -/
def ecScheme (pkiAlgorithm signatureAlgorithm : AlgorithmIdentifier) :
    Outcome WebpkiError SignatureScheme := do
  let parameters ← Outcome.okOr .BadDer pkiAlgorithm.parameters
  let signatureParam ← Outcome.okOr .BadDer (C.asOid parameters)
  if signatureParam = .EC_P256 ∧ signatureAlgorithm.algorithm = .SIG_ECDSA_WITH_SHA256 then
    .ok .ECDSA_NISTP256_SHA256
  else if signatureParam = .NIST_EC_P384 ∧ signatureAlgorithm.algorithm = .SIG_ECDSA_WITH_SHA384 then
    .ok .ECDSA_NISTP384_SHA384
  else if signatureParam = .NIST_EC_P521 ∧ signatureAlgorithm.algorithm = .SIG_ECDSA_WITH_SHA512 then
    .ok .ECDSA_NISTP521_SHA512
  else .err .UnsupportedSignatureAlgorithm

def signatureScheme (c : FoctetCertificate) : Outcome WebpkiError SignatureScheme :=
  let signatureAlgorithm := c.certificate.signatureAlgorithm
  let pkiAlgorithm := c.certificate.subjectPki.algorithm
  match if pkiAlgorithm.algorithm = .PKCS1_RSAENCRYPTION then rsaScheme C signatureAlgorithm else none with
  | some returned => returned
  | none =>
      if pkiAlgorithm.algorithm = .KEY_TYPE_EC_PUBLIC_KEY then ecScheme C pkiAlgorithm signatureAlgorithm
      else if signatureAlgorithm.algorithm = .SIG_ED25519 then .ok .ED25519
      else if signatureAlgorithm.algorithm = .SIG_ED448 then .ok .ED448
      else .err .UnsupportedSignatureAlgorithm

/-- The algorithm of ring for a scheme. P-521 and Ed448 are not in ring, and SHA-1 and
what is unknown are refused. -/
def verificationAlgorithm : SignatureScheme → Outcome WebpkiError VerificationAlgorithm
  | .RSA_PKCS1_SHA256 => .ok .RSA_PKCS1_2048_8192_SHA256
  | .RSA_PKCS1_SHA384 => .ok .RSA_PKCS1_2048_8192_SHA384
  | .RSA_PKCS1_SHA512 => .ok .RSA_PKCS1_2048_8192_SHA512
  | .ECDSA_NISTP256_SHA256 => .ok .ECDSA_P256_SHA256_ASN1
  | .ECDSA_NISTP384_SHA384 => .ok .ECDSA_P384_SHA384_ASN1
  | .ECDSA_NISTP521_SHA512 => .err .UnsupportedSignatureAlgorithm
  | .RSA_PSS_SHA256 => .ok .RSA_PSS_2048_8192_SHA256
  | .RSA_PSS_SHA384 => .ok .RSA_PSS_2048_8192_SHA384
  | .RSA_PSS_SHA512 => .ok .RSA_PSS_2048_8192_SHA512
  | .ED25519 => .ok .ED25519
  | .ED448 => .err .UnsupportedSignatureAlgorithm
  | .RSA_PKCS1_SHA1 => .err .UnsupportedSignatureAlgorithm
  | .ECDSA_SHA1_Legacy => .err .UnsupportedSignatureAlgorithm
  | .Unknown _ => .err .UnsupportedSignatureAlgorithm

def publicKey (c : FoctetCertificate) (signatureScheme : SignatureScheme) :
    Outcome WebpkiError UnparsedPublicKey := do
  let currentSignatureScheme ← c.signatureScheme C
  Outcome.ensure (signatureScheme = currentSignatureScheme) .UnsupportedSignatureAlgorithmForPublicKey
  let algorithm ← verificationAlgorithm signatureScheme
  return { algorithm := algorithm, bytes := c.certificate.subjectPki.subjectPublicKey }

def verifySignature (c : FoctetCertificate) (signatureScheme : SignatureScheme)
    (message signature : List UInt8) : Outcome WebpkiError Unit := do
  let pk ← c.publicKey C signatureScheme
  Outcome.ensure (C.ringVerify pk message signature) .InvalidSignatureForPublicKey

/-- The message that the node key signs for a certificate key. -/
def signingMsg (c : FoctetCertificate) : List UInt8 :=
  FOCTET_SIGNING_PREFIX ++ c.certificate.subjectPki.raw

def verify (now : Int) (c : FoctetCertificate) : Outcome WebpkiError Unit := do
  Outcome.ensure (C.isValidAt c.certificate.validity now) .InvalidCertValidity
  let signatureScheme ← c.signatureScheme C
  (c.verifySignature C signatureScheme c.certificate.tbsCertificate
    c.certificate.signatureValue).mapErr fun _ => .SignatureAlgorithmMismatch
  Outcome.ensure (c.extension.publicKey.verify C.toKeyCrates c.signingMsg c.extension.signature)
    .InvalidSignatureForPublicKey

end FoctetCertificate

/-- `cert::parse`, at the time `now`. -/
def parse (now : Int) (cert : List UInt8) : Outcome WebpkiError FoctetCertificate := do
  let cert ← parseUnverified C cert
  cert.verify C now
  return cert

end Foctet.Net
