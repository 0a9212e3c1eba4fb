import Foctet.Core.Uuid
import Foctet.Net.Accepting

/-! The certificates that nodes make for themselves. What `generate` makes of a keypair passes
every check of another node until it runs out and names the node of the keypair, so two nodes
that run this code authenticate each other whichever way they meet. -/
namespace Foctet.Net
open Foctet.Core Foctet.Lib

/-! ### Making a certificate -/

structure Ia5String where
  text : List Char
  ascii : text.all (fun c => c.toNat < 128) = true

def Ia5String.tryFrom (text : List Char) : Option Ia5String :=
  if ascii : text.all (fun c => c.toNat < 128) = true then some ⟨text, ascii⟩ else none

/-- The parameters that differ from rcgen's own. -/
structure CertificateParams where
  /-- all of them URIs -/
  subjectAltNames : List Ia5String
  customExtensions : List X509Extension

/-- What a certificate with these parameters for this key holds. -/
structure X509Certificate.Carries (params : CertificateParams) (subjectPki : SubjectPublicKeyInfo)
    (validity : Validity) (cert : X509Certificate) : Prop where
  subjectPki : cert.subjectPki = subjectPki
  validity : cert.validity = validity
  /-- custom extensions come last -/
  extensions : ∃ standard, cert.extensions = standard ++ params.customExtensions ∧
    ∀ ext ∈ standard, ext.oid ≠ FOCTET_EXT_OID
  signatureAlgorithm : cert.signatureAlgorithm.algorithm = .SIG_ECDSA_WITH_SHA256

/-- What `generate` takes from the other crates besides. What rcgen draws for a certificate, a
keypair on P-256 and the nonce of its signature, is of type `K`. What one crate writes the others
read. -/
structure GenCrates (K : Type) extends Crates where
  /-- in the alphabet of `base32Decode` -/
  base32Encode : List UInt8 → List Char
  /-- `Keypair::sign` -/
  sign : Keypair → List UInt8 → List UInt8
  /-- whose bytes are `public_key_der` -/
  subjectPki : K → SubjectPublicKeyInfo
  /-- a message and one of its signatures with ECDSA on P-256 with SHA-256, by rcgen and by
  rustls -/
  Signs : K → List UInt8 → List UInt8 → Prop
  /-- `yasna::construct_der` of a sequence of two octet strings -/
  constructDer : List UInt8 → List UInt8 → List UInt8
  selfSigned : CertificateParams → K → Option (List UInt8)
  /-- of a certificate for which no other is asked -/
  defaultValidity : Validity
  base32Encode_ascii : ∀ bytes, ∀ c ∈ base32Encode bytes, c.toNat < 128
  base32Decode_encode : ∀ bytes, base32Decode (base32Encode bytes) = some bytes
  decodeDer_construct : ∀ first second, decodeDer (constructDer first second) = some (first, second)
  namedCurve : ∀ key, ∃ parameters,
    (subjectPki key).algorithm = ⟨.KEY_TYPE_EC_PUBLIC_KEY, some parameters⟩ ∧
      asOid parameters = some .EC_P256
  signs_verifies : ∀ key message signature, Signs key message signature →
    ringVerify ⟨.ECDSA_P256_SHA256_ASN1, (subjectPki key).subjectPublicKey⟩ message signature = true
  selfSigned_parses : ∀ params key der, params.subjectAltNames ≠ [] →
    selfSigned params key = some der → ∃ cert, parseX509Certificate der = some cert ∧
      cert.Carries params (subjectPki key) defaultValidity ∧
      subjectAlternativeName cert = .ok (some (params.subjectAltNames.map fun uri => .URI uri.text)) ∧
      Signs key cert.tbsCertificate cert.signatureValue

namespace GenCrates
variable {K : Type} (G : GenCrates K)

/-- `cert::generate`, given what `KeyPair::generate_for` returns. -/
def generate (generated : Option K) (identity : Keypair) : Option (List UInt8 × K) := do
  let nodeId := identity.publicKey
  let nodeIdUri := uriScheme ++ G.base32Encode nodeId.publicKey
  let certificateKeypair ← generated
  let uri ← Ia5String.tryFrom nodeIdUri
  let signingMsg := FOCTET_SIGNING_PREFIX ++ (G.subjectPki certificateKeypair).raw
  let signature := G.sign identity signingMsg
  let signedExtension := G.constructDer nodeId.publicKey signature
  let params : CertificateParams :=
    { subjectAltNames := [uri], customExtensions := [⟨FOCTET_EXT_OID, signedExtension⟩] }
  let certificate ← G.selfSigned params certificateKeypair
  return (certificate, certificateKeypair)

/-- The certificates that a process makes, with what it drew for them one after the other. -/
def generateFor (drawn : Nat → Option K) (draw : Nat) (identity : Keypair) : Option (List UInt8) :=
  (G.generate (drawn draw) identity).map Prod.fst

/-- The two halves of the keypair belong together. -/
structure Genuine (identity : Keypair) : Prop where
  point : G.verifyingKeyFromBytes identity.publicKey.publicKey = true
  signs : ∀ message, G.signatureTryFrom (G.sign identity message) = true ∧
    G.verify identity.publicKey.publicKey message (G.sign identity message) = true

/-- What rustls sends for a node with a certificate of its own: the certificate alone and a
signature with its private key, while it is valid. -/
structure Speaks (drawn : Nat → Option K) (certificate : List UInt8) (privateKey : Nat)
    (peer : PeerAnswer) : Prop where
  endEntity : peer.endEntity = certificate
  alone : peer.intermediates = []
  scheme : peer.scheme = .ECDSA_NISTP256_SHA256
  signature : ∃ key, drawn privateKey = some key ∧ G.Signs key peer.message peer.signature
  valid : ∀ time ∈ [peer.presentedAt, peer.signedAt, peer.extractedAt],
    G.defaultValidity.isValidAt time = true

end GenCrates

/-! ### Reading it back -/

section generated
variable {K : Type} {G : GenCrates K} {identity : Keypair} {key : K} {der : List UInt8}

theorem tryFromBytes_self {k : PublicKey} (point : G.verifyingKeyFromBytes k.publicKey = true) :
    PublicKey.tryFromBytes G.toKeyCrates k.publicKey = some k := by
  rw [PublicKey.tryFromBytes, dif_pos k.length, if_pos point]

theorem Ia5String.tryFrom_eq_some {text : List Char} {uri : Ia5String}
    (made : Ia5String.tryFrom text = some uri) : uri.text = text := by
  unfold Ia5String.tryFrom at made
  split at made
  · exact (congrArg Ia5String.text (Option.some.inj made)).symm
  · cases made

/-- The node's signature of a certificate key. -/
def GenCrates.possession (G : GenCrates K) (identity : Keypair) (key : K) : List UInt8 :=
  G.sign identity (FOCTET_SIGNING_PREFIX ++ (G.subjectPki key).raw)

/-- The parameters of the node's certificate. -/
structure GenCrates.Names (G : GenCrates K) (identity : Keypair) (key : K) (params : CertificateParams) :
    Prop where
  uri : ∃ uri, params.subjectAltNames = [uri] ∧
    uri.text = uriScheme ++ G.base32Encode identity.publicKey.publicKey
  extension : params.customExtensions =
    [⟨FOCTET_EXT_OID, G.constructDer identity.publicKey.publicKey (G.possession identity key)⟩]

theorem generate_eq_some {drawn : Option K} (made : G.generate drawn identity = some (der, key)) :
    drawn = some key ∧ ∃ params, G.Names identity key params ∧ G.selfSigned params key = some der := by
  simp only [GenCrates.generate, Option.bind_eq_bind, Option.bind_eq_some_iff, Option.pure_def,
    Option.some.injEq, Prod.mk.injEq] at made
  obtain ⟨_, drew, uri, text, _, signed, rfl, rfl⟩ := made
  exact ⟨drew, _, ⟨⟨uri, rfl, Ia5String.tryFrom_eq_some text⟩, rfl⟩, signed⟩

section carried
variable {params : CertificateParams} {cert : X509Certificate} {c : FoctetCertificate}

theorem signatureScheme_of_carries (carries : c.certificate.Carries params (G.subjectPki key) G.defaultValidity) :
    c.signatureScheme G.toCrates = .ok .ECDSA_NISTP256_SHA256 := by
  obtain ⟨parameters, algorithm, curve⟩ := G.namedCurve key
  have distinct : Oid.KEY_TYPE_EC_PUBLIC_KEY ≠ Oid.PKCS1_RSAENCRYPTION := by decide
  simp only [FoctetCertificate.signatureScheme, carries.subjectPki, algorithm, if_neg distinct,
    FoctetCertificate.ecScheme, Outcome.okOr, Outcome.ok_bind, curve, carries.signatureAlgorithm,
    and_self, if_true]

theorem keyVerifies_of_carries (carries : c.certificate.Carries params (G.subjectPki key) G.defaultValidity)
    {message signature : List UInt8} (signed : G.Signs key message signature) :
    c.KeyVerifies G.toCrates .ECDSA_NISTP256_SHA256 message signature := by
  refine ⟨_, rfl, ?_⟩
  rw [carries.subjectPki]
  exact G.signs_verifies key message signature signed

theorem sanNodeId_of_names (genuine : G.Genuine identity) (names : G.Names identity key params)
    (read : G.subjectAlternativeName cert =
      .ok (some (params.subjectAltNames.map fun uri => .URI uri.text))) :
    sanNodeId G.toCrates cert = .ok identity.publicKey := by
  obtain ⟨uri, alone, text⟩ := names.uri
  refine sanNodeId_eq_ok.mpr ⟨uri.text, G.base32Encode identity.publicKey.publicKey, ?_, ?_, ?_⟩
  · rw [sanUri, read, alone]
    rfl
  · rw [text]
    exact dropBytes_append _ _
  · rw [PublicKey.fromBase32, G.base32Decode_encode]
    exact tryFromBytes_self genuine.point

/-- No other extension is taken for the one of the node. -/
theorem extensionHolds_of_carries (genuine : G.Genuine identity) (names : G.Names identity key params)
    (carries : cert.Carries params (G.subjectPki key) G.defaultValidity) :
    ExtensionHolds G.toCrates cert.extensions identity.publicKey (G.possession identity key) := by
  obtain ⟨standard, extensions, others⟩ := carries.extensions
  rw [extensions, names.extension]
  constructor
  · intro ext there own
    rcases List.mem_append.mp there with standardOne | custom
    · exact absurd own (others ext standardOne)
    · rw [List.mem_singleton.mp custom, G.decodeDer_construct]
      rfl
  · exact ⟨_, _, ⟨standard, [], rfl, rfl, List.forall_mem_nil _⟩, G.decodeDer_construct _ _,
      tryFromBytes_self genuine.point⟩

theorem possession_verifies (genuine : G.Genuine identity) (key : K) :
    identity.publicKey.verify G.toKeyCrates (FOCTET_SIGNING_PREFIX ++ (G.subjectPki key).raw)
      (G.possession identity key) = true := by
  obtain ⟨formed, verified⟩ := genuine.signs (FOCTET_SIGNING_PREFIX ++ (G.subjectPki key).raw)
  exact Bool.and_eq_true_iff.mpr ⟨Bool.and_eq_true_iff.mpr ⟨formed, genuine.point⟩, verified⟩

end carried

/-- What was generated reads back as a certificate of the node, whose key signs for it. -/
structure Generated (G : GenCrates K) (identity : Keypair) (key : K) (der : List UInt8)
    (c : FoctetCertificate) : Prop where
  nodeId : c.nodeId = identity.publicKey
  parsed : ∀ now, G.defaultValidity.isValidAt now = true → parse G.toCrates now der = .ok c
  validity : c.certificate.validity = G.defaultValidity
  scheme : c.signatureScheme G.toCrates = .ok .ECDSA_NISTP256_SHA256
  signs : ∀ message signature, G.Signs key message signature →
    c.KeyVerifies G.toCrates .ECDSA_NISTP256_SHA256 message signature

theorem generated_of_generate {drawn : Option K} (genuine : G.Genuine identity)
    (made : G.generate drawn identity = some (der, key)) : ∃ c, Generated G identity key der c := by
  obtain ⟨-, params, names, signed⟩ := generate_eq_some made
  have named : params.subjectAltNames ≠ [] := by
    obtain ⟨uri, alone, -⟩ := names.uri
    rw [alone]
    exact List.cons_ne_nil _ _
  obtain ⟨cert, parsed, carries, read, selfSignature⟩ := G.selfSigned_parses params key der named signed
  let c : FoctetCertificate := ⟨cert, identity.publicKey, G.possession identity key⟩
  have whole : c.certificate.Carries params (G.subjectPki key) G.defaultValidity := carries
  have scheme := signatureScheme_of_carries whole
  refine ⟨c, rfl, fun now valid => ?_, carries.validity, scheme,
    fun _ _ => keyVerifies_of_carries whole⟩
  refine parse_eq_ok.mpr ⟨parseUnverified_eq_ok.mpr ⟨parsed, sanNodeId_of_names genuine names read,
    extensionHolds_of_carries genuine names carries⟩, ?_⟩
  refine FoctetCertificate.verify_eq_ok.mpr ⟨?_, ⟨_, scheme, ?_⟩, ?_⟩
  · rw [whole.validity]
    exact valid
  · exact keyVerifies_of_carries whole selfSignature
  · rw [FoctetCertificate.signingMsg, whole.subjectPki]
    exact possession_verifies genuine key

/-- A node that speaks with its own certificate presents itself. -/
theorem GenCrates.Speaks.presents {drawn : Nat → Option K} {draw : Nat} {peer : PeerAnswer}
    (speaks : G.Speaks drawn der draw peer) (genuine : G.Genuine identity)
    (made : G.generateFor drawn draw identity = some der) : Presents G.toCrates peer identity.publicKey := by
  obtain ⟨⟨certificate, key⟩, generated, rfl⟩ := Option.map_eq_some_iff.mp made
  obtain ⟨c, own⟩ := generated_of_generate genuine generated
  obtain ⟨_, drew, signature⟩ := speaks.signature
  obtain rfl := Option.some.inj (drew.symm.trans (generate_eq_some generated).1)
  obtain ⟨presentedAt, rest⟩ := List.forall_mem_cons.mp speaks.valid
  obtain ⟨signedAt, last⟩ := List.forall_mem_cons.mp rest
  refine ⟨speaks.alone, c, own.nodeId, ?_, ?_, ?_, ?_, ?_⟩
  · rw [speaks.endEntity]
    exact own.parsed _ presentedAt
  · rw [speaks.scheme]
    exact own.scheme
  · rw [speaks.scheme]
    exact own.signs _ _ signature
  · rw [own.validity]
    exact signedAt
  · rw [own.validity]
    exact last _ (List.mem_singleton.mpr rfl)

end generated

theorem Presents.unique {C : Crates} {peer : PeerAnswer} {m n : NodeId} (first : Presents C peer m)
    (second : Presents C peer n) : m = n := by
  obtain ⟨c, rfl, parsed, -⟩ := first.certificate
  obtain ⟨d, rfl, again, -⟩ := second.certificate
  rw [parse_unique parsed again]

/-! ### The configurations of an endpoint -/

/-- Both configurations present a certificate of the keypair, made with their private key. -/
def TransportConfig.Certified (generate : Nat → Keypair → Option (List UInt8)) (config : TransportConfig) :
    Prop :=
  generate config.clientTlsConfig.privateKey config.keypair = some config.clientTlsConfig.certificate ∧
    generate config.serverTlsConfig.privateKey config.keypair = some config.serverTlsConfig.certificate

section built
variable {A : Type} {S : StackAddrs A} {generate : Nat → Keypair → Option (List UInt8)} {draw : Nat}
  {keypair : Keypair}

theorem makeClientConfig_certified {remoteNodeId : Option NodeId} {client : ClientConfig}
    (made : makeClientConfig generate draw keypair remoteNodeId = some client) :
    generate client.privateKey keypair = some client.certificate := by
  obtain ⟨certificate, generated, same⟩ := Option.bind_eq_some_iff.mp made
  obtain rfl := Option.some.inj same
  exact generated

theorem makeServerConfig_certified {server : ServerConfig}
    (made : makeServerConfig generate draw keypair = some server) :
    generate server.privateKey keypair = some server.certificate := by
  obtain ⟨certificate, generated, same⟩ := Option.bind_eq_some_iff.mp made
  obtain rfl := Option.some.inj same
  exact generated

theorem TransportConfig.new_certified {config : TransportConfig}
    (made : TransportConfig.new generate draw keypair = some config) : config.Certified generate := by
  obtain ⟨client, clientMade, rest⟩ := Option.bind_eq_some_iff.mp made
  obtain ⟨server, serverMade, same⟩ := Option.bind_eq_some_iff.mp rest
  obtain rfl := Option.some.inj same
  exact ⟨makeClientConfig_certified clientMade, makeServerConfig_certified serverMade⟩

theorem TransportConfig.setKeypair_certified {config config' : TransportConfig}
    (made : config.setKeypair generate draw keypair = some config') : config'.Certified generate := by
  obtain ⟨client, clientMade, rest⟩ := Option.bind_eq_some_iff.mp made
  obtain ⟨server, serverMade, same⟩ := Option.bind_eq_some_iff.mp rest
  obtain rfl := Option.some.inj same
  exact ⟨makeClientConfig_certified clientMade, makeServerConfig_certified serverMade⟩

namespace EndpointBuilder
variable [DecidableEq A] {b b' : EndpointBuilder A}

/-- Only another keypair changes the certificates, and then both. -/
theorem apply_certified {call : BuilderCall A} (applied : b.apply S generate call = .ok b')
    (certified : b.config.Certified generate) : b'.config.Certified generate := by
  cases call with
  | withKeypair draw keypair =>
      obtain ⟨config, made, same⟩ := Outcome.bind_eq_ok.mp applied
      obtain rfl := Outcome.ok.inj same
      exact TransportConfig.setKeypair_certified (Outcome.orPanic_eq_ok.mp made)
  | withAddr addr =>
      obtain ⟨transport, -, rest⟩ := Outcome.bind_eq_ok.mp applied
      obtain ⟨proto, -, same⟩ := Outcome.bind_eq_ok.mp rest
      obtain rfl := Outcome.ok.inj same
      rw [pushProtocol_config]
      exact certified
  | withQuic =>
      obtain rfl := Outcome.ok.inj applied
      rw [pushProtocol_config]
      exact certified
  | withTcp =>
      obtain rfl := Outcome.ok.inj applied
      rw [pushProtocol_config]
      exact certified
  | _ =>
      obtain rfl := Outcome.ok.inj applied
      exact certified

theorem Reachable.certified (reachable : b.Reachable S generate) : b.config.Certified generate := by
  obtain ⟨draw, keypair, start, calls, started, ran⟩ := reachable
  refine Outcome.foldlM_invariant (fun b : EndpointBuilder A => b.config.Certified generate)
    (fun _ _ _ applied certified => apply_certified applied certified) ran ?_
  rcases started with started | started
  · obtain ⟨config, made, same⟩ := Outcome.bind_eq_ok.mp started
    obtain rfl := Outcome.ok.inj same
    exact TransportConfig.new_certified (Outcome.orPanic_eq_ok.mp made)
  · obtain ⟨config, made, same⟩ := Outcome.bind_eq_ok.mp started
    obtain rfl := Outcome.ok.inj same
    exact TransportConfig.new_certified (Outcome.orPanic_eq_ok.mp made)

end EndpointBuilder

/-! ### Both ends of a connection -/

variable {C : Crates} {config : TransportConfig} {t t' : Transport} {w : Attempt} {addr localAddr : A}
  {conn : Connection A} {remote : SocketAddr} {peer : PeerAnswer} {n : NodeId}

theorem Transport.connect_localNodeId (made : t.MadeWith config)
    (connected : t.connect S C w addr = .ok (conn, t')) :
    conn.data.localNodeId = config.keypair.publicKey := by
  cases t with
  | Quic t =>
      obtain ⟨⟨_, _⟩, own, same⟩ := Outcome.bind_eq_ok.mp connected
      obtain ⟨rfl, -⟩ := Prod.mk.inj (Outcome.ok.inj same)
      simp only [QuicTransport.connect, Outcome.bind_eq_ok, Outcome.pure_eq, Outcome.ok.injEq,
        Prod.mk.injEq] at own
      obtain ⟨-, -, -, -, -, -, -, -, -, -, -, -, -, -, rfl, -⟩ := own
      exact congrArg QuicTransport.localNodeId made
  | Tcp t =>
      obtain ⟨⟨_, _⟩, own, same⟩ := Outcome.bind_eq_ok.mp connected
      obtain ⟨rfl, -⟩ := Prod.mk.inj (Outcome.ok.inj same)
      simp only [TcpTransport.connect, Outcome.bind_eq_ok, Outcome.pure_eq, Outcome.ok.injEq,
        Prod.mk.injEq] at own
      obtain ⟨-, -, -, -, -, -, -, -, -, -, -, -, -, -, rfl, -⟩ := own
      exact congrArg TcpTransport.localNodeId made

/-- A client that presents itself is let in. -/
theorem Transport.establish_of_presents (made : t.MadeWith config) (presents : Presents C peer n) :
    ∃ conn, t.establish S C localAddr remote peer = (.made conn, t.advance) ∧
      conn.remoteNodeId = n ∧ conn.Inbound config localAddr := by
  have letIn : ∀ server : ServerConfig, ∃ certs, tlsAccept C server peer = .ok certs ∧
      extractRemoteNodeId C peer.extractedAt (some certs) = .ok n :=
    fun server => Outcome.bind_eq_ok.mp (tlsAccept_extract_eq_ok.mpr presents)
  cases t with
  | Quic t =>
      obtain ⟨certs, accepted, read⟩ := letIn t.serverConfig
      cases made
      simp only [Transport.establish, QuicTransport.establish, accepted, read]
      exact ⟨_, rfl, rfl, rfl, rfl, rfl, rfl, rfl⟩
  | Tcp t =>
      obtain ⟨certs, accepted, read⟩ := letIn t.tlsAcceptor
      have own : t.localNodeId = _ := congrArg TcpTransport.localNodeId made
      have write : t.writeBufferSize = _ := congrArg TcpTransport.writeBufferSize made
      have room : t.readBufferSize = _ := congrArg TcpTransport.readBufferSize made
      simp only [Transport.establish, TcpTransport.establish, accepted, read]
      exact ⟨_, rfl, rfl, rfl, rfl, own, write, room⟩

theorem Endpoint.attempt_localNodeId [DecidableEq A] {b : EndpointBuilder A} {builtOn : Option Interface}
    {network : A → Attempt} {candidate : TransportKind × A} {e' : Endpoint A}
    (enabled : candidate.1 ∈ b.protocols)
    (attempted : (b.build S builtOn).1.attempt S C network candidate = .ok (conn, e')) :
    conn.data.localNodeId = b.config.keypair.publicKey := by
  simp only [Endpoint.attempt, Endpoint.dial, EndpointBuilder.build_transport builtOn enabled,
    Outcome.okOr, Outcome.ok_bind] at attempted
  obtain ⟨⟨_, t'⟩, connected, same⟩ := Outcome.bind_eq_ok.mp attempted
  obtain ⟨rfl, -⟩ := Prod.mk.inj (Outcome.ok.inj same)
  exact Transport.connect_localNodeId (Transport.madeWith_transportOf _ _) connected

end built

/-- Two endpoints, whatever calls their builders went through. As long as nobody but `b` answers
at the addresses of `b`, `a` gets a connection exactly when `b` answers at one of them, and
it is a connection between the two; and every listener of `b` lets `a` in as itself. -/
theorem honest_nodes_connect {A K : Type} [DecidableEq A] (S : StackAddrs A) (G : GenCrates K)
    (drawnA drawnB : Nat → Option K) (a b : EndpointBuilder A) (builtOn : Option Interface)
    (reachableA : a.Reachable S (G.generateFor drawnA)) (reachableB : b.Reachable S (G.generateFor drawnB))
    (genuineA : G.Genuine a.config.keypair) (genuineB : G.Genuine b.config.keypair)
    (network : A → Attempt) (iface : Interface) (addr : NodeAddr A)
    (nobodyElse : ∀ candidate ∈ (a.build S builtOn).1.candidates S iface addr, ∀ peer,
      Answers S candidate.1 (network candidate.2) candidate.2 peer →
        G.Speaks drawnB b.config.serverTlsConfig.certificate b.config.serverTlsConfig.privateKey peer) :
    ((∃ conn e', (a.build S builtOn).1.connectNode S G.toCrates network (.ok iface) addr = .ok (conn, e')) ↔
      ∃ candidate ∈ (a.build S builtOn).1.candidates S iface addr, ∃ peer,
        Answers S candidate.1 (network candidate.2) candidate.2 peer) ∧
    (∀ conn e', (a.build S builtOn).1.connectNode S G.toCrates network (.ok iface) addr = .ok (conn, e') →
      conn.data.localNodeId = a.config.keypair.publicKey ∧
      conn.remoteNodeId = b.config.keypair.publicKey) ∧
    ∀ (t : Transport) localAddr remote peer, t.MadeWith b.config →
      G.Speaks drawnA a.config.clientTlsConfig.certificate a.config.clientTlsConfig.privateKey peer →
      ∃ conn : Connection A, t.establish S G.toCrates localAddr remote peer = (.made conn, t.advance) ∧
        conn.data.localNodeId = b.config.keypair.publicKey ∧
        conn.remoteNodeId = a.config.keypair.publicKey := by
  have wellBuilt := EndpointBuilder.build_wellBuilt (S := S) reachableA.kept builtOn
  have presents : ∀ candidate ∈ (a.build S builtOn).1.candidates S iface addr, ∀ peer,
      Answers S candidate.1 (network candidate.2) candidate.2 peer →
        Presents G.toCrates peer b.config.keypair.publicKey := fun candidate there peer answers =>
    (nobodyElse candidate there peer answers).presents genuineB reachableB.certified.2
  have inverted : ∀ conn e',
      (a.build S builtOn).1.connectNode S G.toCrates network (.ok iface) addr = .ok (conn, e') →
      ∃ candidate ∈ (a.build S builtOn).1.candidates S iface addr,
        (a.build S builtOn).1.attempt S G.toCrates network candidate = .ok (conn, e') := by
    intro conn e' connected
    rw [wellBuilt.connectNode_eq] at connected
    obtain ⟨found, tried, same⟩ := Outcome.bind_eq_ok.mp connected
    obtain rfl := Outcome.okOr_eq_ok.mp same
    obtain ⟨before, candidate, after, order, -, first⟩ := Outcome.firstOk_eq_ok.mp tried
    exact ⟨candidate, by rw [order]; simp, first⟩
  refine ⟨⟨?_, ?_⟩, ?_, ?_⟩
  · rintro ⟨conn, e', connected⟩
    obtain ⟨candidate, there, attempted⟩ := inverted conn e' connected
    obtain ⟨peer, answers, -⟩ := (wellBuilt.attempt_eq_ok there).mp ⟨_, attempted, rfl⟩
    exact ⟨candidate, there, peer, answers⟩
  · rintro ⟨candidate, there, peer, answers⟩
    obtain ⟨result, attempted, -⟩ := (wellBuilt.attempt_eq_ok there).mpr
      ⟨peer, answers, presents candidate there peer answers⟩
    have calm : ∀ other ∈ (a.build S builtOn).1.candidates S iface addr,
        (a.build S builtOn).1.attempt S G.toCrates network other ≠ .panic := by
      intro other among panicked
      obtain ⟨peer, answers, deadly⟩ := (wellBuilt.attempt_eq_panic among).mp panicked
      exact (presents other among peer answers).not_panics deadly
    obtain ⟨⟨conn, e'⟩, found⟩ := Outcome.firstOk_of_mem calm there attempted
    refine ⟨conn, e', ?_⟩
    rw [wellBuilt.connectNode_eq, found]
    rfl
  · intro conn e' connected
    obtain ⟨candidate, there, attempted⟩ := inverted conn e' connected
    constructor
    · refine Endpoint.attempt_localNodeId ?_ attempted
      rw [← EndpointBuilder.build_priorities (S := S) reachableA.kept builtOn]
      exact tried_proto there
    · obtain ⟨peer, answers, presented⟩ := (wellBuilt.attempt_eq_ok there).mp ⟨_, attempted, rfl⟩
      exact presented.unique (presents candidate there peer answers)
  · intro t localAddr remote peer made speaks
    obtain ⟨conn, established, named, inbound⟩ := Transport.establish_of_presents (S := S) (t := t) made
      (speaks.presents genuineA reachableA.certified.1)
    exact ⟨conn, established, inbound.localNodeId, named⟩

namespace Sample

/-- Two parts as one row of bytes. -/
def pack (first second : List UInt8) : List UInt8 := first.flatMap (fun byte => [1, byte]) ++ 0 :: second

def unpack : List UInt8 → Option (List UInt8 × List UInt8)
  | 1 :: byte :: rest => (unpack rest).map fun parts => (byte :: parts.1, parts.2)
  | 0 :: rest => some ([], rest)
  | _ => none

theorem unpack_pack (first second : List UInt8) : unpack (pack first second) = some (first, second) := by
  induction first with
  | nil => rfl
  | cons byte first ih =>
      change (unpack (pack first second)).map _ = _
      rw [ih]
      rfl

def ofAscii (bytes : List UInt8) : List Char := bytes.map fun byte => Char.ofNat byte.toNat

theorem ofAscii_ascii {text : List Char} (plain : text.all (fun c => c.toNat < 128) = true) :
    ofAscii (ascii text) = text := by
  induction text with
  | nil => rfl
  | cons c text ih =>
      rw [List.all_cons, Bool.and_eq_true, decide_eq_true_eq] at plain
      have byte : (c.toNat.toUInt8).toNat = c.toNat := Nat.mod_eq_of_lt (by omega)
      have head : Char.ofNat (c.toNat.toUInt8).toNat = c := by
        rw [byte]
        exact Char.ofNat_toNat c
      exact congrArg₂ List.cons head (ih plain.2)

theorem base32_ascii (bytes : List UInt8) :
    ∀ c ∈ DigitText.encode Core.Sample.base32Digits bytes, c.toNat < 128 := by
  intro c there
  obtain ⟨group, -, rfl⟩ := List.mem_map.mp there
  have plain : Core.Sample.base32Digits.digits.all (fun c => c.toNat < 128) = true := by decide
  rw [DigitText.digit]
  cases found : Core.Sample.base32Digits.digits[DigitText.ofBits group]? with
  | none => decide
  | some c => exact of_decide_eq_true (List.all_eq_true.mp plain c (List.mem_of_getElem? found))

theorem base32_decodes (bytes : List UInt8) :
    DigitText.decode Core.Sample.base32Digits (DigitText.encode Core.Sample.base32Digits bytes) = some bytes :=
  DigitText.decode_encode _ (by decide) (by decide) bytes

/-- The key of a draw. -/
def drawnPki (key : UInt8) : SubjectPublicKeyInfo :=
  { subjectPki with subjectPublicKey := key :: certificateKey, raw := key :: subjectPki.raw }

/-- From 1975 to 4096. -/
def defaultValidity : Validity := ⟨157766400, 67090118400⟩

/-- A certificate of one URI and one extension. A drawn key signs a message by standing before
it, and a node by repeating it behind the node ID. -/
def packedCertificate (key : UInt8) (uri value : List UInt8) : X509Certificate where
  tbsCertificate := pack uri value
  subjectPki := drawnPki key
  validity := defaultValidity
  extensions := [⟨[2, 5, 29, 17], uri⟩, ⟨FOCTET_EXT_OID, value⟩]
  signatureAlgorithm := ⟨.SIG_ECDSA_WITH_SHA256, none⟩
  signatureValue := key :: pack uri value

def parsePacked : List UInt8 → Option X509Certificate
  | key :: rest => (unpack rest).map fun parts => packedCertificate key parts.1 parts.2
  | [] => none

def selfSigned (params : CertificateParams) (key : UInt8) : Option (List UInt8) :=
  match params.subjectAltNames, params.customExtensions with
  | [uri], [ext] => if ext.oid = FOCTET_EXT_OID then some (key :: pack (ascii uri.text) ext.value) else none
  | _, _ => none

theorem selfSigned_eq_some {params : CertificateParams} {key : UInt8} {der : List UInt8}
    (signed : selfSigned params key = some der) :
    ∃ uri ext, params.subjectAltNames = [uri] ∧ params.customExtensions = [ext] ∧
      ext.oid = FOCTET_EXT_OID ∧ der = key :: pack (ascii uri.text) ext.value := by
  unfold selfSigned at signed
  split at signed
  case h_1 uri ext names extensions =>
      split at signed
      case isTrue own => exact ⟨uri, ext, names, extensions, own, (Option.some.inj signed).symm⟩
      case isFalse => cases signed
  case h_2 => cases signed

def namesOf (cert : X509Certificate) : Except Unit (Option (List GeneralName)) :=
  .ok (cert.extensions.head?.map fun ext => [.URI (ofAscii ext.value)])

theorem selfSigned_reads {params : CertificateParams} {key : UInt8} {der : List UInt8}
    (signed : selfSigned params key = some der) :
    ∃ cert, parsePacked der = some cert ∧ cert.Carries params (drawnPki key) defaultValidity ∧
      namesOf cert = .ok (some (params.subjectAltNames.map fun uri => .URI uri.text)) ∧
      cert.signatureValue = key :: cert.tbsCertificate := by
  obtain ⟨uri, ext, names, extensions, own, rfl⟩ := selfSigned_eq_some signed
  refine ⟨packedCertificate key (ascii uri.text) ext.value, by rw [parsePacked, unpack_pack]; rfl,
    ⟨rfl, rfl, ⟨[⟨[2, 5, 29, 17], ascii uri.text⟩], ?_, ?_⟩, rfl⟩, ?_, rfl⟩
  · rw [extensions, packedCertificate, ← own]
    rfl
  · intro other standard
    rw [List.mem_singleton.mp standard]
    change ([2, 5, 29, 17] : Oid) ≠ FOCTET_EXT_OID
    decide
  · rw [names]
    exact congrArg (fun text => Except.ok (some [GeneralName.URI text])) (ofAscii_ascii uri.ascii)

def genCrates : GenCrates UInt8 where
  toCrates := { crates [] with
    verifyingKeyFromBytes := fun _ => true
    signatureTryFrom := fun _ => true
    verify := fun key message signature => signature = key ++ message
    base32Decode := DigitText.decode Core.Sample.base32Digits
    parseX509Certificate := parsePacked
    subjectAlternativeName := namesOf
    decodeDer := unpack
    ringVerify := fun key message signature => signature = key.bytes.take 1 ++ message }
  base32Encode := DigitText.encode Core.Sample.base32Digits
  sign keypair message := keypair.publicKey.publicKey ++ message
  subjectPki := drawnPki
  Signs key message signature := signature = key :: message
  constructDer := pack
  selfSigned := selfSigned
  defaultValidity := defaultValidity
  base32Encode_ascii := base32_ascii
  base32Decode_encode := base32_decodes
  decodeDer_construct := unpack_pack
  namedCurve _ := ⟨prime256v1, rfl, rfl⟩
  signs_verifies _ _ _ signed := decide_eq_true signed
  selfSigned_parses _ _ _ _ := selfSigned_reads

def drawn (draw : Nat) : Option UInt8 := some draw.toUInt8

/-- A certificate of a node. -/
def ownCertificate (identity : Keypair) (key : UInt8) : List UInt8 :=
  key :: pack (ascii (uriScheme ++ genCrates.base32Encode identity.publicKey.publicKey))
    (pack identity.publicKey.publicKey (genCrates.possession identity key))

theorem generateFor_eq (draw : Nat) (identity : Keypair) :
    genCrates.generateFor drawn draw identity = some (ownCertificate identity draw.toUInt8) := by
  have plain : (uriScheme ++ genCrates.base32Encode identity.publicKey.publicKey).all
      (fun c => c.toNat < 128) = true := by
    have scheme : uriScheme.all (fun c => c.toNat < 128) = true := by decide
    rw [List.all_append, scheme, Bool.true_and, List.all_eq_true]
    intro c there
    exact decide_eq_true (genCrates.base32Encode_ascii _ c there)
  rw [GenCrates.generateFor, GenCrates.generate, Ia5String.tryFrom, dif_pos plain]
  rfl

theorem genuine (identity : Keypair) : genCrates.Genuine identity :=
  ⟨rfl, fun _ => ⟨rfl, decide_eq_true rfl⟩⟩

/-- `EndpointBuilder::new().with_tcp()` for a node. -/
def honest (identity : Keypair) : EndpointBuilder (List Protocol) where
  config :=
    { config with clientTlsConfig := ⟨.withRemoteNodeId none, ownCertificate identity 0, 0⟩
                  serverTlsConfig := ⟨.new, ownCertificate identity 1, 1⟩
                  keypair := identity }
  protocols := [.TlsOverTcp]
  addrs := []
  listenEnabled := true
  allowLoopback := false

theorem honest_reachable (identity : Keypair) :
    (honest identity).Reachable stackAddrs (genCrates.generateFor drawn) := by
  refine ⟨0, identity, { honest identity with protocols := [] }, [.withTcp], .inl ?_, rfl⟩
  rw [EndpointBuilder.new, TransportConfig.new, makeClientConfig, makeServerConfig, generateFor_eq,
    generateFor_eq]
  rfl

/-- The node speaks with one of its certificates, in this century. -/
def speaking (identity : Keypair) (key : UInt8) : PeerAnswer where
  endEntity := ownCertificate identity key
  intermediates := []
  scheme := .ECDSA_NISTP256_SHA256
  message := handshakeMessage
  signature := key :: handshakeMessage
  presentedAt := 1700000000
  signedAt := 1700000000
  extractedAt := 1700000001

theorem speaks (identity : Keypair) (draw : Nat) : genCrates.Speaks drawn
    (ownCertificate identity draw.toUInt8) draw (speaking identity draw.toUInt8) :=
  ⟨rfl, rfl, rfl, ⟨draw.toUInt8, rfl, rfl⟩, (by decide :
    ∀ time ∈ [(1700000000 : Int), 1700000000, 1700000001], defaultValidity.isValidAt time = true)⟩

end Sample

/-- One node dials another at its only address. -/
theorem honest_nodes_connect_two : ∃ conn e',
    ((Sample.honest ⟨Sample.nodeId⟩).build Sample.stackAddrs none).1.connectNode Sample.stackAddrs
      Sample.genCrates.toCrates
      (fun addr => { Sample.answering addr with handshake := .ready (Sample.speaking ⟨Sample.otherNodeId⟩ 1) })
      (.ok Sample.interface) (Sample.nodeAddr Sample.otherNodeId) = .ok (conn, e') ∧
    conn.data.localNodeId = Sample.nodeId ∧ conn.remoteNodeId = Sample.otherNodeId := by
  obtain ⟨reached, between, -⟩ := honest_nodes_connect Sample.stackAddrs Sample.genCrates
    Sample.drawn Sample.drawn (Sample.honest ⟨Sample.nodeId⟩) (Sample.honest ⟨Sample.otherNodeId⟩)
    none (Sample.honest_reachable _) (Sample.honest_reachable _) (Sample.genuine _) (Sample.genuine _)
    (fun addr => { Sample.answering addr with handshake := .ready (Sample.speaking ⟨Sample.otherNodeId⟩ 1) })
    Sample.interface (Sample.nodeAddr Sample.otherNodeId) (by
      intro candidate _ peer answers
      obtain rfl : Sample.speaking ⟨Sample.otherNodeId⟩ 1 = peer := by
        injection answers.handshake
      exact Sample.speaks _ 1)
  obtain ⟨conn, e', connected⟩ := reached.mpr ⟨(.TlsOverTcp, Sample.dialled), by decide +kernel,
    Sample.speaking ⟨Sample.otherNodeId⟩ 1, ⟨Sample.dialled, rfl, ⟨_, rfl⟩, fun quic => by cases quic⟩, rfl,
    fun _ => ⟨_, rfl⟩, rfl⟩
  exact ⟨conn, e', connected, between conn e' connected⟩

/-! ### The upgrader -/

structure ConnectionUpgrader where
  tlsAcceptor : ServerConfig
  tlsConnector : ClientConfig

namespace ConnectionUpgrader
variable (C : Crates)

def new (generate : Nat → Keypair → Option (List UInt8)) (draw : Nat) (identity : Keypair) :
    Option ConnectionUpgrader := do
  let serverConfig ← makeServerConfig generate draw identity
  let clientConfig ← makeClientConfig generate (draw + 1) identity none
  return { tlsAcceptor := serverConfig, tlsConnector := clientConfig }

/-- Any number of certificates but one is a panic. -/
def extractSingleCertificate (now : Int) (peerCertificates : Option (List (List UInt8))) :
    Outcome AnyhowError FoctetCertificate :=
  match peerCertificates with
  | some [cert] => (parse C now cert).mapErr .parse
  | _ => .panic

/-- The node ID that comes with the stream, here and in `upgrade_outbound`. -/
def upgradeInbound (u : ConnectionUpgrader) (peer : PeerAnswer) : Outcome AnyhowError NodeId := do
  let certs ← tlsAccept C u.tlsAcceptor peer
  let cert ← extractSingleCertificate C peer.extractedAt (some certs)
  return cert.nodeId

def upgradeOutbound (u : ConnectionUpgrader) (peer : PeerAnswer) : Outcome AnyhowError NodeId := do
  let certs ← tlsHandshake C u.tlsConnector peer
  let cert ← extractSingleCertificate C peer.extractedAt (some certs)
  return cert.nodeId

variable {C} {u : ConnectionUpgrader} {peer : PeerAnswer}

/-- Behind a single certificate the two ways to read the node ID are one. -/
theorem extractSingleCertificate_eq (now : Int) (cert : List UInt8) :
    (do let cert ← extractSingleCertificate C now (some [cert]); return cert.nodeId) =
      extractRemoteNodeId C now (some [cert]) := rfl

theorem upgradeInbound_eq : u.upgradeInbound C peer =
    tlsAccept C u.tlsAcceptor peer >>= fun certs =>
      extractRemoteNodeId C peer.extractedAt (some certs) := by
  rw [upgradeInbound]
  cases accepted : tlsAccept C u.tlsAcceptor peer with
  | err e => rfl
  | panic => rfl
  | ok certs =>
      obtain ⟨rfl, -⟩ := tlsAccept_eq_ok.mp accepted
      exact extractSingleCertificate_eq _ _

theorem upgradeOutbound_eq : u.upgradeOutbound C peer = authenticate C u.tlsConnector peer := by
  rw [upgradeOutbound, authenticate]
  cases shaken : tlsHandshake C u.tlsConnector peer with
  | err e => rfl
  | panic => rfl
  | ok certs =>
      obtain ⟨rfl, -⟩ := tlsHandshake_eq_ok.mp shaken
      exact extractSingleCertificate_eq _ _

end ConnectionUpgrader

/-- Whoever the peer is, an upgrade ends as the transports would have it, so its panic for any
number of certificates but one is never reached; and two upgraders recognise each other. -/
theorem upgraders_recognise {K : Type} (G : GenCrates K) (drawnA drawnB : Nat → Option K)
    (drawA drawB : Nat) (a b : Keypair) (u v : ConnectionUpgrader) (genuineA : G.Genuine a)
    (genuineB : G.Genuine b) (madeU : ConnectionUpgrader.new (G.generateFor drawnA) drawA a = some u)
    (madeV : ConnectionUpgrader.new (G.generateFor drawnB) drawB b = some v) (peer : PeerAnswer) :
    u.upgradeOutbound G.toCrates peer = authenticate G.toCrates u.tlsConnector peer ∧
    (v.upgradeInbound G.toCrates peer = do
      let certs ← tlsAccept G.toCrates v.tlsAcceptor peer
      extractRemoteNodeId G.toCrates peer.extractedAt (some certs)) ∧
    (u.upgradeOutbound G.toCrates peer = .panic ∨ v.upgradeInbound G.toCrates peer = .panic →
      parseUnverified G.toCrates peer.endEntity = .panic) ∧
    (G.Speaks drawnB v.tlsAcceptor.certificate v.tlsAcceptor.privateKey peer →
      u.upgradeOutbound G.toCrates peer = .ok b.publicKey) ∧
    (G.Speaks drawnA u.tlsConnector.certificate u.tlsConnector.privateKey peer →
      v.upgradeInbound G.toCrates peer = .ok a.publicKey) := by
  obtain ⟨serverU, -, restU⟩ := Option.bind_eq_some_iff.mp madeU
  obtain ⟨clientU, clientMade, sameU⟩ := Option.bind_eq_some_iff.mp restU
  obtain rfl := Option.some.inj sameU
  obtain ⟨serverV, serverMade, restV⟩ := Option.bind_eq_some_iff.mp madeV
  obtain ⟨clientV, -, sameV⟩ := Option.bind_eq_some_iff.mp restV
  obtain rfl := Option.some.inj sameV
  refine ⟨ConnectionUpgrader.upgradeOutbound_eq, ConnectionUpgrader.upgradeInbound_eq, ?_,
    fun speaks => ?_, fun speaks => ?_⟩
  · rw [ConnectionUpgrader.upgradeOutbound_eq, authenticate_eq_panic, ConnectionUpgrader.upgradeInbound_eq]
    rintro (outbound | inbound)
    · exact outbound.2
    · exact (tlsAccept_extract_eq_panic.mp inbound).2
  · rw [ConnectionUpgrader.upgradeOutbound_eq, authenticate_eq_ok]
    refine ⟨speaks.presents genuineB (makeServerConfig_certified serverMade), fun r meant => ?_⟩
    rw [makeClientConfig_verifier clientMade] at meant
    cases meant
  · rw [ConnectionUpgrader.upgradeInbound_eq]
    exact tlsAccept_extract_eq_ok.mpr (speaks.presents genuineA (makeClientConfig_certified clientMade))

/-- One node upgrades a connection to another. -/
theorem upgraders_recognise_two : ∃ u,
    ConnectionUpgrader.new (Sample.genCrates.generateFor Sample.drawn) 0 ⟨Sample.nodeId⟩ = some u ∧
    u.upgradeOutbound Sample.genCrates.toCrates (Sample.speaking ⟨Sample.otherNodeId⟩ 4) =
      .ok Sample.otherNodeId := by
  have made : ∀ draw identity,
      ConnectionUpgrader.new (Sample.genCrates.generateFor Sample.drawn) draw identity =
        some ⟨⟨.new, Sample.ownCertificate identity draw.toUInt8, draw⟩,
          ⟨.withRemoteNodeId none, Sample.ownCertificate identity (draw + 1).toUInt8, draw + 1⟩⟩ := by
    intro draw identity
    rw [ConnectionUpgrader.new, makeClientConfig, makeServerConfig, Sample.generateFor_eq,
      Sample.generateFor_eq]
    rfl
  obtain ⟨-, -, -, recognised, -⟩ := upgraders_recognise Sample.genCrates Sample.drawn Sample.drawn 0 4
    ⟨Sample.nodeId⟩ ⟨Sample.otherNodeId⟩ _ _ (Sample.genuine _) (Sample.genuine _)
    (made _ _) (made _ _) (Sample.speaking ⟨Sample.otherNodeId⟩ 4)
  exact ⟨_, made _ _, recognised (Sample.speaks _ 4)⟩

end Foctet.Net
