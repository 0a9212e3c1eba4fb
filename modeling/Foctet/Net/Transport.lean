import Foctet.Core.Addr
import Foctet.Net.Verifier

/-! The two transports and how each of them connects. What the network does during one
attempt is given: the DNS answer, whether the dials succeed, and what the peer presents. -/
namespace Foctet.Net
open Foctet.Core Foctet.Lib

/-- The parts of `rustls::ClientConfig` that are foctet's own. -/
structure ClientConfig where
  verifier : FoctetCertificateVerifier
  certificate : List UInt8
  /-- by the number of the draw it came from -/
  privateKey : Nat

structure ServerConfig where
  verifier : FoctetCertificateVerifier
  certificate : List UInt8
  privateKey : Nat

section
-- `cert::generate`: a certificate of a keypair for a key that is drawn for it, or the error of
-- rcgen; each call draws another key
variable (generate : Nat → Keypair → Option (List UInt8))

def makeClientConfig (draw : Nat) (keypair : Keypair) (remoteNodeId : Option NodeId) :
    Option ClientConfig := do
  let certificate ← generate draw keypair
  return { verifier := .withRemoteNodeId remoteNodeId, certificate := certificate, privateKey := draw }

def makeServerConfig (draw : Nat) (keypair : Keypair) : Option ServerConfig := do
  let certificate ← generate draw keypair
  return { verifier := .new, certificate := certificate, privateKey := draw }

def DEFAULT_READ_BUFFER_SIZE : Nat := 16384
def DEFAULT_WRITE_BUFFER_SIZE : Nat := 16384
def MAX_READ_BUFFER_SIZE : Nat := 65536
def MAX_WRITE_BUFFER_SIZE : Nat := 65536

structure TransportConfig where
  readBufferSize : Nat
  writeBufferSize : Nat
  clientTlsConfig : ClientConfig
  serverTlsConfig : ServerConfig
  keypair : Keypair

namespace TransportConfig

/-- No node ID is given to the client configuration, here and in `set_keypair`. Either
configuration has a certificate of its own. -/
def new (draw : Nat) (keypair : Keypair) : Option TransportConfig := do
  let clientTlsConfig ← makeClientConfig generate draw keypair none
  let serverTlsConfig ← makeServerConfig generate (draw + 1) keypair
  return { readBufferSize := DEFAULT_READ_BUFFER_SIZE, writeBufferSize := DEFAULT_WRITE_BUFFER_SIZE,
           clientTlsConfig := clientTlsConfig, serverTlsConfig := serverTlsConfig, keypair := keypair }

def setKeypair (config : TransportConfig) (draw : Nat) (keypair : Keypair) : Option TransportConfig := do
  let clientTlsConfig ← makeClientConfig generate draw keypair none
  let serverTlsConfig ← makeServerConfig generate (draw + 1) keypair
  return { config with clientTlsConfig := clientTlsConfig, serverTlsConfig := serverTlsConfig,
                       keypair := keypair }

end TransportConfig
end

inductive Direction where
  | Incoming
  | Outgoing
  deriving DecidableEq, Repr

/-- What `QuicConnection` and `TcpConnection` have in common. -/
structure ConnectionData (A : Type) where
  direction : Direction
  localAddr : A
  remoteAddr : A
  localNodeId : NodeId
  remoteNodeId : NodeId
  writeBufferSize : Nat
  readBufferSize : Nat

/-- A TCP connection runs a mux session, which has an ID. -/
inductive Connection (A : Type) where
  | Quic (conn : ConnectionData A)
  | Tcp (conn : ConnectionData A) (sessionId : UInt32)

def Connection.remoteNodeId {A : Type} : Connection A → NodeId
  | .Quic conn => conn.remoteNodeId
  | .Tcp conn _ => conn.remoteNodeId

structure QuicTransport where
  clientConfig : ClientConfig
  serverConfig : ServerConfig
  localNodeId : NodeId
  writeBufferSize : Nat
  readBufferSize : Nat

structure TcpTransport where
  tlsConnector : ClientConfig
  tlsAcceptor : ServerConfig
  localNodeId : NodeId
  writeBufferSize : Nat
  readBufferSize : Nat
  nextSessionId : UInt32

inductive Transport where
  | Quic (t : QuicTransport)
  | Tcp (t : TcpTransport)

def QuicTransport.new (config : TransportConfig) : QuicTransport where
  clientConfig := config.clientTlsConfig
  serverConfig := config.serverTlsConfig
  localNodeId := config.keypair.publicKey
  writeBufferSize := config.writeBufferSize
  readBufferSize := config.readBufferSize

def TcpTransport.new (config : TransportConfig) : TcpTransport where
  tlsConnector := config.clientTlsConfig
  tlsAcceptor := config.serverTlsConfig
  localNodeId := config.keypair.publicKey
  writeBufferSize := config.writeBufferSize
  readBufferSize := config.readBufferSize
  nextSessionId := 1

/-- A future under `tokio::time::timeout`. -/
inductive Timed (α : Type) where
  | ready (value : α)
  | failed
  | elapsed

def Timed.settle {α : Type} (timedOut : String) : Timed α → Outcome AnyhowError α
  | .ready value => .ok value
  | .failed => .err .other
  | .elapsed => .err (.message timedOut)

/-- What a TLS 1.3 server sends to authenticate itself, and the readings of the local clock
when its certificate and its signature are checked and when its node ID is read. -/
structure PeerAnswer where
  endEntity : List UInt8
  intermediates : List (List UInt8)
  scheme : SignatureScheme
  message : List UInt8
  signature : List UInt8
  presentedAt : Int
  signedAt : Int
  extractedAt : Int

/-- The network during one attempt to connect. -/
structure Attempt where
  /-- `lookup_ip`, `ipv4_lookup` or `ipv6_lookup`, whichever the name asks for -/
  lookup : Option (List IpAddr)
  /-- the name is one that TLS accepts -/
  serverName : Bool
  /-- TCP: the local address of the stream, if it can be read -/
  tcp : Timed (Option SocketAddr)
  /-- QUIC: the local address of an endpoint on a socket bound to the given address -/
  bind : SocketAddr → Option SocketAddr
  /-- the peer's part of the handshake, or a failure before the peer authenticated itself -/
  handshake : Timed PeerAnswer

variable {A : Type} (S : StackAddrs A) (C : Crates)

/-- `Resolver::resolve_addr`; the first address of the answer counts. -/
def resolveAddr (w : Attempt) (addr : A) : Outcome AnyhowError A :=
  if S.resolved addr then .ok addr
  else
    match S.getDns addr with
    | none => .err (.message "Invalid address(No DNS)")
    | some (.Dns _) | some (.Dns4 _) | some (.Dns6 _) => do
        let ips ← Outcome.okOr .other w.lookup
        let addr := match ips with
          | ip :: _ => S.resolve addr ip
          | [] => addr
        Outcome.ensure (S.resolved addr) (.message "Invalid address. Not resolved")
        return addr
    | some _ => .err (.message "Invalid address. Not supported")

/-- The handshake of a client, which asks the configured verifier. What is left of a finished
handshake is the chain that was presented. -/
def tlsHandshake (config : ClientConfig) (peer : PeerAnswer) : Outcome AnyhowError (List (List UInt8)) :=
  C.connects (config.verifier.verifyServerCert C peer.presentedAt peer.endEntity peer.intermediates)
    (verifyTls13Signature C peer.signedAt peer.endEntity peer.scheme peer.message peer.signature)
    (peer.endEntity :: peer.intermediates)

/-- The handshake of a server; a client has to send a certificate. -/
def tlsAccept (config : ServerConfig) (peer : PeerAnswer) : Outcome AnyhowError (List (List UInt8)) :=
  C.accepts (config.verifier.verifyClientCert C peer.presentedAt peer.endEntity peer.intermediates)
    (verifyTls13Signature C peer.signedAt peer.endEntity peer.scheme peer.message peer.signature)
    (peer.endEntity :: peer.intermediates)

/-- The end of both `connect` functions: the handshake and the node ID read from it. -/
def authenticate (config : ClientConfig) (peer : PeerAnswer) : Outcome AnyhowError NodeId := do
  let certs ← tlsHandshake C config peer
  extractRemoteNodeId C peer.extractedAt (some certs)

def DEFAULT_BIND_V4_ADDR : SocketAddr := ⟨.V4 .UNSPECIFIED, 0⟩
def DEFAULT_BIND_V6_ADDR : SocketAddr := ⟨.V6 .UNSPECIFIED, 0⟩

def bindAddr : IpAddr → SocketAddr
  | .V4 _ => DEFAULT_BIND_V4_ADDR
  | .V6 _ => DEFAULT_BIND_V6_ADDR

def QuicTransport.connect (t : QuicTransport) (w : Attempt) (addr : A) :
    Outcome AnyhowError (Connection A × QuicTransport) := do
  let addr ← resolveAddr S w addr
  let remoteIp ← Outcome.okOr (.message "Invalid address") (S.ip addr)
  let localSocketAddr ← Outcome.okOr .other (w.bind (bindAddr remoteIp))
  let localAddr := S.withProtocol
    (S.withProtocol (S.withIp S.empty localSocketAddr.ip) (.Udp localSocketAddr.port)) .Quic
  let _ ← Outcome.okOr (.message "Invalid address") (S.socketAddr addr)
  Outcome.ensure w.serverName .other
  let peer ← w.handshake.settle "QUIC Connection timed out after Elapsed(())"
  let remoteNodeId ← authenticate C t.clientConfig peer
  return (.Quic { direction := .Outgoing, localAddr := localAddr, remoteAddr := addr,
                  localNodeId := t.localNodeId, remoteNodeId := remoteNodeId,
                  writeBufferSize := t.writeBufferSize, readBufferSize := t.readBufferSize }, t)

/-- The session ID is taken last, so an attempt that fails leaves the transport as it was. -/
def TcpTransport.connect (t : TcpTransport) (w : Attempt) (addr : A) :
    Outcome AnyhowError (Connection A × TcpTransport) := do
  let addr ← resolveAddr S w addr
  let _ ← Outcome.okOr (.message "Invalid address") (S.socketAddr addr)
  Outcome.ensure w.serverName .other
  let stream ← w.tcp.settle "TCP Connection timed out after Elapsed(())"
  let localSocketAddr ← Outcome.okOr .other stream
  let localAddr := S.withProtocol
    (S.withProtocol (S.withIp S.empty localSocketAddr.ip) (.Tcp localSocketAddr.port)) .Tls
  let peer ← w.handshake.settle "TLS Connection timed out after Elapsed(())"
  let remoteNodeId ← authenticate C t.tlsConnector peer
  return (.Tcp { direction := .Outgoing, localAddr := localAddr, remoteAddr := addr,
                 localNodeId := t.localNodeId, remoteNodeId := remoteNodeId,
                 writeBufferSize := t.writeBufferSize, readBufferSize := t.readBufferSize }
            t.nextSessionId, { t with nextSessionId := t.nextSessionId + 1 })

namespace Transport

def connect (t : Transport) (w : Attempt) (addr : A) : Outcome AnyhowError (Connection A × Transport) :=
  match t with
  | .Quic t => do
      let (conn, t) ← t.connect S C w addr
      return (conn, .Quic t)
  | .Tcp t => do
      let (conn, t) ← t.connect S C w addr
      return (conn, .Tcp t)

def kind : Transport → TransportKind
  | .Quic _ => .Quic
  | .Tcp _ => .TlsOverTcp

def clientConfig : Transport → ClientConfig
  | .Quic t => t.clientConfig
  | .Tcp t => t.tlsConnector

end Transport

/-- Some peer answers at an address: the address resolves, the dial over this kind of
transport succeeds, and the peer sends its part of the handshake. -/
structure Answers (kind : TransportKind) (w : Attempt) (addr : A) (peer : PeerAnswer) : Prop where
  resolves : ∃ target, resolveAddr S w addr = .ok target ∧ (∃ socket, S.socketAddr target = some socket) ∧
    (kind = .Quic → ∃ ip socket, S.ip target = some ip ∧ w.bind (bindAddr ip) = some socket)
  named : w.serverName = true
  dials : kind = .TlsOverTcp → ∃ socket, w.tcp = .ready (some socket)
  handshake : w.handshake = .ready peer

/-- The peer sends one certificate of node `n` that passes every check but that of the
node ID meant, and has not run out when the node ID is read. -/
structure Presents (peer : PeerAnswer) (n : NodeId) : Prop where
  alone : peer.intermediates = []
  certificate : ∃ c, c.nodeId = n ∧ parse C peer.presentedAt peer.endEntity = .ok c ∧
    c.signatureScheme C = .ok peer.scheme ∧
    c.KeyVerifies C peer.scheme peer.message peer.signature ∧
    c.certificate.validity.isValidAt peer.signedAt = true ∧
    c.certificate.validity.isValidAt peer.extractedAt = true

variable {S} {C} {w : Attempt} {addr : A} {peer : PeerAnswer} {n : NodeId} {config : ClientConfig}

theorem Timed.settle_eq_ok {α : Type} {timedOut : String} {x : Timed α} {value : α} :
    x.settle timedOut = .ok value ↔ x = .ready value := by
  cases x <;> simp [Timed.settle]

theorem Timed.settle_ne_panic {α : Type} {timedOut : String} {x : Timed α} :
    x.settle timedOut ≠ .panic := by
  cases x <;> simp [Timed.settle]

theorem resolveAddr_ne_panic : resolveAddr S w addr ≠ .panic := by
  unfold resolveAddr
  repeat' split
  all_goals simp [Outcome.bind_eq_panic]

/-- Once the first parse has not panicked, no later one does. -/
theorem parsed_of_presented {now : Int} {endEntity : List UInt8} {intermediates : List (List UInt8)}
    (presented : verifyPresentedCerts C now endEntity intermediates = .ok n) :
    parseUnverified C endEntity ≠ .panic := by
  obtain ⟨-, c, passed, -⟩ := verifyPresentedCerts_eq_ok.mp presented
  rw [(parse_eq_ok.mp passed).1]
  exact nofun

/-- The peer sends one certificate that passes the checks of the handshake but that of the
node ID meant. -/
structure Shakes (C : Crates) (peer : PeerAnswer) (c : FoctetCertificate) : Prop where
  alone : peer.intermediates = []
  parsed : parse C peer.presentedAt peer.endEntity = .ok c
  scheme : c.signatureScheme C = .ok peer.scheme
  signed : c.KeyVerifies C peer.scheme peer.message peer.signature
  valid : c.certificate.validity.isValidAt peer.signedAt = true

/-- Both sides of a handshake come to this, whatever the certificate was first checked for. -/
theorem shakes_iff {n : NodeId} :
    verifyPresentedCerts C peer.presentedAt peer.endEntity peer.intermediates = .ok n ∧
      verifyTls13Signature C peer.signedAt peer.endEntity peer.scheme peer.message peer.signature = .ok () ↔
    ∃ c, Shakes C peer c ∧ c.nodeId = n := by
  rw [verifyPresentedCerts_eq_ok, verifyTls13Signature_eq_ok]
  constructor
  · rintro ⟨⟨alone, c, passed, rfl⟩, again, passedAgain, own, handshake⟩
    obtain rfl := parse_unique passed passedAgain
    exact ⟨again, ⟨alone, passed, own, handshake, (parse_later passed _).mp passedAgain⟩, rfl⟩
  · rintro ⟨c, ⟨alone, passed, own, handshake, valid⟩, rfl⟩
    exact ⟨⟨alone, c, passed, rfl⟩, c, (parse_later passed _).mpr valid, own, handshake⟩

theorem Shakes.extracted {c : FoctetCertificate} (shakes : Shakes C peer c) :
    extractRemoteNodeId C peer.extractedAt (some [peer.endEntity]) =
      if c.certificate.validity.isValidAt peer.extractedAt then .ok c.nodeId
      else .err (.parse .InvalidCertValidity) := extractRemoteNodeId_later shakes.parsed _

theorem presents_iff : Presents C peer n ↔
    ∃ c, Shakes C peer c ∧ c.nodeId = n ∧ c.certificate.validity.isValidAt peer.extractedAt = true := by
  constructor
  · rintro ⟨alone, c, named, parsed, scheme, signed, valid, still⟩
    exact ⟨c, ⟨alone, parsed, scheme, signed, valid⟩, named, still⟩
  · rintro ⟨c, ⟨alone, parsed, scheme, signed, valid⟩, named, still⟩
    exact ⟨alone, c, named, parsed, scheme, signed, valid, still⟩

section handshakes
variable {certs : List (List UInt8)}

theorem tlsHandshake_eq_ok : tlsHandshake C config peer = .ok certs ↔ certs = [peer.endEntity] ∧
    ∃ c, Shakes C peer c ∧ ∀ r, config.verifier.remoteNodeId = some r → r = c.nodeId := by
  rw [tlsHandshake, C.connects_runsInFull.succeeds, FoctetCertificateVerifier.verifyServerCert_eq_ok]
  constructor
  · rintro ⟨⟨n, presented, meant⟩, signed, rfl⟩
    obtain ⟨c, shakes, rfl⟩ := shakes_iff.mp ⟨presented, signed⟩
    exact ⟨by rw [shakes.alone], c, shakes, meant⟩
  · rintro ⟨rfl, c, shakes, meant⟩
    obtain ⟨presented, signed⟩ := shakes_iff.mpr ⟨c, shakes, rfl⟩
    exact ⟨⟨_, presented, meant⟩, signed, by rw [shakes.alone]⟩

theorem tlsAccept_eq_ok {server : ServerConfig} : tlsAccept C server peer = .ok certs ↔
    certs = [peer.endEntity] ∧ ∃ c, Shakes C peer c := by
  rw [tlsAccept, C.accepts_runsInFull.succeeds, FoctetCertificateVerifier.verifyClientCert_eq_ok]
  constructor
  · rintro ⟨⟨n, presented⟩, signed, rfl⟩
    obtain ⟨c, shakes, -⟩ := shakes_iff.mp ⟨presented, signed⟩
    exact ⟨by rw [shakes.alone], c, shakes⟩
  · rintro ⟨rfl, c, shakes⟩
    obtain ⟨presented, signed⟩ := shakes_iff.mpr ⟨c, shakes, rfl⟩
    exact ⟨⟨_, presented⟩, signed, by rw [shakes.alone]⟩

/-- Only the slice in `parse_unverified` can panic, and only on a certificate presented alone.
What the verifier panics on in the first callback it would also panic on in the second. -/
theorem Tls.RunsInFull.panics_iff {run : Tls} (full : run.RunsInFull) {first : Outcome RustlsError Unit}
    (panics : first = .panic ↔ peer.intermediates = [] ∧ parseUnverified C peer.endEntity = .panic)
    (passes : first = .ok () → parseUnverified C peer.endEntity ≠ .panic) :
    run first (verifyTls13Signature C peer.signedAt peer.endEntity peer.scheme peer.message peer.signature)
        certs = .panic ↔
      peer.intermediates = [] ∧ parseUnverified C peer.endEntity = .panic := by
  rw [full.panics, verifyTls13Signature_eq_panic, panics]
  refine or_iff_left ?_
  rintro ⟨passed, panicked⟩
  exact passes passed panicked

theorem tlsHandshake_eq_panic : tlsHandshake C config peer = .panic ↔
    peer.intermediates = [] ∧ parseUnverified C peer.endEntity = .panic := by
  refine C.connects_runsInFull.panics_iff ?_ fun passed => ?_
  · rw [FoctetCertificateVerifier.verifyServerCert_eq_panic, verifyPresentedCerts_eq_panic]
  · obtain ⟨n, presented, -⟩ := FoctetCertificateVerifier.verifyServerCert_eq_ok.mp passed
    exact parsed_of_presented presented

theorem tlsAccept_eq_panic {server : ServerConfig} : tlsAccept C server peer = .panic ↔
    peer.intermediates = [] ∧ parseUnverified C peer.endEntity = .panic := by
  refine C.accepts_runsInFull.panics_iff ?_ fun passed => ?_
  · rw [FoctetCertificateVerifier.verifyClientCert_eq_panic, verifyPresentedCerts_eq_panic]
  · obtain ⟨n, presented⟩ := FoctetCertificateVerifier.verifyClientCert_eq_ok.mp passed
    exact parsed_of_presented presented

end handshakes

/-- A handshake ends well with a certificate of the node that was meant, if one was. -/
theorem authenticate_eq_ok : authenticate C config peer = .ok n ↔
    Presents C peer n ∧ ∀ r, config.verifier.remoteNodeId = some r → r = n := by
  simp only [authenticate, Outcome.bind_eq_ok, tlsHandshake_eq_ok, presents_iff]
  constructor
  · rintro ⟨-, ⟨rfl, c, shakes, meant⟩, extracted⟩
    rw [shakes.extracted] at extracted
    split at extracted
    case isTrue valid =>
        obtain rfl := Outcome.ok.inj extracted
        exact ⟨⟨c, shakes, rfl, valid⟩, meant⟩
    case isFalse => cases extracted
  · rintro ⟨⟨c, shakes, rfl, valid⟩, meant⟩
    refine ⟨_, ⟨rfl, c, shakes, meant⟩, ?_⟩
    rw [shakes.extracted, if_pos valid]

/-- A server checks its client as a client that means no node in particular checks a server. -/
theorem tlsAccept_extract_eq_ok {server : ServerConfig} :
    (tlsAccept C server peer >>= fun certs => extractRemoteNodeId C peer.extractedAt (some certs)) = .ok n ↔
      Presents C peer n := by
  simp only [Outcome.bind_eq_ok, tlsAccept_eq_ok, presents_iff]
  constructor
  · rintro ⟨-, ⟨rfl, c, shakes⟩, extracted⟩
    rw [shakes.extracted] at extracted
    split at extracted
    case isTrue valid =>
        obtain rfl := Outcome.ok.inj extracted
        exact ⟨c, shakes, rfl, valid⟩
    case isFalse => cases extracted
  · rintro ⟨c, shakes, rfl, valid⟩
    refine ⟨_, ⟨rfl, c, shakes⟩, ?_⟩
    rw [shakes.extracted, if_pos valid]

theorem authenticate_eq_panic : authenticate C config peer = .panic ↔
    peer.intermediates = [] ∧ parseUnverified C peer.endEntity = .panic := by
  rw [authenticate, Outcome.bind_eq_panic, tlsHandshake_eq_panic]
  refine or_iff_left ?_
  rintro ⟨certs, shaken, panicked⟩
  obtain ⟨rfl, c, shakes, -⟩ := tlsHandshake_eq_ok.mp shaken
  rw [extractRemoteNodeId_eq_panic, (parse_eq_ok.mp shakes.parsed).1] at panicked
  cases panicked

theorem tlsAccept_extract_eq_panic {server : ServerConfig} :
    (tlsAccept C server peer >>= fun certs => extractRemoteNodeId C peer.extractedAt (some certs)) =
      .panic ↔ peer.intermediates = [] ∧ parseUnverified C peer.endEntity = .panic := by
  rw [Outcome.bind_eq_panic, tlsAccept_eq_panic]
  refine or_iff_left ?_
  rintro ⟨certs, accepted, panicked⟩
  obtain ⟨rfl, c, shakes⟩ := tlsAccept_eq_ok.mp accepted
  rw [extractRemoteNodeId_eq_panic, (parse_eq_ok.mp shakes.parsed).1] at panicked
  cases panicked

namespace Transport
variable {t : Transport}

/-- An attempt succeeds exactly when some peer answers and authenticates itself, and the
connection then carries the node ID it authenticated. -/
theorem connect_eq_ok : (∃ result, t.connect S C w addr = .ok result ∧ result.1.remoteNodeId = n) ↔
    ∃ peer, Answers S t.kind w addr peer ∧ authenticate C t.clientConfig peer = .ok n := by
  cases t with
  | Quic t =>
      simp only [connect, QuicTransport.connect, Outcome.bind_eq_ok, Outcome.okOr_eq_ok,
        Outcome.ensure_eq_ok, Timed.settle_eq_ok, Outcome.pure_eq, Outcome.ok.injEq]
      constructor
      · rintro ⟨-, ⟨-, ⟨target, resolved, ip, hasIp, bound, binds, socket, dialled, -, named, peer, answer, m,
          authenticated, rfl⟩, rfl⟩, rfl⟩
        exact ⟨peer, ⟨⟨target, resolved, ⟨socket, dialled⟩, fun _ => ⟨ip, bound, hasIp, binds⟩⟩, named,
          (fun tcp => by cases tcp), answer⟩, authenticated⟩
      · rintro ⟨peer, ⟨⟨target, resolved, ⟨socket, dialled⟩, binds⟩, named, -, answer⟩, authenticated⟩
        obtain ⟨ip, bound, hasIp, binds⟩ := binds rfl
        exact ⟨_, ⟨_, ⟨target, resolved, ip, hasIp, bound, binds, socket, dialled, (), named, peer, answer, n,
          authenticated, rfl⟩, rfl⟩, rfl⟩
  | Tcp t =>
      simp only [connect, TcpTransport.connect, Outcome.bind_eq_ok, Outcome.okOr_eq_ok,
        Outcome.ensure_eq_ok, Timed.settle_eq_ok, Outcome.pure_eq, Outcome.ok.injEq]
      constructor
      · rintro ⟨-, ⟨-, ⟨target, resolved, socket, dialled, -, named, stream, dials, own, rfl, peer, answer, m,
          authenticated, rfl⟩, rfl⟩, rfl⟩
        exact ⟨peer, ⟨⟨target, resolved, ⟨socket, dialled⟩, (fun quic => by cases quic)⟩, named,
          fun _ => ⟨own, dials⟩, answer⟩,
          authenticated⟩
      · rintro ⟨peer, ⟨⟨target, resolved, ⟨socket, dialled⟩, -⟩, named, dials, answer⟩, authenticated⟩
        obtain ⟨own, dials⟩ := dials rfl
        exact ⟨_, ⟨_, ⟨target, resolved, socket, dialled, (), named, _, dials, own, rfl, peer, answer, n,
          authenticated, rfl⟩, rfl⟩, rfl⟩

theorem connect_eq_panic : t.connect S C w addr = .panic ↔
    ∃ peer, Answers S t.kind w addr peer ∧ authenticate C t.clientConfig peer = .panic := by
  cases t with
  | Quic t =>
      simp only [connect, QuicTransport.connect, Outcome.bind_eq_panic, Outcome.okOr_eq_ok,
        Outcome.ensure_eq_ok, Timed.settle_eq_ok, Outcome.pure_eq, resolveAddr_ne_panic,
        Outcome.okOr_ne_panic, Outcome.ensure_ne_panic, Timed.settle_ne_panic, false_or, reduceCtorEq,
        and_false, exists_false, or_false]
      constructor
      · rintro ⟨target, resolved, ip, hasIp, bound, binds, socket, dialled, -, named, peer, answer, panicked⟩
        exact ⟨peer, ⟨⟨target, resolved, ⟨socket, dialled⟩, fun _ => ⟨ip, bound, hasIp, binds⟩⟩, named,
          (fun tcp => by cases tcp), answer⟩, panicked⟩
      · rintro ⟨peer, ⟨⟨target, resolved, ⟨socket, dialled⟩, binds⟩, named, -, answer⟩, panicked⟩
        obtain ⟨ip, bound, hasIp, binds⟩ := binds rfl
        exact ⟨target, resolved, ip, hasIp, bound, binds, socket, dialled, (), named, peer, answer, panicked⟩
  | Tcp t =>
      simp only [connect, TcpTransport.connect, Outcome.bind_eq_panic, Outcome.okOr_eq_ok,
        Outcome.ensure_eq_ok, Timed.settle_eq_ok, Outcome.pure_eq, resolveAddr_ne_panic,
        Outcome.okOr_ne_panic, Outcome.ensure_ne_panic, Timed.settle_ne_panic, false_or, reduceCtorEq,
        and_false, exists_false, or_false]
      constructor
      · rintro ⟨target, resolved, socket, dialled, -, named, stream, dials, own, rfl, peer, answer, panicked⟩
        exact ⟨peer, ⟨⟨target, resolved, ⟨socket, dialled⟩, (fun quic => by cases quic)⟩, named,
          fun _ => ⟨own, dials⟩, answer⟩,
          panicked⟩
      · rintro ⟨peer, ⟨⟨target, resolved, ⟨socket, dialled⟩, -⟩, named, dials, answer⟩, panicked⟩
        obtain ⟨own, dials⟩ := dials rfl
        exact ⟨target, resolved, socket, dialled, (), named, _, dials, own, rfl, peer, answer, panicked⟩

end Transport
end Foctet.Net
