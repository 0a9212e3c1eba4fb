import Foctet.Net.Dialling

/-! Whom `connect_node` connects to. The client configuration of a built endpoint names no
node, so the connection goes to the first peer in the order of trying that presents a valid
certificate, whoever it is. -/
namespace Foctet.Net
open Foctet.Core Foctet.Lib

variable {A : Type} {S : StackAddrs A} {C : Crates} {network : A → Attempt} {e : Endpoint A}
  {iface : Interface} {addr : NodeAddr A}

namespace Endpoint

/-- One attempt of `connect_node`, with the endpoint it leaves behind. -/
def attempt (S : StackAddrs A) (C : Crates) (e : Endpoint A) (network : A → Attempt)
    (candidate : TransportKind × A) : Outcome AnyhowError (Connection A × Endpoint A) :=
  e.dial (fun t a => t.connect S C (network a) a) candidate

theorem WellBuilt.connectNode_eq (built : e.WellBuilt) :
    e.connectNode S C network (.ok iface) addr =
      Outcome.firstOk (e.attempt S C network) (e.candidates S iface addr) >>=
      Outcome.okOr (.message "No direct address found for node") := by
  rw [connectNode, built.dialNode_eq, Logged.outcome_bind, Logged.outcome_firstOk]
  rfl

/-- An attempt succeeds with the node ID of whoever answers with a valid certificate. -/
theorem WellBuilt.attempt_eq_ok (built : e.WellBuilt) {candidate : TransportKind × A} {n : NodeId}
    (there : candidate ∈ e.candidates S iface addr) :
    (∃ result, e.attempt S C network candidate = .ok result ∧ result.1.remoteNodeId = n) ↔
      ∃ peer, Answers S candidate.1 (network candidate.2) candidate.2 peer ∧ Presents C peer n := by
  obtain ⟨t, found, kind, anyNode⟩ := built.transport _ (tried_proto there)
  have authenticated : ∀ peer, authenticate C t.clientConfig peer = .ok n ↔ Presents C peer n := by
    intro peer
    rw [authenticate_eq_ok, anyNode]
    exact and_iff_left nofun
  have connected : (∃ result, t.connect S C (network candidate.2) candidate.2 = .ok result ∧
      result.1.remoteNodeId = n) ↔ _ := Transport.connect_eq_ok
  simp only [kind, authenticated] at connected
  rw [← connected, attempt, dial, found]
  simp only [Outcome.okOr, Outcome.ok_bind, Outcome.bind_eq_ok, Outcome.pure_eq, Outcome.ok.injEq]
  constructor
  · rintro ⟨-, ⟨result, first, rfl⟩, same⟩
    exact ⟨result, first, same⟩
  · rintro ⟨result, first, same⟩
    exact ⟨_, ⟨result, first, rfl⟩, same⟩

theorem WellBuilt.attempt_eq_panic (built : e.WellBuilt) {candidate : TransportKind × A}
    (there : candidate ∈ e.candidates S iface addr) :
    e.attempt S C network candidate = .panic ↔
      ∃ peer, Answers S candidate.1 (network candidate.2) candidate.2 peer ∧
        peer.intermediates = [] ∧ parseUnverified C peer.endEntity = .panic := by
  obtain ⟨t, found, kind, -⟩ := built.transport _ (tried_proto there)
  have connected : t.connect S C (network candidate.2) candidate.2 = .panic ↔ _ :=
    Transport.connect_eq_panic
  simp only [kind, authenticate_eq_panic] at connected
  rw [← connected, attempt, dial, found]
  simp [Outcome.okOr, Outcome.bind_eq_panic]

/-- No connection comes of a candidate, and no panic: nobody answers there with a valid
certificate or with one that `parse_unverified` panics on. -/
def Refused (S : StackAddrs A) (C : Crates) (network : A → Attempt) (candidate : TransportKind × A) : Prop :=
  ∀ peer, Answers S candidate.1 (network candidate.2) candidate.2 peer →
    (∀ n, ¬ Presents C peer n) ∧
    ¬ (peer.intermediates = [] ∧ parseUnverified C peer.endEntity = .panic)

theorem WellBuilt.attempt_eq_err (built : e.WellBuilt) {candidate : TransportKind × A}
    (there : candidate ∈ e.candidates S iface addr) :
    (∃ error, e.attempt S C network candidate = .err error) ↔ Refused S C network candidate := by
  have ok : ∀ n, (∃ result, e.attempt S C network candidate = .ok result ∧
      result.1.remoteNodeId = n) ↔ _ := fun n => built.attempt_eq_ok there
  have panic : e.attempt S C network candidate = .panic ↔ _ := built.attempt_eq_panic there
  constructor
  · rintro ⟨error, failed⟩ peer answers
    refine ⟨fun n presents => ?_, fun panics => ?_⟩
    · obtain ⟨result, succeeded, -⟩ := (ok n).mpr ⟨peer, answers, presents⟩
      exact absurd (failed.symm.trans succeeded) nofun
    · exact absurd (failed.symm.trans (panic.mpr ⟨peer, answers, panics⟩)) nofun
  · intro refused
    cases attempted : e.attempt S C network candidate with
    | ok result =>
        obtain ⟨peer, answers, presents⟩ := (ok _).mp ⟨result, attempted, rfl⟩
        exact absurd presents ((refused peer answers).1 _)
    | err error => exact ⟨error, rfl⟩
    | panic =>
        obtain ⟨peer, answers, panics⟩ := panic.mp attempted
        exact absurd panics (refused peer answers).2

end Endpoint

/-- `connect_node` on an endpoint that the builder made gives connections to the intended
node only, exactly when the first peer to present a valid certificate, in the order in which
the addresses are tried, is that node. -/
theorem connectNode_authenticates_iff [DecidableEq A] (S : StackAddrs A) (C : Crates)
    (generate : Nat → Keypair → Option (List UInt8)) (b : EndpointBuilder A) (builtOn : Option Interface)
    (e : Endpoint A) (network : A → Attempt) (defaultInterface : Except String Interface)
    (addr : NodeAddr A) (reachable : b.Reachable S generate) (built : (b.build S builtOn).1 = e) :
    (∀ conn e', e.connectNode S C network defaultInterface addr = .ok (conn, e') →
      conn.remoteNodeId = addr.nodeId) ↔
    ∀ iface, defaultInterface = .ok iface → ∀ before candidate after peer n,
      e.candidates S iface addr = before ++ candidate :: after →
      (∀ earlier ∈ before, Endpoint.Refused S C network earlier) →
      Answers S candidate.1 (network candidate.2) candidate.2 peer → Presents C peer n →
      n = addr.nodeId := by
  have wellBuilt : e.WellBuilt := built ▸ EndpointBuilder.build_wellBuilt reachable.kept builtOn
  constructor
  · rintro intended iface rfl before candidate after peer n order refused answers presents
    have member : ∀ c ∈ before ++ candidate :: after, c ∈ e.candidates S iface addr :=
      fun _ there => order ▸ there
    obtain ⟨⟨conn, e'⟩, first, rfl⟩ := (wellBuilt.attempt_eq_ok (member candidate (by simp))).mpr
      ⟨peer, answers, presents⟩
    have errors : ∀ c ∈ before, ∃ error, e.attempt S C network c = .err error := fun c there =>
      (wellBuilt.attempt_eq_err (member c (List.mem_append_left _ there))).mpr (refused c there)
    apply intended conn e'
    rw [wellBuilt.connectNode_eq, Outcome.firstOk_eq_ok.mpr ⟨before, candidate, after, order, errors, first⟩]
    rfl
  · intro condition conn e' connected
    cases defaultInterface with
    | error text => cases connected
    | ok iface =>
        rw [wellBuilt.connectNode_eq] at connected
        obtain ⟨found, tried, same⟩ := Outcome.bind_eq_ok.mp connected
        obtain rfl := Outcome.okOr_eq_ok.mp same
        obtain ⟨before, candidate, after, order, errors, first⟩ := Outcome.firstOk_eq_ok.mp tried
        have member : ∀ c ∈ before ++ candidate :: after, c ∈ e.candidates S iface addr :=
          fun _ there => order ▸ there
        obtain ⟨peer, answers, presents⟩ :=
          (wellBuilt.attempt_eq_ok (member candidate (by simp))).mp ⟨_, first, rfl⟩
        exact condition iface rfl before candidate after peer _ order
          (fun c there => (wellBuilt.attempt_eq_err (member c (List.mem_append_left _ there))).mp
            (errors c there)) answers presents

namespace Sample

/-- Addresses as the list of their layers, enough of them to dial one. -/
def stackAddrs : StackAddrs (List Protocol) where
  ip layers := layers.findSome? fun
    | .Ip4 ip => some (.V4 ip)
    | .Ip6 ip => some (.V6 ip)
    | _ => none
  transport
    | [_, .Tcp port, .Tls] => some (.TlsOverTcp port)
    | [_, .Tcp port] => some (.Tcp port)
    | [_, .Udp port, .Quic] => some (.Quic port)
    | [_, .Udp port] => some (.Udp port)
    | _ => none
  socketAddr
    | .Ip4 ip :: .Tcp port :: _ | .Ip4 ip :: .Udp port :: _ => some ⟨.V4 ip, port⟩
    | .Ip6 ip :: .Tcp port :: _ | .Ip6 ip :: .Udp port :: _ => some ⟨.V6 ip, port⟩
    | _ => none
  name _ := none
  resolved layers := layers.any fun
    | .Ip4 _ | .Ip6 _ => true
    | _ => false
  getDns _ := none
  resolve layers ip := (match ip with | .V4 ip => .Ip4 ip | .V6 ip => .Ip6 ip) :: layers.tail
  empty := []
  withIp layers ip := layers ++ [match ip with | .V4 ip => .Ip4 ip | .V6 ip => .Ip6 ip]
  withProtocol layers protocol := layers ++ [protocol]
  withNodeId layers _ := layers ++ [.other]

/-- `/ip4/203.0.113.7/tcp/4432/tls` -/
def dialled : List Protocol := [.Ip4 ⟨203, 0, 113, 7⟩, .Tcp 4432, .Tls]

/-- `/ip4/203.0.113.7/udp/4432/quic` -/
def dialledQuic : List Protocol := [.Ip4 ⟨203, 0, 113, 7⟩, .Udp 4432, .Quic]

def nodeAddr (nodeId : NodeId) : NodeAddr (List Protocol) := ⟨nodeId, [dialled], List.nodup_singleton _⟩

def interface : Interface := ⟨[.ofBits 32 Ipv4Addr.toNat ⟨192, 168, 1, 2⟩ 24], []⟩

/-- The sample node answers, whatever the address. -/
def peer : PeerAnswer where
  endEntity := certificateDer uri
  intermediates := []
  scheme := .ECDSA_NISTP256_SHA256
  message := handshakeMessage
  signature := handshakeSignature
  presentedAt := 1700000000
  signedAt := 1700000000
  extractedAt := 1700000001

def answering (_ : List Protocol) : Attempt where
  lookup := none
  serverName := true
  tcp := .ready (some ⟨.V4 ⟨192, 168, 1, 2⟩, 50000⟩)
  bind _ := none
  handshake := .ready peer

def generate (_ : Nat) (_ : Keypair) : Option (List UInt8) := some (certificateDer uri)

def config : TransportConfig where
  readBufferSize := DEFAULT_READ_BUFFER_SIZE
  writeBufferSize := DEFAULT_WRITE_BUFFER_SIZE
  clientTlsConfig := ⟨.withRemoteNodeId none, certificateDer uri, 0⟩
  serverTlsConfig := ⟨.new, certificateDer uri, 1⟩
  keypair := ⟨nodeId⟩

/-- `EndpointBuilder::new().with_tcp()` -/
def builder : EndpointBuilder (List Protocol) where
  config := config
  protocols := [.TlsOverTcp]
  addrs := []
  listenEnabled := true
  allowLoopback := false

def endpoint : Endpoint (List Protocol) := (builder.build stackAddrs (some interface)).1

theorem builder_reachable : builder.Reachable stackAddrs generate :=
  ⟨0, ⟨nodeId⟩, _, [.withTcp], .inl rfl, rfl⟩

def otherNodeId : NodeId := ⟨List.replicate 32 0x58, rfl⟩

/-- Whoever is meant, the sample node is what the connection is to. -/
theorem connects (intended : NodeId) : ∃ conn e',
    endpoint.connectNode stackAddrs (crates uri) answering (.ok interface) (nodeAddr intended) =
      .ok (conn, e') ∧ conn.remoteNodeId = nodeId := by
  have connected : (do
      let result ← endpoint.connectNode stackAddrs (crates uri) answering (.ok interface) (nodeAddr nodeId)
      return result.1.remoteNodeId) = .ok nodeId := by decide +kernel
  obtain ⟨⟨conn, e'⟩, result, same⟩ := Outcome.bind_eq_ok.mp connected
  exact ⟨conn, e', result, Outcome.ok.inj same⟩

end Sample

/-- The node that was meant answers, and is connected to. -/
theorem connectNode_authenticates_iff_sample : ∃ conn e',
    Sample.endpoint.connectNode Sample.stackAddrs (Sample.crates Sample.uri) Sample.answering
      (.ok Sample.interface) (Sample.nodeAddr Sample.nodeId) = .ok (conn, e') ∧
    conn.remoteNodeId = Sample.nodeId := by
  have own : authenticate (Sample.crates Sample.uri) Sample.config.clientTlsConfig Sample.peer =
      .ok Sample.nodeId := by decide +kernel
  have intended := (connectNode_authenticates_iff Sample.stackAddrs (Sample.crates Sample.uri)
    Sample.generate Sample.builder (some Sample.interface) Sample.endpoint Sample.answering
    (.ok Sample.interface) (Sample.nodeAddr Sample.nodeId) Sample.builder_reachable rfl).mpr (by
      rintro iface - before candidate after peer n - - answers presents
      obtain rfl : Sample.peer = peer := by
        injection answers.handshake
      have also : authenticate (Sample.crates Sample.uri) Sample.config.clientTlsConfig Sample.peer =
          .ok n := authenticate_eq_ok.mpr ⟨presents, nofun⟩
      exact Outcome.ok.inj (also.symm.trans own))
  obtain ⟨conn, e', connected, -⟩ := Sample.connects Sample.nodeId
  exact ⟨conn, e', connected, intended conn e' connected⟩

/-- Another node is meant than the one that answers at its address, and the connection to
the one that answers is returned. -/
theorem connectNode_accepts_impostor : ∃ intended conn e',
    Sample.endpoint.connectNode Sample.stackAddrs (Sample.crates Sample.uri) Sample.answering
      (.ok Sample.interface) (Sample.nodeAddr intended) = .ok (conn, e') ∧
    conn.remoteNodeId = Sample.nodeId ∧ intended ≠ Sample.nodeId := by
  obtain ⟨conn, e', connected, same⟩ := Sample.connects Sample.otherNodeId
  exact ⟨Sample.otherNodeId, conn, e', connected, same, by decide⟩

end Foctet.Net
