import Foctet.Lib.Table
import Foctet.Net.Device
import Foctet.Net.Transport

/-! The endpoint: its builder, what `build` makes of the builder's calls, and the addresses of
a node in the order of trying. -/
namespace Foctet.Net
open Foctet.Core Foctet.Lib

structure EndpointBuilder (A : Type) where
  config : TransportConfig
  protocols : List TransportKind
  /-- a set, in some order of iteration -/
  addrs : List A
  listenEnabled : Bool
  allowLoopback : Bool

/-- What the spawned actor listens with. -/
structure EndpointActor (A : Type) where
  config : TransportConfig
  addrs : List A
  listenEnabled : Bool

structure Endpoint (A : Type) where
  config : TransportConfig
  addrs : List A
  priorityMap : List (Nat × TransportKind)
  transports : Table TransportKind Transport
  allowLoopback : Bool

/-- A call of one of the builder's methods. -/
inductive BuilderCall (A : Type) where
  /-- with the draw for the first of its two certificates -/
  | withKeypair (draw : Nat) (keypair : Keypair)
  | withQuic
  | withTcp
  | withAddr (addr : A)
  | withoutListen
  | allowLoopback (allow : Bool)
  | withReadBufferSize (size : Nat)
  | withWriteBufferSize (size : Nat)
  | withMaxReadBufferSize
  | withMaxWriteBufferSize

/-- The protocol that a call adds. -/
def BuilderCall.adds {A : Type} (S : StackAddrs A) : BuilderCall A → Option TransportKind
  | .withQuic => some .Quic
  | .withTcp => some .TlsOverTcp
  | .withAddr addr => S.kind addr
  | _ => none

variable {A : Type} [DecidableEq A] (S : StackAddrs A)
  (generate : Nat → Keypair → Option (List UInt8))

/-- The address of a transport on a socket, as the three functions below write it out. -/
def stackAddr (kind : TransportKind) (socket : SocketAddr) : A :=
  let host := match socket.ip with
    | .V4 ip => S.withProtocol S.empty (.Ip4 ip)
    | .V6 ip => S.withProtocol S.empty (.Ip6 ip)
  match kind with
  | .Quic => S.withProtocol (S.withProtocol host (.Udp socket.port)) .Quic
  | .TlsOverTcp => S.withProtocol (S.withProtocol host (.Tcp socket.port)) .Tls

def getUnspecifiedStackAddrs (protocols : List TransportKind) (defaultInterface : Option Interface) :
    List A :=
  let unspecifiedAddr := getUnspecifiedServerAddr defaultInterface
  protocols.foldl (fun addrs proto => addrs.insert (stackAddr S proto unspecifiedAddr)) []

def getDefaultStackAddrs (protocols : List TransportKind) (defaultInterface : Option Interface)
    (allowLoopback : Bool) : List A :=
  let socketAddrs := getDefaultServerAddrs defaultInterface DEFAULT_SERVER_PORT allowLoopback
  protocols.foldl (fun addrs proto =>
    socketAddrs.foldl (fun addrs addr => addrs.insert (stackAddr S proto addr)) addrs) []

def replaceWithActualAddrs (inputAddrs : List A) (protocols : List TransportKind)
    (defaultInterface : Option Interface) (allowLoopback : Bool) : List A :=
  let actualAddrs := getDefaultServerAddrs defaultInterface DEFAULT_SERVER_PORT allowLoopback
  inputAddrs.foldl (fun result addr =>
    match S.socketAddr addr with
    | none => result
    | some sockAddr =>
        if sockAddr.ip.isUnspecified then
          actualAddrs.foldl (fun result actual =>
            protocols.foldl (fun result proto =>
              if actual.ip.isIpv4 = sockAddr.ip.isIpv4 then
                result.insert (stackAddr S proto ⟨actual.ip, sockAddr.port⟩)
              else result) result) result
        else result.insert addr) []

namespace EndpointBuilder

/-- The keypair is a random one. -/
def new (draw : Nat) (keypair : Keypair) : Outcome AnyhowError (EndpointBuilder A) := do
  let config ← Outcome.orPanic (TransportConfig.new generate draw keypair)
  return { config := config, protocols := [], addrs := [], listenEnabled := true, allowLoopback := false }

def default (draw : Nat) (keypair : Keypair) : Outcome AnyhowError (EndpointBuilder A) := do
  let config ← Outcome.orPanic (TransportConfig.new generate draw keypair)
  let addr := S.withNodeId (stackAddr S .Quic ⟨.V4 .UNSPECIFIED, DEFAULT_SERVER_PORT⟩)
    keypair.publicKey.publicKey
  return { config := config, protocols := [.Quic], addrs := [addr], listenEnabled := true,
           allowLoopback := false }

def pushProtocol (b : EndpointBuilder A) (proto : TransportKind) : EndpointBuilder A :=
  if proto ∈ b.protocols then b else { b with protocols := b.protocols ++ [proto] }

def apply (b : EndpointBuilder A) : BuilderCall A → Outcome AnyhowError (EndpointBuilder A)
  | .withKeypair draw keypair => do
      let config ← Outcome.orPanic (b.config.setKeypair generate draw keypair)
      return { b with config := config }
  | .withQuic => .ok (b.pushProtocol .Quic)
  | .withTcp => .ok (b.pushProtocol .TlsOverTcp)
  | .withAddr addr => do
      let transport ← Outcome.okOr (.message "Missing transport protocol in address") (S.transport addr)
      let proto ← Outcome.okOr (.message "Unsupported transport protocol")
        (TransportKind.fromProtocol transport)
      let b := b.pushProtocol proto
      return { b with addrs := b.addrs.insert addr }
  | .withoutListen => .ok { b with listenEnabled := false }
  | .allowLoopback allow => .ok { b with allowLoopback := allow }
  | .withReadBufferSize size => .ok { b with config := { b.config with readBufferSize := size } }
  | .withWriteBufferSize size => .ok { b with config := { b.config with writeBufferSize := size } }
  | .withMaxReadBufferSize =>
      .ok { b with config := { b.config with readBufferSize := MAX_READ_BUFFER_SIZE } }
  | .withMaxWriteBufferSize =>
      .ok { b with config := { b.config with writeBufferSize := MAX_WRITE_BUFFER_SIZE } }

def transportOf (config : TransportConfig) : TransportKind → Transport
  | .Quic => .Quic (.new config)
  | .TlsOverTcp => .Tcp (.new config)

/-- `(i + 1) as u8` -/
def priority (i : Nat) : Nat := (i + 1) % 2 ^ 8

def build (b : EndpointBuilder A) (defaultInterface : Option Interface) : Endpoint A × EndpointActor A :=
  let priorityMap := b.protocols.zipIdx.foldl (fun m p => SortedMap.insert (priority p.2) p.1 m) []
  let transports := b.protocols.foldl (fun m proto => m.insert proto (transportOf b.config proto)) Table.empty
  let addrs := if b.addrs.isEmpty then getUnspecifiedStackAddrs S b.protocols defaultInterface else b.addrs
  let directAddrs :=
    if b.addrs.isEmpty then getDefaultStackAddrs S b.protocols defaultInterface b.allowLoopback
    else replaceWithActualAddrs S b.addrs b.protocols defaultInterface b.allowLoopback
  ({ config := b.config, addrs := directAddrs, priorityMap := priorityMap, transports := transports,
     allowLoopback := b.allowLoopback },
   { config := b.config, addrs := addrs, listenEnabled := b.listenEnabled })

end EndpointBuilder

/-- The addresses of a node for some protocols, each with the one it is tried on, in the order
of trying. -/
def tried (addr : NodeAddr A) (allowLoopback : Bool) (iface : Interface)
    (protocols : List TransportKind) : List (TransportKind × A) :=
  protocols.flatMap fun proto =>
    (sortAddrsByReachability S (addr.getDirectAddrs S proto allowLoopback) iface).map (proto, ·)

namespace Endpoint

/-- All that `connect_node` may try. -/
def candidates (e : Endpoint A) (iface : Interface) (addr : NodeAddr A) : List (TransportKind × A) :=
  tried S addr e.allowLoopback iface (e.priorityMap.map Prod.snd)

/-- What `build` guarantees: each protocol in the priority map has its transport, and no
client configuration names a node to connect to. -/
structure WellBuilt (e : Endpoint A) : Prop where
  transport : ∀ proto ∈ e.priorityMap.map Prod.snd, ∃ t, e.transports.get proto = some t ∧
    t.kind = proto ∧ t.clientConfig.verifier.remoteNodeId = none

end Endpoint

namespace EndpointBuilder

/-- Started by `new` or `default` and led through some calls. -/
def Reachable (b : EndpointBuilder A) : Prop :=
  ∃ draw keypair start, ∃ calls : List (BuilderCall A),
    (new generate draw keypair = .ok start ∨ default S generate draw keypair = .ok start) ∧
    calls.foldlM (apply S generate) start = .ok b

/-- What every call keeps. -/
structure Kept (b : EndpointBuilder A) : Prop where
  nodup : b.protocols.Nodup
  anyNode : b.config.clientTlsConfig.verifier.remoteNodeId = none

end EndpointBuilder

variable {S} {generate}

theorem makeClientConfig_verifier {draw : Nat} {keypair : Keypair} {config : ClientConfig}
    (made : makeClientConfig generate draw keypair none = some config) : config.verifier.remoteNodeId = none := by
  obtain ⟨certificate, -, same⟩ := Option.bind_eq_some_iff.mp made
  obtain rfl := Option.some.inj same
  rfl

theorem TransportConfig.new_verifier {draw : Nat} {keypair : Keypair} {config : TransportConfig}
    (made : TransportConfig.new generate draw keypair = some config) :
    config.clientTlsConfig.verifier.remoteNodeId = none := by
  obtain ⟨client, clientMade, rest⟩ := Option.bind_eq_some_iff.mp made
  obtain ⟨server, -, same⟩ := Option.bind_eq_some_iff.mp rest
  obtain rfl := Option.some.inj same
  exact makeClientConfig_verifier clientMade

theorem TransportConfig.setKeypair_verifier {draw : Nat} {keypair : Keypair}
    {config config' : TransportConfig} (made : config.setKeypair generate draw keypair = some config') :
    config'.clientTlsConfig.verifier.remoteNodeId = none := by
  obtain ⟨client, clientMade, rest⟩ := Option.bind_eq_some_iff.mp made
  obtain ⟨server, -, same⟩ := Option.bind_eq_some_iff.mp rest
  obtain rfl := Option.some.inj same
  exact makeClientConfig_verifier clientMade

namespace EndpointBuilder
variable {b b' : EndpointBuilder A}

omit [DecidableEq A] in
theorem pushProtocol_protocols (b : EndpointBuilder A) (proto : TransportKind) :
    (b.pushProtocol proto).protocols =
      if proto ∈ b.protocols then b.protocols else b.protocols ++ [proto] := by
  unfold pushProtocol
  split <;> rfl

omit [DecidableEq A] in
@[simp] theorem pushProtocol_addrs (b : EndpointBuilder A) (proto : TransportKind) :
    (b.pushProtocol proto).addrs = b.addrs := by
  unfold pushProtocol
  split <;> rfl

omit [DecidableEq A] in
@[simp] theorem pushProtocol_config (b : EndpointBuilder A) (proto : TransportKind) :
    (b.pushProtocol proto).config = b.config := by
  unfold pushProtocol
  split <;> rfl

/-- What a call does to a builder: it adds its protocol, and an address only if that names a
transport; no call makes the client configuration name a node. -/
structure Applied (S : StackAddrs A) (call : BuilderCall A) (b b' : EndpointBuilder A) : Prop where
  protocols : b'.protocols =
    (call.adds S).elim b.protocols fun proto => (b.pushProtocol proto).protocols
  addrs : b'.addrs = b.addrs ∨
    ∃ addr kind, S.kind addr = some kind ∧ b'.addrs = b.addrs.insert addr
  anyNode : b.config.clientTlsConfig.verifier.remoteNodeId = none →
    b'.config.clientTlsConfig.verifier.remoteNodeId = none

theorem apply_applied {call : BuilderCall A} (applied : b.apply S generate call = .ok b') :
    Applied S call b b' := by
  cases call with
  | withKeypair draw keypair =>
      obtain ⟨config, made, same⟩ := Outcome.bind_eq_ok.mp applied
      obtain rfl := Outcome.ok.inj same
      exact ⟨rfl, .inl rfl, fun _ =>
        TransportConfig.setKeypair_verifier (Outcome.orPanic_eq_ok.mp made)⟩
  | withAddr addr =>
      obtain ⟨transport, named, rest⟩ := Outcome.bind_eq_ok.mp applied
      obtain ⟨proto, supported, same⟩ := Outcome.bind_eq_ok.mp rest
      obtain rfl := Outcome.ok.inj same
      have kind : S.kind addr = some proto := Option.bind_eq_some_iff.mpr
        ⟨transport, Outcome.okOr_eq_ok.mp named, Outcome.okOr_eq_ok.mp supported⟩
      refine ⟨?_, .inr ⟨addr, proto, kind, ?_⟩, fun anyNode => ?_⟩
      · rw [BuilderCall.adds, kind]
        rfl
      · rw [pushProtocol_addrs]
      · rwa [pushProtocol_config]
  | withQuic =>
      obtain rfl := Outcome.ok.inj applied
      exact ⟨rfl, .inl (by simp), fun anyNode => by simpa using anyNode⟩
  | withTcp =>
      obtain rfl := Outcome.ok.inj applied
      exact ⟨rfl, .inl (by simp), fun anyNode => by simpa using anyNode⟩
  | _ =>
      obtain rfl := Outcome.ok.inj applied
      exact ⟨rfl, .inl rfl, id⟩

omit [DecidableEq A] in
theorem pushProtocol_nodup (nodup : b.protocols.Nodup) (proto : TransportKind) :
    (b.pushProtocol proto).protocols.Nodup := by
  rw [pushProtocol_protocols]
  split
  case isTrue => exact nodup
  case isFalse new =>
      rw [← List.concat_eq_append]
      exact nodup.concat new

theorem Kept.apply {call : BuilderCall A} (applied : b.apply S generate call = .ok b') (kept : b.Kept) :
    b'.Kept := by
  have effect := apply_applied applied
  refine ⟨?_, effect.anyNode kept.anyNode⟩
  rw [effect.protocols]
  cases call.adds S with
  | none => exact kept.nodup
  | some proto => exact pushProtocol_nodup kept.nodup proto

theorem Reachable.kept (reachable : b.Reachable S generate) : b.Kept := by
  obtain ⟨draw, keypair, start, calls, started, ran⟩ := reachable
  refine Outcome.foldlM_invariant Kept (fun _ _ _ applied kept => kept.apply applied) ran ?_
  rcases started with started | started
  · obtain ⟨config, made, same⟩ := Outcome.bind_eq_ok.mp started
    obtain rfl := Outcome.ok.inj same
    exact ⟨List.nodup_nil, TransportConfig.new_verifier (Outcome.orPanic_eq_ok.mp made)⟩
  · obtain ⟨config, made, same⟩ := Outcome.bind_eq_ok.mp started
    obtain rfl := Outcome.ok.inj same
    exact ⟨List.nodup_singleton _, TransportConfig.new_verifier (Outcome.orPanic_eq_ok.mp made)⟩

/-- A list without repetitions has at most both kinds. -/
theorem length_le_of_nodup {protocols : List TransportKind} (nodup : protocols.Nodup) :
    protocols.length ≤ 2 := by
  have both : protocols ⊆ [.Quic, .TlsOverTcp] := fun kind _ => by cases kind <;> decide
  exact (List.subperm_of_subset nodup both).length_le

/-- As long as the index fits a byte, the priorities are the order of the list. -/
theorem priorities_values {protocols : List TransportKind} {i : Nat} {m : List (Nat × TransportKind)}
    (below : ∀ p ∈ m, p.1 ≤ i) (fits : i + protocols.length < 2 ^ 8) :
    ((protocols.zipIdx i).foldl (fun m p => SortedMap.insert (priority p.2) p.1 m) m).map Prod.snd =
      m.map Prod.snd ++ protocols := by
  induction protocols generalizing i m with
  | nil => exact (List.append_nil _).symm
  | cons proto protocols ih =>
      rw [List.length_cons] at fits
      have index : priority i = i + 1 := Nat.mod_eq_of_lt (by omega)
      have above : ∀ p ∈ m, p.1 < i + 1 := fun p there => Nat.lt_succ_of_le (below p there)
      rw [List.zipIdx_cons, List.foldl_cons, index, SortedMap.insert_above above, ih _ (by omega),
        List.map_append, List.append_assoc]
      · rfl
      · intro p there
        rcases List.mem_append.mp there with there | own
        · exact Nat.le_succ_of_le (below p there)
        · rw [List.mem_singleton.mp own]

theorem build_priorities {b : EndpointBuilder A} (kept : b.Kept) (defaultInterface : Option Interface) :
    (b.build S defaultInterface).1.priorityMap.map Prod.snd = b.protocols := by
  have short := length_le_of_nodup kept.nodup
  exact priorities_values nofun (by omega)

/-- Each protocol has its transport, made of the configuration. -/
theorem build_transport (builtOn : Option Interface) {proto : TransportKind}
    (enabled : proto ∈ b.protocols) :
    (b.build S builtOn).1.transports.get proto = some (transportOf b.config proto) :=
  (Table.get_foldl_insert _ _ _ _).trans (if_pos enabled)

theorem build_wellBuilt {b : EndpointBuilder A} (kept : b.Kept) (defaultInterface : Option Interface) :
    (b.build S defaultInterface).1.WellBuilt := by
  refine ⟨fun proto there => ?_⟩
  rw [build_priorities kept] at there
  refine ⟨transportOf b.config proto, ?_, ?_, ?_⟩
  · exact build_transport defaultInterface there
  · cases proto <;> rfl
  · cases proto <;> exact kept.anyNode

end EndpointBuilder
end Foctet.Net
