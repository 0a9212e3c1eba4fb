import Foctet.Lib.Lists
import Foctet.Net.Authentication

/-! The addresses an endpoint advertises, against those it listens on. An unspecified listen
address is replaced by the addresses of the interface, once for every protocol of the
builder, whichever protocol it was configured for. -/
namespace Foctet.Net
open Foctet.Core Foctet.Lib

variable {A : Type} [DecidableEq A] {S : StackAddrs A} {generate : Nat → Keypair → Option (List UInt8)}

/-- What the stackaddr crate says of the addresses that are put together here: an address
names the transport and the socket it was made of, and a node ID does not change that. -/
structure Lawful (S : StackAddrs A) : Prop where
  quic : ∀ socket, S.transport (stackAddr S .Quic socket) = some (.Quic socket.port)
  tls : ∀ socket, S.transport (stackAddr S .TlsOverTcp socket) = some (.TlsOverTcp socket.port)
  socketAddr : ∀ kind socket, S.socketAddr (stackAddr S kind socket) = some socket
  nodeId : ∀ a id, S.transport (S.withNodeId a id) = S.transport a

/-- Connections to the advertised address reach the listener of a configured one: both have
the same kind of transport, port and family, and the configured address is the advertised
one or unspecified. -/
structure Backs (S : StackAddrs A) (configured advertised : A) : Prop where
  kind : ∃ kind, S.kind configured = some kind ∧ S.kind advertised = some kind
  socket : ∃ listening dialled, S.socketAddr configured = some listening ∧
    S.socketAddr advertised = some dialled ∧ listening.port = dialled.port ∧
    listening.ip.isIpv4 = dialled.ip.isIpv4 ∧
    (advertised = configured ∨ listening.ip.isUnspecified)

/-- An unspecified address of the family, with the port. -/
def Wildcard (S : StackAddrs A) (v4 : Bool) (port : UInt16) (a : A) : Prop :=
  ∃ socket, S.socketAddr a = some socket ∧ socket.ip.isUnspecified ∧ socket.ip.isIpv4 = v4 ∧
    socket.port = port

omit [DecidableEq A] in
theorem Lawful.kind (lawful : Lawful S) (kind : TransportKind) (socket : SocketAddr) :
    S.kind (stackAddr S kind socket) = some kind := by
  cases kind with
  | Quic =>
      rw [StackAddrs.kind, lawful.quic]
      rfl
  | TlsOverTcp =>
      rw [StackAddrs.kind, lawful.tls]
      rfl

omit [DecidableEq A] in
theorem Lawful.kind_withNodeId (lawful : Lawful S) (a : A) (id : List UInt8) :
    S.kind (S.withNodeId a id) = S.kind a := by
  rw [StackAddrs.kind, lawful.nodeId]
  rfl

omit [DecidableEq A] in
/-- What is made of an unspecified address is backed by an unspecified address of its own
kind of transport, or is configured itself. -/
theorem backed_iff (lawful : Lawful S) {addrs : List A} {proto : TransportKind} {ip : IpAddr}
    {port : UInt16} :
    (∃ c ∈ addrs, Backs S c (stackAddr S proto ⟨ip, port⟩)) ↔
      (∃ c ∈ addrs, Wildcard S ip.isIpv4 port c ∧ S.kind c = some proto) ∨
        stackAddr S proto ⟨ip, port⟩ ∈ addrs := by
  have own := lawful.kind proto ⟨ip, port⟩
  have place := lawful.socketAddr proto ⟨ip, port⟩
  constructor
  · rintro ⟨c, configured, ⟨kind, listens, advertised⟩, listening, dialled, socket, dials, ports, family, same⟩
    obtain rfl := Option.some.inj (place.symm.trans dials)
    rcases same with rfl | unspecified
    · exact .inr configured
    · refine .inl ⟨c, configured, ⟨listening, socket, unspecified, family, ports⟩, ?_⟩
      rw [listens, ← advertised, own]
  · rintro (⟨c, configured, ⟨listening, socket, unspecified, family, ports⟩, listens⟩ | configured)
    · exact ⟨c, configured, ⟨proto, listens, own⟩, listening, _, socket, place, ports, family,
        .inr unspecified⟩
    · exact ⟨_, configured, ⟨proto, own, own⟩, _, _, place, place, rfl, rfl, .inl rfl⟩

/-- The three loops: a configured address stays, unless it is unspecified. -/
theorem mem_replaceWithActualAddrs {inputAddrs : List A} {protocols : List TransportKind}
    {defaultInterface : Option Interface} {allowLoopback : Bool} {a : A} :
    a ∈ replaceWithActualAddrs S inputAddrs protocols defaultInterface allowLoopback ↔
      ∃ c ∈ inputAddrs, ∃ socket, S.socketAddr c = some socket ∧
        if socket.ip.isUnspecified then
          ∃ actual ∈ getDefaultServerAddrs defaultInterface DEFAULT_SERVER_PORT allowLoopback,
            ∃ proto ∈ protocols, actual.ip.isIpv4 = socket.ip.isIpv4 ∧
              a = stackAddr S proto ⟨actual.ip, socket.port⟩
        else a = c := by
  refine (mem_foldl_iff ?_ [] inputAddrs).trans (or_iff_right (List.not_mem_nil))
  intro result c
  cases S.socketAddr c with
  | none => simp
  | some socket =>
      simp only [Option.some.injEq, exists_eq_left']
      split
      case isTrue unspecified =>
          refine mem_foldl_iff (fun result actual => ?_) result _
          refine mem_foldl_iff (fun result proto => ?_) result protocols
          split
          case isTrue family => simp [family, or_comm]
          case isFalse other => simp [other]
      case isFalse specified => rw [List.mem_insert_iff, or_comm]

namespace EndpointBuilder
variable {b b' : EndpointBuilder A}

/-- The builder has addresses of a known kind of transport only. -/
def KindsKnown (S : StackAddrs A) (b : EndpointBuilder A) : Prop :=
  ∀ c ∈ b.addrs, ∃ kind, S.kind c = some kind

theorem KindsKnown.apply {call : BuilderCall A} (applied : b.apply S generate call = .ok b')
    (known : b.KindsKnown S) : b'.KindsKnown S := by
  intro c there
  rcases (apply_applied applied).addrs with same | ⟨addr, kind, named, inserted⟩
  · exact known c (same ▸ there)
  · rw [inserted, List.mem_insert_iff] at there
    rcases there with rfl | there
    · exact ⟨kind, named⟩
    · exact known c there

theorem Reachable.kindsKnown (lawful : Lawful S) (reachable : b.Reachable S generate) :
    b.KindsKnown S := by
  obtain ⟨draw, keypair, start, calls, started, ran⟩ := reachable
  apply Outcome.foldlM_invariant (KindsKnown S) (fun _ _ _ applied known => known.apply applied) ran
  rcases started with started | started
  · obtain ⟨config, -, same⟩ := Outcome.bind_eq_ok.mp started
    obtain rfl := Outcome.ok.inj same
    exact List.forall_mem_nil _
  · obtain ⟨config, -, same⟩ := Outcome.bind_eq_ok.mp started
    obtain rfl := Outcome.ok.inj same
    exact List.forall_mem_singleton.mpr ⟨.Quic, (lawful.kind_withNodeId _ _).trans (lawful.kind .Quic _)⟩

end EndpointBuilder

open EndpointBuilder in
/-- An endpoint advertises only what it listens on exactly if, wherever it listens on an
unspecified address, it does so for each of its protocols: on an unspecified address of the
same family and port, or on every address of the interface that has the family. -/
theorem only_listened_advertised_iff (S : StackAddrs A) (generate : Nat → Keypair → Option (List UInt8))
    (b : EndpointBuilder A) (defaultInterface : Option Interface) (lawful : Lawful S)
    (reachable : b.Reachable S generate) (configured : b.addrs ≠ []) :
    (∀ a ∈ (b.build S defaultInterface).1.addrs,
      ∃ c ∈ (b.build S defaultInterface).2.addrs, Backs S c a) ↔
    ∀ v4 port, (∃ c ∈ b.addrs, Wildcard S v4 port c) →
      ∀ actual ∈ getDefaultServerAddrs defaultInterface DEFAULT_SERVER_PORT b.allowLoopback,
        actual.ip.isIpv4 = v4 → ∀ proto ∈ b.protocols,
          (∃ c ∈ b.addrs, Wildcard S v4 port c ∧ S.kind c = some proto) ∨
            stackAddr S proto ⟨actual.ip, port⟩ ∈ b.addrs := by
  have given : b.addrs.isEmpty = false := List.isEmpty_eq_false_iff.mpr configured
  have listening : (b.build S defaultInterface).2.addrs = b.addrs := by
    simp only [build, given]
    rfl
  have advertised : (b.build S defaultInterface).1.addrs =
      replaceWithActualAddrs S b.addrs b.protocols defaultInterface b.allowLoopback := by
    simp only [build, given]
    rfl
  rw [listening, advertised]
  constructor
  · rintro backed _ _ ⟨c, there, socket, parsed, unspecified, rfl, rfl⟩ actual member family proto enabled
    rw [← family, ← backed_iff lawful]
    apply backed
    refine mem_replaceWithActualAddrs.mpr ⟨c, there, socket, parsed, ?_⟩
    rw [if_pos unspecified]
    exact ⟨actual, member, proto, enabled, family, rfl⟩
  · intro each a member
    obtain ⟨c, there, socket, parsed, replaced⟩ := mem_replaceWithActualAddrs.mp member
    split at replaced
    case isTrue unspecified =>
        obtain ⟨actual, actual_there, proto, enabled, family, rfl⟩ := replaced
        rw [backed_iff lawful, family]
        exact each _ _ ⟨c, there, socket, parsed, unspecified, rfl, rfl⟩ actual actual_there family
          proto enabled
    case isFalse specified =>
        -- `with_addr` has checked the kind of a configured address
        obtain ⟨kind, known⟩ := reachable.kindsKnown lawful c there
        subst replaced
        exact ⟨a, there, ⟨kind, known, known⟩, socket, socket, parsed, parsed, rfl, rfl, .inl rfl⟩

namespace Sample

/-- Addresses whose transport is found whether or not a node ID follows. -/
def identified : StackAddrs (List Protocol) :=
  { stackAddrs with transport := fun layers => stackAddrs.transport (layers.filter (· ≠ .other)) }

theorem identified_lawful : Lawful identified where
  quic socket := by rcases socket with ⟨_ | _, _⟩ <;> rfl
  tls socket := by rcases socket with ⟨_ | _, _⟩ <;> rfl
  socketAddr kind socket := by rcases socket with ⟨_ | _, _⟩ <;> cases kind <;> rfl
  nodeId layers id := by
    have filtered : (layers ++ [Protocol.other]).filter (· ≠ .other) = layers.filter (· ≠ .other) := by
      simp
    exact congrArg stackAddrs.transport filtered

/-- `/ip4/0.0.0.0/udp/4432/quic` -/
def anyQuic : List Protocol := [.Ip4 .UNSPECIFIED, .Udp 4432, .Quic]

/-- `EndpointBuilder::new().with_addr(anyQuic)` -/
def listening : EndpointBuilder (List Protocol) :=
  { builder with protocols := [.Quic], addrs := [anyQuic] }

/-- `EndpointBuilder::new().with_addr(anyQuic).with_tcp()` -/
def listeningWithTcp : EndpointBuilder (List Protocol) :=
  { builder with protocols := [.Quic, .TlsOverTcp], addrs := [anyQuic] }

end Sample

theorem only_listened_advertised_iff_quic :
    ∃ a ∈ (Sample.listening.build Sample.identified (some Sample.interface)).1.addrs,
      a = [.Ip4 ⟨192, 168, 1, 2⟩, .Udp 4432, .Quic] ∧
      ∃ c ∈ (Sample.listening.build Sample.identified (some Sample.interface)).2.addrs,
        Backs Sample.identified c a := by
  refine ⟨_, by decide, rfl, ?_⟩
  apply (only_listened_advertised_iff Sample.identified Sample.generate Sample.listening
    (some Sample.interface) Sample.identified_lawful
    ⟨0, ⟨Sample.nodeId⟩, _, [.withAddr Sample.anyQuic], .inl rfl, rfl⟩ (List.cons_ne_nil _ _)).mpr _ _
    (by decide)
  rintro v4 port ⟨c, there, wildcard⟩ actual - - proto enabled
  obtain rfl := List.mem_singleton.mp there
  obtain rfl := List.mem_singleton.mp enabled
  exact .inl ⟨Sample.anyQuic, there, wildcard, rfl⟩

/-- QUIC is listened on everywhere and TCP is enabled: a TCP address is advertised, and
nothing listens on TCP. -/
theorem advertises_unheard :
    Sample.listeningWithTcp.Reachable Sample.identified Sample.generate ∧
    (Sample.listeningWithTcp.build Sample.identified (some Sample.interface)).2.addrs =
      [[.Ip4 .UNSPECIFIED, .Udp 4432, .Quic]] ∧
    [.Ip4 ⟨192, 168, 1, 2⟩, .Tcp 4432, .Tls] ∈
      (Sample.listeningWithTcp.build Sample.identified (some Sample.interface)).1.addrs ∧
    ¬ Backs Sample.identified Sample.anyQuic [.Ip4 ⟨192, 168, 1, 2⟩, .Tcp 4432, .Tls] := by
  refine ⟨⟨0, ⟨Sample.nodeId⟩, _, [.withAddr Sample.anyQuic, .withTcp], .inl rfl, rfl⟩, rfl, by decide, ?_⟩
  rintro ⟨⟨kind, listens, advertised⟩, -⟩
  obtain rfl := Option.some.inj listens
  exact absurd advertised (by decide)

end Foctet.Net
