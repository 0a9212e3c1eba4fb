import Foctet.Core.Ip
import Foctet.Core.Key

/-! Addresses of nodes. What a `StackAddr` is made of belongs to the stackaddr crate
and is given; the crate here only asks it for its parts and builds new ones. -/
namespace Foctet.Core

inductive Protocol where
  | Ip4 (ip : Ipv4Addr)
  | Ip6 (ip : Ipv6Addr)
  | Dns (name : String)
  | Dns4 (name : String)
  | Dns6 (name : String)
  | Tcp (port : UInt16)
  | Udp (port : UInt16)
  | Tls
  | Quic
  | other
  deriving DecidableEq, Repr

/-- The transports a `StackAddr` can name; the last stands for those foctet has no use for. -/
inductive TransportProtocol where
  | Udp (port : UInt16)
  | Quic (port : UInt16)
  | Tcp (port : UInt16)
  | TlsOverTcp (port : UInt16)
  | other
  deriving DecidableEq, Repr

inductive TransportKind where
  | Quic
  | TlsOverTcp
  deriving DecidableEq, Repr

def TransportKind.fromProtocol : TransportProtocol → Option TransportKind
  | .Udp _ => some .Quic
  | .Quic _ => some .Quic
  | .Tcp _ => some .TlsOverTcp
  | .TlsOverTcp _ => some .TlsOverTcp
  | .other => none

/-- What is taken from the stackaddr crate. -/
structure StackAddrs (A : Type) where
  ip : A → Option IpAddr
  transport : A → Option TransportProtocol
  socketAddr : A → Option SocketAddr
  name : A → Option String
  resolved : A → Bool
  getDns : A → Option Protocol
  resolve : A → IpAddr → A
  empty : A
  withIp : A → IpAddr → A
  withProtocol : A → Protocol → A
  /-- `with_identity(Identity::NodeId(bytes))` -/
  withNodeId : A → List UInt8 → A

/-- The kind of transport an address names. -/
def StackAddrs.kind {A : Type} (S : StackAddrs A) (a : A) : Option TransportKind :=
  (S.transport a).bind TransportKind.fromProtocol

/-- The addresses stand in the order of the set. -/
structure NodeAddr (A : Type) where
  nodeId : NodeId
  addresses : List A
  nodup : addresses.Nodup

namespace NodeAddr
variable {A : Type} (S : StackAddrs A)

/-- The pairing of kinds and protocols as `get_direct_addrs` writes it out. -/
def usesTransport (transportId : TransportKind) (a : A) : Bool :=
  match transportId with
  | .Quic =>
      match S.transport a with
      | some (.Quic _) | some (.Udp _) => true
      | _ => false
  | .TlsOverTcp =>
      match S.transport a with
      | some (.Tcp _) | some (.TlsOverTcp _) => true
      | _ => false

def getDirectAddrs (addr : NodeAddr A) (transportId : TransportKind) (allowLoopback : Bool) : List A :=
  addr.addresses.filter fun a =>
    match S.ip a with
    | some ip => if !allowLoopback && ip.isLoopback then false else usesTransport S transportId a
    | none => false

end NodeAddr
end Foctet.Core
