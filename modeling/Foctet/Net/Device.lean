import Foctet.Core.Addr
import Foctet.Lib.Lists
import Mathlib.Algebra.Ring.Nat

/-! Interfaces of the host, and how addresses are ranked by where they can be reached from. -/
namespace Foctet.Net
open Foctet.Core Foctet.Lib

/-- A network of an interface, with what ipnet says of it. -/
structure IpNet (Ip : Type) where
  addr : Ip
  /-- `contains` of the network that `new` makes of the address and its prefix length, if it
  makes one -/
  contains : Option (Ip → Bool)

structure Interface where
  ipv4 : List (IpNet Ipv4Addr)
  ipv6 : List (IpNet Ipv6Addr)

/-- The network of the addresses of `width` bits whose leading bits agree with these. A prefix
longer than the address is refused. -/
def IpNet.ofBits {Ip : Type} (width : Nat) (toNat : Ip → Nat) (addr : Ip) (prefixLen : Nat) :
    IpNet Ip where
  addr := addr
  contains :=
    if prefixLen ≤ width then
      some fun ip => toNat addr / 2 ^ (width - prefixLen) = toNat ip / 2 ^ (width - prefixLen)
    else none

/-- A network that `new` refuses is skipped. -/
def inSameNet (targetIp : IpAddr) (iface : Interface) : Bool :=
  match targetIp with
  | .V4 target => iface.ipv4.any fun net => net.contains.any fun contains => contains target
  | .V6 target => iface.ipv6.any fun net => net.contains.any fun contains => contains target

def rankIp (ip : IpAddr) (iface : Interface) : Nat :=
  if ip.isLoopback then 3
  else if inSameNet ip iface then 2
  else if isGlobalIp ip then 1
  else 0

section
variable {A : Type} (S : StackAddrs A)

/-- The addresses that have an IP, with its rank. -/
def ranked (addrs : List A) (iface : Interface) : List (A × Nat) :=
  addrs.filterMap fun addr => (S.ip addr).map fun ip => (addr, rankIp ip iface)

def pickBestAddr (addrs : List A) (iface : Interface) : Option A :=
  (maxByKey Prod.snd (ranked S addrs iface)).map Prod.fst

/-- `sort_by_key` with `Reverse(rank)`: stable, the highest rank first. -/
def sortAddrsByReachability (addrs : List A) (iface : Interface) : List A :=
  ((ranked S addrs iface).insertionSort fun x y => y.2 ≤ x.2).map Prod.fst

end

def DEFAULT_SERVER_PORT : UInt16 := 4432

/-- The default interface may be missing. -/
def getUnspecifiedServerAddr (defaultInterface : Option Interface) : SocketAddr :=
  match defaultInterface with
  | some iface =>
      if iface.ipv6.length > 0 then ⟨.V6 .UNSPECIFIED, DEFAULT_SERVER_PORT⟩
      else ⟨.V4 .UNSPECIFIED, DEFAULT_SERVER_PORT⟩
  | none => ⟨.V4 .UNSPECIFIED, DEFAULT_SERVER_PORT⟩

def getDefaultServerAddrs (defaultInterface : Option Interface) (port : UInt16)
    (includeLoopback : Bool) : List SocketAddr :=
  match defaultInterface with
  | some iface =>
      (if includeLoopback then [⟨.V4 .LOCALHOST, port⟩] else []) ++
      iface.ipv4.map (fun net => ⟨.V4 net.addr, port⟩) ++
      (if includeLoopback then [⟨.V6 .LOCALHOST, port⟩] else []) ++
      iface.ipv6.map (fun net => ⟨.V6 net.addr, port⟩)
  | none => []

end Foctet.Net
