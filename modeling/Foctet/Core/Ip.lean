import Mathlib.Data.List.Basic

/-! IP addresses by their octets and segments, and which of them the crate takes to
be globally reachable. -/
namespace Foctet.Core

structure Ipv4Addr where
  a : UInt8
  b : UInt8
  c : UInt8
  d : UInt8
  deriving DecidableEq, Repr

/-- Eight segments of 16 bits. -/
structure Ipv6Addr where
  s0 : UInt16
  s1 : UInt16
  s2 : UInt16
  s3 : UInt16
  s4 : UInt16
  s5 : UInt16
  s6 : UInt16
  s7 : UInt16
  deriving DecidableEq, Repr

inductive IpAddr where
  | V4 (ip : Ipv4Addr)
  | V6 (ip : Ipv6Addr)
  deriving DecidableEq, Repr

structure SocketAddr where
  ip : IpAddr
  port : UInt16
  deriving DecidableEq, Repr

namespace Ipv4Addr

def UNSPECIFIED : Ipv4Addr := ⟨0, 0, 0, 0⟩
def LOCALHOST : Ipv4Addr := ⟨127, 0, 0, 1⟩
def BROADCAST : Ipv4Addr := ⟨255, 255, 255, 255⟩

def octets (ip : Ipv4Addr) : List UInt8 := [ip.a, ip.b, ip.c, ip.d]

/-- The address as a number of 32 bits. -/
def toNat (ip : Ipv4Addr) : Nat :=
  ((ip.a.toNat * 256 + ip.b.toNat) * 256 + ip.c.toNat) * 256 + ip.d.toNat

-- the classifications of the standard library
def isUnspecified (ip : Ipv4Addr) : Bool := ip = UNSPECIFIED
def isLoopback (ip : Ipv4Addr) : Bool := ip.a = 127
def isPrivate (ip : Ipv4Addr) : Bool :=
  ip.a = 10 || (ip.a = 172 && 16 ≤ ip.b && ip.b ≤ 31) || (ip.a = 192 && ip.b = 168)
def isLinkLocal (ip : Ipv4Addr) : Bool := ip.a = 169 && ip.b = 254
def isBroadcast (ip : Ipv4Addr) : Bool := ip = BROADCAST
def isDocumentation (ip : Ipv4Addr) : Bool :=
  (ip.a = 192 && ip.b = 0 && ip.c = 2) || (ip.a = 198 && ip.b = 51 && ip.c = 100) ||
    (ip.a = 203 && ip.b = 0 && ip.c = 113)

end Ipv4Addr

namespace Ipv6Addr

def UNSPECIFIED : Ipv6Addr := ⟨0, 0, 0, 0, 0, 0, 0, 0⟩
def LOCALHOST : Ipv6Addr := ⟨0, 0, 0, 0, 0, 0, 0, 1⟩

def segments (ip : Ipv6Addr) : List UInt16 :=
  [ip.s0, ip.s1, ip.s2, ip.s3, ip.s4, ip.s5, ip.s6, ip.s7]

def isUnspecified (ip : Ipv6Addr) : Bool := ip = UNSPECIFIED
def isLoopback (ip : Ipv6Addr) : Bool := ip = LOCALHOST
def isUniqueLocal (ip : Ipv6Addr) : Bool := ip.s0 &&& 0xfe00 = 0xfc00
def isUnicastLinkLocal (ip : Ipv6Addr) : Bool := ip.s0 &&& 0xffc0 = 0xfe80

end Ipv6Addr

def IpAddr.isLoopback : IpAddr → Bool
  | .V4 ip => ip.isLoopback
  | .V6 ip => ip.isLoopback

def IpAddr.isUnspecified : IpAddr → Bool
  | .V4 ip => ip.isUnspecified
  | .V6 ip => ip.isUnspecified

/-- The order of the standard library: IPv4 before IPv6, then by the octets or segments. -/
def IpAddr.le : IpAddr → IpAddr → Bool
  | .V4 ip, .V4 other => ip.octets ≤ other.octets
  | .V4 _, .V6 _ => true
  | .V6 _, .V4 _ => false
  | .V6 ip, .V6 other => ip.segments ≤ other.segments

instance : LE IpAddr := ⟨fun ip other => ip.le other = true⟩

instance (ip other : IpAddr) : Decidable (ip ≤ other) := inferInstanceAs (Decidable (ip.le other = true))

def IpAddr.isIpv4 : IpAddr → Bool
  | .V4 _ => true
  | .V6 _ => false

def isSharedIpv4 (ip : Ipv4Addr) : Bool := ip.a = 100 && ip.b &&& 0b11000000 = 0b01000000

def isBenchmarkingIpv4 (ip : Ipv4Addr) : Bool := ip.a = 198 && ip.b &&& 0xfe = 18

def isReservedIpv4 (ip : Ipv4Addr) : Bool := ip.a &&& 240 = 240 && !ip.isBroadcast

def isDocumentationIpv6 (ip : Ipv6Addr) : Bool :=
  (ip.s0 = 0x2001 && ip.s1 = 0xdb8) || (ip.s0 = 0x3fff && ip.s1 ≤ 0x0fff)

def isGlobalIpv4 (ip : Ipv4Addr) : Bool :=
  !(ip.a = 0 || ip.isPrivate || isSharedIpv4 ip || ip.isLoopback || ip.isLinkLocal ||
    (ip.a = 192 && ip.b = 0 && ip.c = 0 && ip.d ≠ 9 && ip.d ≠ 10) ||
    ip.isDocumentation || isBenchmarkingIpv4 ip || isReservedIpv4 ip || ip.isBroadcast)

/-- `2001::/23` without the blocks in it that are documented as reachable. -/
def isProtocolAssignmentIpv6 (ip : Ipv6Addr) : Bool :=
  (ip.s0 = 0x2001 && ip.s1 < 0x200) &&
    !(ip = ⟨0x2001, 1, 0, 0, 0, 0, 0, 1⟩ || ip = ⟨0x2001, 1, 0, 0, 0, 0, 0, 2⟩ ||
      (ip.s0 = 0x2001 && ip.s1 = 3) || (ip.s0 = 0x2001 && ip.s1 = 4 && ip.s2 = 0x112) ||
      (ip.s0 = 0x2001 && 0x20 ≤ ip.s1 && ip.s1 ≤ 0x3f))

def isGlobalIpv6 (ip : Ipv6Addr) : Bool :=
  !(ip.isUnspecified || ip.isLoopback ||
    (ip.s0 = 0 && ip.s1 = 0 && ip.s2 = 0 && ip.s3 = 0 && ip.s4 = 0 && ip.s5 = 0xffff) ||
    (ip.s0 = 0x64 && ip.s1 = 0xff9b && ip.s2 = 1) ||
    (ip.s0 = 0x100 && ip.s1 = 0 && ip.s2 = 0 && ip.s3 = 0) ||
    isProtocolAssignmentIpv6 ip || ip.s0 = 0x2002 || isDocumentationIpv6 ip ||
    ip.isUniqueLocal || ip.isUnicastLinkLocal)

def isGlobalIp : IpAddr → Bool
  | .V4 ip => isGlobalIpv4 ip
  | .V6 ip => isGlobalIpv6 ip

end Foctet.Core
