import Mathlib

/-! Addresses of peer nodes as both planes keep them. -/

namespace Epc

abbrev Ipv6Address := Vector UInt8 16

/-- The values of `ip_type`. -/
def pdnTypeIpv4 : UInt8 := 1
def pdnTypeIpv6 : UInt8 := 2
structure NodeAddress where
  ipType : UInt8
  ipv4Addr : UInt32
  ipv6Addr : Ipv6Address
  deriving DecidableEq, Repr

namespace NodeAddress

def zeroIpv6 : Ipv6Address := Vector.replicate 16 0

def zero : NodeAddress where
  ipType := 0
  ipv4Addr := 0
  ipv6Addr := zeroIpv6

/-- The node behind an IPv4 address, the IPv6 field left zero. -/
def v4 (address : UInt32) : NodeAddress :=
  { zero with ipType := pdnTypeIpv4, ipv4Addr := address }

def v6 (address : Ipv6Address) : NodeAddress :=
  { zero with ipType := pdnTypeIpv6, ipv6Addr := address }

end NodeAddress

end Epc
