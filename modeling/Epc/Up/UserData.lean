import Epc.Lib.PktMbuf
import Mathlib.Tactic.Ring

/-! The length of the user data in a packet (`dp/up_pkt_handler.c`): `calculate_user_data_len` with
`getIPv6_header_len` and `ipv6_get_next_ext`. The loops take their steps from the packet; they are
given a number of rounds and have no result when there are rounds left to do. -/

namespace Epc.Up.Gtpu

open Epc.Lib

def ethHdrSize : Nat := 14
def ipv4HdrSize : Nat := 20
def ipv6HdrSize : Nat := 40
def udpHdrSize : Nat := 8
def gtpHdrSize : Nat := 8

def ipprotoHopopts : UInt8 := 0
def ipprotoUdp : UInt8 := 17
def ipprotoRouting : UInt8 := 43
def ipprotoFragment : UInt8 := 44
def ipprotoEsp : UInt8 := 50
def ipprotoAh : UInt8 := 51
def ipprotoDstopts : UInt8 := 60

/-- `VERSION_FLAG_CHECK` and `IPv4_VERSION`. -/
def versionFlagCheck : UInt8 := 0xf0
def ipv4Version : UInt8 := 0x40

def pduNoBit : UInt8 := 1
def seqNoBit : UInt8 := 2
def extensionHdrBit : UInt8 := 4

/-- `ipv6_get_next_ext`: next protocol and length of the extension header at `p`. -/
def ipv6GetNextExt (pkt : PktMbuf) (p : Nat) (proto : UInt8) : Option (UInt8 × Nat) :=
  if proto = ipprotoAh then some (pkt.byte p, ((pkt.byte (p + 1)).toNat + 2) * 4)
  else if proto = ipprotoHopopts ∨ proto = ipprotoRouting ∨ proto = ipprotoDstopts then
    some (pkt.byte p, ((pkt.byte (p + 1)).toNat + 1) * 8)
  else if proto = ipprotoFragment then some (pkt.byte p, 8)
  else none

/-- The loop over the extension headers of IPv6. -/
def ipv6Loop (pkt : PktMbuf) : Nat → UInt8 → Nat → Option Nat
  | rounds, nextProto, l3len =>
    if nextProto ≠ ipprotoEsp ∧ l3len < pkt.dataLen then
      match ipv6GetNextExt pkt l3len nextProto with
      | none => some l3len
      | some (nextProto, extLen) =>
        match rounds with
        | 0 => none
        | rounds + 1 => ipv6Loop pkt rounds nextProto (l3len + extLen)
    else some l3len

/-- `adjust_ipv6_pktlen`: what is behind the payload is cut off. -/
def adjustIpv6Pktlen (pkt : PktMbuf) : PktMbuf :=
  let plen := 256 * (pkt.byte 4).toNat + (pkt.byte 5).toNat + ipv6HdrSize
  if plen < pkt.dataLen then pkt.trim (pkt.dataLen - plen) else pkt

/-- `getIPv6_header_len`, on a copy; without an Ethernet header the pointer is null. -/
def getIPv6HeaderLen (rounds : Nat) (m : PktMbuf) : Option Nat :=
  (m.adj ethHdrSize).bind fun pkt =>
    let pkt := adjustIpv6Pktlen pkt
    ipv6Loop pkt rounds (pkt.byte 6) ipv6HdrSize

/-- The loop over the extension headers of GTP-U. -/
def extensionLoop (m : PktMbuf) : Nat → Nat → Option Nat
  | 0, _ => none
  | rounds + 1, len =>
    let extHdrLen := (m.byte len).toNat
    if m.byte (len + extHdrLen - 1) = 0 then some (len + extHdrLen)
    else extensionLoop m rounds (len + extHdrLen)

def ipHeaderLen (rounds : Nat) (m : PktMbuf) : Option Nat :=
  if m.byte ethHdrSize &&& versionFlagCheck = ipv4Version then some ipv4HdrSize
  else getIPv6HeaderLen rounds m

/-- Where the walk over GTP-U extension headers starts: behind the header at `gtpu`, an octet for
the N-PDU number and two for the sequence number. -/
def extensionStart (gtpu : Nat) (flags : UInt8) : Nat :=
  gtpu + gtpHdrSize + (if flags &&& pduNoBit ≠ 0 then 1 else 0) +
    if flags &&& seqNoBit ≠ 0 then 2 else 0

/-- `calculate_user_data_len`; what is returned is an `int`. -/
def calculateUserDataLen (rounds : Nat) (m : PktMbuf) : Option Int :=
  (ipHeaderLen rounds m).bind fun ipLen =>
    let gtpu := ethHdrSize + ipLen + udpHdrSize
    let flags := m.byte gtpu
    let len := extensionStart gtpu flags
    let len := if flags &&& extensionHdrBit ≠ 0 then extensionLoop m rounds len else some len
    len.map fun (len : Nat) => Int.bmod ((m.dataLen : Int) - ((len : Int) - ethHdrSize)) (2 ^ 32)

end Epc.Up.Gtpu
