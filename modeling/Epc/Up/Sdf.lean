import Epc.Up.Mask

/-! Classification of a burst against the SDF tables of its sessions: `acl_sdf_lookup`,
`get_pdr_info` (`dp/up_pkt_handler.c`) and `acl_lookup` (`dp/up_acl.c`). -/

namespace Epc.Up

/-- The run-time part of the ACL library: a rule accepts by the packet bytes from the protocol field
on, and classification returns the user data of an accepting rule of the highest priority, zero if
there is none. -/
structure RteAcl (Rule : Type) where
  accepts : Rule → List UInt8 → Bool
  userdata : Rule → UInt32
  priority : Rule → Int
  classify : List Rule → List UInt8 → UInt32
  classify_none : ∀ rules input, (∀ r ∈ rules, accepts r input = false) → classify rules input = 0
  classify_best : ∀ rules input, (∃ r ∈ rules, accepts r input = true) →
    ∃ r ∈ rules, accepts r input = true ∧ classify rules input = userdata r ∧
      ∀ r' ∈ rules, accepts r' input = true → priority r' ≤ priority r

inductive IpVersion where
  | ipv4
  | ipv6
  deriving DecidableEq, Repr

/-- A packet buffer, by the bytes of its frame. -/
structure Mbuf where
  data : List UInt8
  deriving DecidableEq, Repr

def ethHdrSize : Nat := 14

/-- The version nibble of the IP header, as `prepare_one_packet` reads it. -/
def Mbuf.ipVersion (m : Mbuf) : Option IpVersion :=
  let first := m.data.getD ethHdrSize 0 &&& 0xf0
  if first = 0x40 then some .ipv4 else if first = 0x60 then some .ipv6 else none

/-- `MBUF_IPV4_2PROTO` and `MBUF_IPV6_2PROTO`. -/
def Mbuf.toProto (m : Mbuf) : IpVersion → List UInt8
  | .ipv4 => m.data.drop (ethHdrSize + 9)
  | .ipv6 => m.data.drop (ethHdrSize + 6)

/-- `struct rte_acl_ctx`; `transTable` holds the rules of the last build. -/
structure AclCtx (Rule : Type) where
  transTable : Option (List Rule)
  deriving DecidableEq, Repr

structure AclConfig (Rule : Type) where
  acxIpv4 : Option (AclCtx Rule)
  acxIpv6 : Option (AclCtx Rule)
  deriving DecidableEq, Repr

/-- Where a result is: `acl_config[i].acl_search.res_ipv4[0]` or `.res_ipv6[0]`. -/
abbrev ResPtr := Nat × IpVersion

structure PdrNode where
  ruleId : UInt16
  prcdncVal : UInt32
  deriving DecidableEq, Repr

/-- What classification uses of `pfcp_session_datat_t`; `aclTableIndx` has `acl_table_count`
entries. -/
structure SdfSession where
  aclTableIndx : List Nat
  pdrs : List PdrNode
  deriving DecidableEq, Repr

/-- The result buffers and the pointers into them that the burst keeps. -/
structure SdfState where
  res : ResPtr → UInt32
  prcdnc : Nat → Option ResPtr

section

variable {Rule : Type} (acl : RteAcl Rule) (config : Nat → AclConfig Rule)

/-- `acl_lookup`: whatever the packets are, the first one is classified. -/
def aclLookup (pkts : Nat → Mbuf) (indx : Nat) (res : ResPtr → UInt32) :
    Option ResPtr × (ResPtr → UInt32) :=
  let context := match (config indx).acxIpv4 with
    | some ctx => some ctx
    | none => (config indx).acxIpv6
  match context with
  | none => (none, res)
  | some ctx =>
    match ctx.transTable with
    | none => (none, res)
    | some rules =>
      match (pkts 0).ipVersion with
      | none => (none, res)
      | some version =>
        (some (indx, version),
          Function.update res (indx, version)
            (acl.classify rules ((pkts 0).toProto version)))

/-- `sdf_lookup`: the number of the packet is not used. -/
def sdfLookup (pkts : Nat → Mbuf) (_nbRx indx : Nat) (res : ResPtr → UInt32) :
    Option ResPtr × (ResPtr → UInt32) :=
  aclLookup acl config pkts indx res

/-- The inner loop of `acl_sdf_lookup` over the table indices of packet `j`. -/
def sdfTables (pkts : Nat → Mbuf) (j : Nat) : List Nat → UInt32 → SdfState → SdfState
  | [], _, s => s
  | indx :: rest, tmpPrcdnc, s =>
    let s :=
      if indx ≠ 0 then
        let found := sdfLookup acl config pkts j indx s.res
        { res := found.2, prcdnc := Function.update s.prcdnc j found.1 }
      else s
    match s.prcdnc j with
    | none => sdfTables pkts j rest tmpPrcdnc s
    | some p =>
      if tmpPrcdnc = 0 ∨ (s.res p ≠ 0 ∧ s.res p < tmpPrcdnc) then
        sdfTables pkts j rest (s.res p) s
      else
        sdfTables pkts j rest tmpPrcdnc { s with res := Function.update s.res p tmpPrcdnc }

/-- `acl_sdf_lookup`; its test of the array `acl_table_indx` never fails. -/
def aclSdfLookup (pkts : Nat → Mbuf) (n : Nat) (pktsMask fdPktsMask : PktMask)
    (sess : Nat → SdfSession) (s : SdfState) : SdfState :=
  (List.range n).foldl
    (fun s j =>
      if issetBit pktsMask j && issetBit fdPktsMask j then
        sdfTables acl config pkts j (sess j).aclTableIndx 0 s
      else s) s

end

def getPdrNode (head : List PdrNode) (precedence : UInt32) : Option PdrNode :=
  head.find? fun pdr => pdr.prcdncVal == precedence

/-- The packet mask and the PDRs found. -/
structure PdrState where
  pktsMask : PktMask
  pdr : Nat → Option PdrNode

def pdrRound (sess : Nat → SdfSession) (fdPktsMask : PktMask) (lookup : SdfState) (s : PdrState)
    (j : Nat) : PdrState :=
  match issetBit s.pktsMask j && issetBit fdPktsMask j, lookup.prcdnc j with
  | true, some p =>
    match getPdrNode (sess j).pdrs (lookup.res p) with
    | none =>
      { pktsMask := resetBit s.pktsMask j, pdr := Function.update s.pdr j none }
    | some pdr => { s with pdr := Function.update s.pdr j (some pdr) }
  | _, _ =>
    if issetBit fdPktsMask j then { s with pktsMask := resetBit s.pktsMask j } else s

def getPdrInfo (sess : Nat → SdfSession) (n : Nat) (fdPktsMask : PktMask) (lookup : SdfState)
    (s : PdrState) : PdrState :=
  (List.range n).foldl (pdrRound sess fdPktsMask lookup) s

/-- A burst as the packet handler passes it on. -/
structure Burst where
  n : Nat
  n_le : n ≤ 64
  pkts : Nat → Mbuf
  pktsMask : PktMask
  fdPktsMask : PktMask
  sess : Nat → SdfSession

/-- `acl_sdf_lookup` from no pointers and any result buffers, then `get_pdr_info`, from no PDRs. -/
def classifyBurst {Rule : Type} (acl : RteAcl Rule) (config : Nat → AclConfig Rule)
    (res : ResPtr → UInt32) (b : Burst) : PdrState :=
  getPdrInfo b.sess b.n b.fdPktsMask
    (aclSdfLookup acl config b.pkts b.n b.pktsMask b.fdPktsMask b.sess
      { res, prcdnc := fun _ => none })
    { pktsMask := b.pktsMask, pdr := fun _ => none }

end Epc.Up
