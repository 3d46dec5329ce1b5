import Epc.Cp.FlowDesc
import Epc.Cp.UeContext

/-! Traffic flow templates: `set_bearer_tft` with `get_packet_filter_identifier`
(`cp/gtpv2c_set_ie.c`) writes them, `parse_tad_packet_filter` (`pfcp_messages/pfcp_session.c`) reads
one packet filter. -/

namespace Epc.Cp

/-- The operation codes, in the place they have in the first octet. -/
inductive TftOp where
  | createNew
  | addFilterExisting
  | replaceFilterExisting
  | removeFilterExisting
  deriving DecidableEq, Repr

def TftOp.code : TftOp → UInt8
  | .createNew => 32
  | .addFilterExisting => 96
  | .replaceFilterExisting => 128
  | .removeFilterExisting => 160

structure FlowDesc where
  pcktFltrIdentifier : UInt8
  sdfFlwDesc : SdfPktFltr
  deriving DecidableEq, Repr

/-- What a template is made of in `dynamic_rule_t`; `flowDesc` has `num_flw_desc` entries. -/
structure DynamicRule where
  ruleName : List Char
  precedence : UInt32
  flowDesc : List FlowDesc
  deriving DecidableEq, Repr

/-- What a template is made of in `eps_bearer`; the map has sixteen entries. -/
structure TftBearer where
  packetFilterMap : Nat → Int
  prdefRules : List DynamicRule
  dynamicRules : List DynamicRule

def notPresent : Int := 0
def present : Int := 1

/-- `get_packet_filter_identifier`: without a free entry it reads past the map. -/
def getPacketFilterIdentifier (map : Nat → Int) : Option (Nat × (Nat → Int)) :=
  ((List.range' 1 (maxFiltersPerUe - 1)).find? fun i => map i == notPresent).map fun i =>
    (i, Function.update map i present)

/-- The template being written and the map; the index is an octet. -/
structure TftState where
  epsBearerLvlTft : Nat → UInt8
  i : UInt8
  map : Nat → Int

namespace TftState

/-- `eps_bearer_lvl_tft[i++] = octet`. -/
def put (s : TftState) (octet : UInt8) : TftState :=
  { s with
    epsBearerLvlTft := Function.update s.epsBearerLvlTft s.i.toNat octet
    i := s.i + 1 }

def putAll (s : TftState) (octets : List UInt8) : TftState :=
  octets.foldl put s

def set (s : TftState) (index octet : UInt8) : TftState :=
  { s with epsBearerLvlTft := Function.update s.epsBearerLvlTft index.toNat octet }

end TftState

/-- `mask = 0xffffffff << (32 - len)` by its octets; other shifts are not defined. -/
def ipv4MaskOctets (len : UInt8) : Option (List UInt8) :=
  if 1 ≤ len ∧ len ≤ 32 then
    let mask : UInt32 := 0xffffffff <<< (32 - len).toUInt32
    some [(mask >>> 24).toUInt8, (mask >>> 16).toUInt8, (mask >>> 8).toUInt8, mask.toUInt8]
  else none

def ipOctets (ip : List UInt8) (count : Nat) : List UInt8 :=
  (List.range count).map fun i => ip.getD i 0

/-- An address component: the types are those of the IPv4 and the IPv6 form. -/
def addressOctets (f : SdfPktFltr) (ipv4Type ipv6Type : UInt8) (ip : List UInt8) (mask : UInt8) :
    Option (List UInt8) :=
  if f.v4 ≠ 0 then
    (ipv4MaskOctets mask).map fun maskOctets => ipv4Type :: ipOctets ip 4 ++ maskOctets
  else if f.v6 ≠ 0 then some (ipv6Type :: ipOctets ip 16 ++ [mask])
  else some []

def portOctets (portType : UInt8) (port : UInt16) : List UInt8 :=
  [portType, (port >>> 8).toUInt8, port.toUInt8]

def tftProtoIdentifierNextHeaderType : UInt8 := 48
def tftSingleSrcPortType : UInt8 := 64
def tftDestPortRangeType : UInt8 := 65
def tftSingleRemotePortType : UInt8 := 80
def tftSrcPortRangeType : UInt8 := 81
def tftIpv4RemoteAddrType : UInt8 := 16
def tftIpv4SrcAddrType : UInt8 := 17
def tftIpv6RemoteAddrPrefixLenType : UInt8 := 33
def tftIpv6SrcAddrPrefixLenType : UInt8 := 35

/-- A filter's components: but for downlink the sides are exchanged, and only the low port is
written. -/
def filterComponents (f : SdfPktFltr) : Option (List UInt8) := do
  let downlink := f.direction = tftDirectionDownlinkOnly
  let remotePort := if downlink then f.remotePortLow else f.localPortLow
  let srcPort := if downlink then f.localPortLow else f.remotePortLow
  let (srcIp, srcMask) :=
    if downlink then (f.ulocalip, f.localIpMask) else (f.uremoteip, f.remoteIpMask)
  let (remoteIp, remoteMask) :=
    if downlink then (f.uremoteip, f.remoteIpMask) else (f.ulocalip, f.localIpMask)
  let src ← addressOctets f tftIpv4SrcAddrType tftIpv6SrcAddrPrefixLenType srcIp srcMask
  let remote ←
    addressOctets f tftIpv4RemoteAddrType tftIpv6RemoteAddrPrefixLenType remoteIp remoteMask
  some ([tftProtoIdentifierNextHeaderType, f.protoId] ++
    portOctets tftSingleRemotePortType remotePort ++ portOctets tftSingleSrcPortType srcPort ++
    src ++ remote)

def directionBits (direction : UInt8) : UInt8 :=
  if direction = tftDirectionUplinkOnly then 32
  else if direction = tftDirectionDownlinkOnly then 16
  else if direction = tftDirectionBidirectional then 48
  else 0

/-- The effect of one flow description, none where it is undefined. -/
def tftFlow (op : TftOp) (precedence : UInt32) (s : TftState) (d : FlowDesc) :
    Option (TftState × FlowDesc) := do
  let s := s.set 0 (s.epsBearerLvlTft 0 + 1)
  let (s, d) ←
    if d.sdfFlwDesc.direction ≠ 0 ∧ op ≠ .removeFilterExisting then
      (getPacketFilterIdentifier s.map).map fun (id, map) =>
        ({ s with map }, { d with pcktFltrIdentifier := UInt8.ofNat id })
    else some (s, d)
  if op = .removeFilterExisting then
    if d.pcktFltrIdentifier.toNat < maxFiltersPerUe then
      let s := s.put d.pcktFltrIdentifier
      some ({ s with map := Function.update s.map d.pcktFltrIdentifier.toNat notPresent }, d)
    else none
  else
    let components ← filterComponents d.sdfFlwDesc
    let s := s.put (d.pcktFltrIdentifier + directionBits d.sdfFlwDesc.direction)
    let s := s.put precedence.toUInt8
    let lenIndex := s.i
    let s := { s with i := s.i + 1 }
    let s := s.putAll components
    some (s.set lenIndex (UInt8.ofNat components.length), d)

def tftFlows (op : TftOp) (precedence : UInt32) :
    TftState → List FlowDesc → Option (TftState × List FlowDesc)
  | s, [] => some (s, [])
  | s, d :: ds => do
      let (s, d) ← tftFlow op precedence s d
      let (s, ds) ← tftFlows op precedence s ds
      some (s, d :: ds)

def DynamicRule.included (op : TftOp) (ruleName : Option (List Char)) (rule : DynamicRule) : Bool :=
  op == .createNew ||
    match ruleName with
    | none => true
    | some name => name == rule.ruleName

def tftRules (op : TftOp) (ruleName : Option (List Char)) :
    TftState → List DynamicRule → Option (TftState × List DynamicRule)
  | s, [] => some (s, [])
  | s, rule :: rules => do
      let (s, rule) ←
        if rule.included op ruleName then
          (tftFlows op rule.precedence s rule.flowDesc).map fun (s, flowDesc) =>
            (s, { rule with flowDesc })
        else some (s, rule)
      let (s, rules) ← tftRules op ruleName s rules
      some (s, rule :: rules)

/-- `set_bearer_tft`: the template, which held `tft` before, and the bearer. -/
def setBearerTft (op : TftOp) (ruleName : Option (List Char)) (bearer : TftBearer)
    (tft : Nat → UInt8) : Option (List UInt8 × TftBearer) := do
  let s : TftState := { epsBearerLvlTft := tft, i := 0, map := bearer.packetFilterMap }
  let s := s.put op.code
  let (s, prdefRules) ← tftRules op ruleName s bearer.prdefRules
  let (s, dynamicRules) ← tftRules op ruleName s bearer.dynamicRules
  some ((List.range s.i.toNat).map s.epsBearerLvlTft,
    { packetFilterMap := s.map, prdefRules, dynamicRules })

structure TadPktFltr where
  v4 : UInt8 := 0
  v6 : UInt8 := 0
  protoId : UInt8 := 0
  pcktFltrDir : UInt8 := 0
  localIpAddr : List UInt8 := List.replicate 4 0
  localIp6Addr : List UInt8 := List.replicate 16 0
  localIpMask : UInt8 := 0
  remoteIpAddr : List UInt8 := List.replicate 4 0
  remoteIp6Addr : List UInt8 := List.replicate 16 0
  remoteIpMask : UInt8 := 0
  localPortLow : UInt16 := 0
  localPortHigh : UInt16 := 0
  remotePortLow : UInt16 := 0
  remotePortHigh : UInt16 := 0
  pcktFltrId : UInt8 := 0
  precedence : UInt8 := 0
  deriving DecidableEq, Repr

def TadPktFltr.zero : TadPktFltr := {}

section

variable (buf : List UInt8)

def bufOctets (index count : Nat) : List UInt8 :=
  (List.range count).map fun i => buf.getD (index + i) 0

def bufPort (index : Nat) : UInt16 :=
  (buf.getD index 0).toUInt16 <<< 8 ||| (buf.getD (index + 1) 0).toUInt16

/-- The length that the mask octets add up to: eight for each octet that is full. -/
def bufMask (index : Nat) (mask : UInt8) : UInt8 :=
  (bufOctets buf index 4).foldl (fun mask octet => if octet = 0xff then mask + 8 else mask) mask

/-- The component at an index, and its last octet's index; other octets are skipped. -/
def tadComponent (index : Nat) (t : TadPktFltr) : TadPktFltr × Nat :=
  let type := buf.getD index 0
  if type = tftIpv4SrcAddrType then
    ({ t with
        localIpAddr := bufOctets buf (index + 1) 4
        localIpMask := bufMask buf (index + 5) t.localIpMask
        v4 := 1 }, index + 8)
  else if type = tftIpv6SrcAddrPrefixLenType then
    ({ t with
        localIp6Addr := bufOctets buf (index + 1) 16
        localIpMask := buf.getD (index + 17) 0
        v6 := 1 }, index + 17)
  else if type = tftIpv6RemoteAddrPrefixLenType then
    ({ t with
        remoteIp6Addr := bufOctets buf (index + 1) 16
        remoteIpMask := buf.getD (index + 17) 0
        v6 := 1 }, index + 17)
  else if type = tftIpv4RemoteAddrType then
    ({ t with
        remoteIpAddr := bufOctets buf (index + 1) 4
        remoteIpMask := bufMask buf (index + 5) t.remoteIpMask
        v4 := 1 }, index + 8)
  else if type = tftProtoIdentifierNextHeaderType then
    ({ t with protoId := buf.getD (index + 1) 0 }, index + 1)
  else if type = tftDestPortRangeType then
    ({ t with
        localPortLow := bufPort buf (index + 1)
        localPortHigh := bufPort buf (index + 3) }, index + 4)
  else if type = tftSrcPortRangeType then
    ({ t with
        remotePortLow := bufPort buf (index + 1)
        remotePortHigh := bufPort buf (index + 3) }, index + 4)
  else if type = tftSingleRemotePortType then
    ({ t with
        remotePortLow := bufPort buf (index + 1)
        remotePortHigh := bufPort buf (index + 1) }, index + 2)
  else if type = tftSingleSrcPortType then
    ({ t with
        localPortLow := bufPort buf (index + 1)
        localPortHigh := bufPort buf (index + 1) }, index + 2)
  else (t, index)

/-- The loop from an index on; it grows in every round, so `fuel` rounds do for `fuel` octets. -/
def tadLoop (total : Nat) : Nat → Nat → TadPktFltr → TadPktFltr
  | 0, _, t => t
  | fuel + 1, index, t =>
    if index < total then
      let next := tadComponent buf index t
      tadLoop total fuel (next.2 + 1) next.1
    else t

/-- `parse_tad_packet_filter`, into a zeroed structure. -/
def parseTadPacketFilter : TadPktFltr :=
  let total := (buf.getD 2 0 + 2).toNat
  let t := TadPktFltr.zero
  let t :=
    if 0 < total then
      { t with
        pcktFltrId := buf.getD 0 0 &&& 0x0f
        pcktFltrDir := (buf.getD 0 0 >>> 4) &&& 0x03 }
    else t
  let t := if 1 < total then { t with precedence := buf.getD 1 0 } else t
  tadLoop buf total total 3 t

end

end Epc.Cp
