import Epc.Cp.RuleName
import Epc.Cp.Tft
import Epc.Lib.Bytes

/-! The packet filters of a Bearer Resource Command (`pfcp_messages/pfcp_session.c`):
`fill_create_new_tft_avp`, `fill_replace_filter_existing_tft_avp` and
`fill_add_filter_existing_tft_avp` walk over the traffic aggregate description and fill the list of
packet filter information that goes to the policy server. -/

namespace Epc.Cp

open Epc.Lib.Text Epc.Lib.Inet Epc.Lib.Bytes

structure PacketFilterPresence where
  packetFilterIdentifier : Bool := false
  precedence : Bool := false
  packetFilterContent : Bool := false
  tosTrafficClass : Bool := false
  securityParameterIndex : Bool := false
  flowLabel : Bool := false
  flowDirection : Bool := false
  deriving DecidableEq, Repr

/-- `GxPacketFilterInformation`; octet strings up to their length. -/
structure GxPacketFilterInformation where
  presence : PacketFilterPresence := {}
  packetFilterIdentifier : List UInt8 := []
  precedence : UInt32 := 0
  packetFilterContent : List Char := []
  flowDirection : Int := 0
  deriving DecidableEq, Repr

def clearEntry : GxPacketFilterInformation := {}

def bearerEstablishment : Int := 1
def bearerModification : Int := 2
def filterAddition : Int := 1
def filterModification : Int := 2

/-- Returned values other than zero; `unfinished` is a loop with rounds left. -/
inductive TadError where
  | mandatoryIeMissing
  | syntacticErrInTadOp
  | failed
  | unfinished
  deriving DecidableEq, Repr

structure FlowQos where
  qci : UInt8
  guarntdBitRateUplnk : UInt64
  guarntdBitRateDnlnk : UInt64
  deriving DecidableEq, Repr

/-- What is read of `bearer_rsrc_cmd_t`; the QoS is there if its header has a length. -/
structure BearerRsrcCmd where
  headerLen : UInt16
  trafficAggDesc : UInt8
  pktFltrBuf : List UInt8
  flowQos : Option FlowQos
  deriving DecidableEq, Repr

/-- What is filled of the request, rules by their index; `filterReads` and `parameterReads` are the
places given to `parse_tad_packet_filter` and `parse_parameter_list`. -/
structure FilterAvps where
  bearerOperation : Int
  packetFilterOperation : Int
  packetFilterInformation : List GxPacketFilterInformation
  chargingRuleReport : List Nat
  qosInformation : Option FlowQos
  filterReads : List Nat
  parameterReads : List Nat
  deriving DecidableEq, Repr

/-- One side of a flow in the text of a packet filter: `%s/%d %u-%u`. -/
def sideText (address : List Char) (mask : UInt8) (portLow portHigh : UInt16) : List Char :=
  address ++ "/".toList ++ decimal mask.toNat ++ " ".toList ++ decimal portLow.toNat ++
    "-".toList ++ decimal portHigh.toNat

def TadPktFltr.addressTexts (t : TadPktFltr) : Option (List Char × List Char) :=
  if t.v4 ≠ 0 then some (inetNtoa t.localIpAddr, inetNtoa t.remoteIpAddr)
  else if t.v6 ≠ 0 then some (inetNtop6 t.localIp6Addr, inetNtop6 t.remoteIp6Addr)
  else none

/-- The text after its first words, if the filter has an address and a direction. -/
def TadPktFltr.flowText (start : List Char) (t : TadPktFltr) : Option (List Char) :=
  t.addressTexts.bind fun (srcAddr, destAddr) =>
    let src := sideText srcAddr t.localIpMask t.localPortLow t.localPortHigh
    let dest := sideText destAddr t.remoteIpMask t.remotePortLow t.remotePortHigh
    if t.pcktFltrDir = tftDirectionDownlinkOnly ∨ t.pcktFltrDir = tftDirectionBidirectional then
      some (start ++ (" ".toList ++ dest ++ " to ".toList ++ src ++ " ".toList))
    else if t.pcktFltrDir = tftDirectionUplinkOnly then
      some (start ++ (" ".toList ++ src ++ " to ".toList ++ dest ++ " ".toList))
    else none

/-- `fill_packet_fltr_info_avp`: one octet goes into the precedence; without a text the content
stays. -/
def fillPacketFltrInfoAvp (t : TadPktFltr) (e : GxPacketFilterInformation) :
    GxPacketFilterInformation :=
  { e with
    packetFilterIdentifier := [t.pcktFltrId]
    flowDirection := t.pcktFltrDir.toNat
    precedence := load32 (t.precedence :: (store32 e.precedence).tail)
    packetFilterContent :=
      (t.flowText "permit out ip from".toList).getD e.packetFilterContent }

def filterEntry (buf : List UInt8) (place : Nat) (e : GxPacketFilterInformation) :
    GxPacketFilterInformation :=
  fillPacketFltrInfoAvp (parseTadPacketFilter (buf.drop place))
    { e with
      presence :=
        { e.presence with
          packetFilterContent := true
          packetFilterIdentifier := true
          flowDirection := true
          precedence := true } }

/-- The index into the buffer, the list being filled and the places read so far. -/
structure TadWalk where
  pktIndx : UInt8
  list : Nat → GxPacketFilterInformation
  reads : List Nat

/-- One round of the loops over the packet filters, which differ in how they go on. -/
def TadWalk.round (buf : List UInt8) (next : UInt8 → UInt8) (w : TadWalk) (idx : Nat) : TadWalk where
  pktIndx := next w.pktIndx
  list := Function.update w.list idx (filterEntry buf w.pktIndx.toNat (w.list idx))
  reads := w.reads ++ [w.pktIndx.toNat]

/-- `pkt_indx = pkt_fltr_buf[pkt_indx + 2] + 3`. -/
def assignedIndx (buf : List UInt8) (pktIndx : UInt8) : UInt8 :=
  buf.getD (pktIndx.toNat + 2) 0 + 3

/-- `pkt_indx += pkt_fltr_buf[pkt_indx + 2] + 3`. -/
def addedIndx (buf : List UInt8) (pktIndx : UInt8) : UInt8 :=
  pktIndx + (buf.getD (pktIndx.toNat + 2) 0 + 3)

/-- The loop of `fill_create_new_tft_avp` and `fill_replace_filter_existing_tft_avp`; `raw` is the
memory of the list. -/
def assignedWalk (buf : List UInt8) (count : Nat) (raw : Nat → GxPacketFilterInformation) : TadWalk :=
  (List.range count).foldl (TadWalk.round buf (assignedIndx buf)) { pktIndx := 0, list := raw, reads := [] }

def BearerRsrcCmd.pktFltCnt (cmd : BearerRsrcCmd) : Nat :=
  (cmd.trafficAggDesc &&& 0x0f).toNat

def fillCreateNewTftAvp (raw : Nat → GxPacketFilterInformation) (cmd : BearerRsrcCmd) :
    Except TadError FilterAvps :=
  match cmd.flowQos with
  | none => .error .mandatoryIeMissing
  | some qos =>
    if cmd.pktFltCnt = 0 then .error .syntacticErrInTadOp
    else
      let w := assignedWalk cmd.pktFltrBuf cmd.pktFltCnt raw
      .ok {
        bearerOperation := bearerEstablishment
        packetFilterOperation := filterAddition
        packetFilterInformation := (List.range cmd.pktFltCnt).map w.list
        chargingRuleReport := []
        qosInformation := some qos
        filterReads := w.reads
        parameterReads := [] }

def checkPcktFltrIdInRule (pcktId : UInt8) (bearer : TftBearer) : Option Nat :=
  bearer.dynamicRules.findIdx? fun rule =>
    rule.flowDesc.any fun flow => flow.pcktFltrIdentifier == pcktId

/-- `store_rule_report_index`: the rules are reported once each. -/
def storeRuleReportIndex (ruleIndex : Nat) (report : List Nat) : List Nat :=
  if ruleIndex ∈ report then report else report ++ [ruleIndex]

/-- The loop that looks up the filters of the description in the bearer. -/
def ruleReports (buf : List UInt8) (bearer : TftBearer) : Nat → UInt8 → List Nat → Option (List Nat)
  | 0, _, report => some report
  | count + 1, pktIndx, report =>
    let t := parseTadPacketFilter (buf.drop pktIndx.toNat)
    (checkPcktFltrIdInRule t.pcktFltrId bearer).bind fun ruleIndex =>
      ruleReports buf bearer count (assignedIndx buf pktIndx) (storeRuleReportIndex ruleIndex report)

def fillReplaceFilterExistingTftAvp (raw : Nat → GxPacketFilterInformation) (cmd : BearerRsrcCmd)
    (bearer : TftBearer) : Except TadError FilterAvps :=
  if cmd.pktFltCnt = 0 then .error .syntacticErrInTadOp
  else
    match ruleReports cmd.pktFltrBuf bearer cmd.pktFltCnt 0 [] with
    | none => .error .syntacticErrInTadOp
    | some report =>
      let w := assignedWalk cmd.pktFltrBuf cmd.pktFltCnt raw
      .ok {
        bearerOperation := bearerModification
        packetFilterOperation := filterModification
        packetFilterInformation := (List.range cmd.pktFltCnt).map w.list
        chargingRuleReport := report
        qosInformation := cmd.flowQos
        filterReads := w.reads
        parameterReads := [] }

/-- `parse_parameter_list`: the filter identifier that the parameter names. -/
def parseParameterList (buf : List UInt8) : Option UInt8 :=
  if buf.getD 0 0 = 0x03 then some (buf.getD 2 0) else none

/-- The state of `fill_add_filter_existing_tft_avp` in its loop. -/
structure AddWalk where
  walk : TadWalk
  totalDecoded : UInt16
  parameterReads : List Nat

/-- One round of the inner loop: the new index is added to the octets decoded. -/
def AddWalk.filter (buf : List UInt8) (w : AddWalk) (idx : Nat) : AddWalk :=
  let walk := w.walk.round buf (addedIndx buf) idx
  { w with walk, totalDecoded := w.totalDecoded + walk.pktIndx.toUInt16 }

def namedEntry (packetId : UInt8) (e : GxPacketFilterInformation) : GxPacketFilterInformation :=
  { e with
    presence := { e.presence with packetFilterIdentifier := true }
    packetFilterIdentifier := [packetId] }

def AddWalk.round (buf : List UInt8) (count : Nat) (w : AddWalk) : Except TadError AddWalk :=
  let w := (List.range count).foldl (AddWalk.filter buf) w
  match parseParameterList (buf.drop w.walk.pktIndx.toNat) with
  | none => .error .failed
  | some packetId => .ok {
      walk :=
        { w.walk with
          pktIndx := w.walk.pktIndx + 3
          list := Function.update w.walk.list count (namedEntry packetId (w.walk.list count)) }
      totalDecoded := w.totalDecoded + 3
      parameterReads := w.parameterReads ++ [w.walk.pktIndx.toNat] }

/-- The outer loop, for at most `rounds` rounds. -/
def addRounds (buf : List UInt8) (count : Nat) (totalLen : UInt16) :
    Nat → AddWalk → Except TadError AddWalk
  | rounds, w =>
    if w.totalDecoded < totalLen then
      match rounds with
      | 0 => .error .unfinished
      | rounds + 1 => do
          let w ← w.round buf count
          addRounds buf count totalLen rounds w
    else .ok w

def fillAddFilterExistingTftAvp (rounds : Nat) (raw : Nat → GxPacketFilterInformation)
    (cmd : BearerRsrcCmd) (bearer : TftBearer) : Except TadError FilterAvps :=
  if (cmd.trafficAggDesc >>> 4) &&& 0x01 ≠ 1 then .error .syntacticErrInTadOp
  else if cmd.pktFltCnt = 0 then .error .syntacticErrInTadOp
  else
    let paramLstIndex := (cmd.headerLen - 4).toUInt8
    match (parseParameterList (cmd.pktFltrBuf.drop paramLstIndex.toNat)).bind
      fun packetId => checkPcktFltrIdInRule packetId bearer with
    | none => .error .syntacticErrInTadOp
    | some ruleIndex => do
        let w ← addRounds cmd.pktFltrBuf cmd.pktFltCnt cmd.headerLen rounds
          { walk := { pktIndx := 0, list := raw, reads := [] }
            totalDecoded := 1
            parameterReads := [paramLstIndex.toNat] }
        .ok {
          bearerOperation := bearerModification
          packetFilterOperation := filterAddition
          packetFilterInformation := (List.range (cmd.pktFltCnt + 1)).map w.walk.list
          chargingRuleReport := [ruleIndex]
          qosInformation := cmd.flowQos
          filterReads := w.walk.reads
          parameterReads := w.parameterReads }

inductive PccRuleStatus where
  | active
  | inactive
  deriving DecidableEq, Repr

def bearerTermination : Int := 0
def filterDeletion : Int := 0

def noBearerBound : Int := 15

/-- What is filled of `GxChargingRuleReport`; the name up to its length. -/
structure GxChargingRuleReport where
  chargingRuleName : List Char
  pccRuleStatus : PccRuleStatus
  ruleFailureCode : Int
  deriving DecidableEq, Repr

/-- What `fill_delete_existing_filter_tft_avp` fills; `reportedRules` are the indices of the
reported rules. -/
structure DeleteAvps where
  bearerOperation : Int
  packetFilterOperation : Int
  packetFilterInformation : List GxPacketFilterInformation
  chargingRuleReport : List GxChargingRuleReport
  reportedRules : List Nat
  qosInformation : Option FlowQos
  deriving DecidableEq, Repr

def fillGxPacketFilterId (buf : List UInt8) (index : Nat) : UInt8 :=
  buf.getD index 0 &&& 0x0f

/-- `store_rule_report_index` with the number of filters found for each rule. -/
def storeRuleReport (ruleIndex : Nat) : List (Nat × UInt8) → List (Nat × UInt8)
  | [] => [(ruleIndex, 1)]
  | (rule, numFltr) :: report =>
    if ruleIndex = rule then (rule, numFltr + 1) :: report
    else (rule, numFltr) :: storeRuleReport ruleIndex report

def deletedRules (bearer : TftBearer) :
    List UInt8 → List (Nat × UInt8) → Option (List (Nat × UInt8))
  | [], report => some report
  | pktId :: pktIds, report =>
    (checkPcktFltrIdInRule pktId bearer).bind fun ruleIndex =>
      deletedRules bearer pktIds (storeRuleReport ruleIndex report)

/-- `strlen(bearer->dynamic_rules[0]->rule_name)`. -/
def TftBearer.firstNameLen (bearer : TftBearer) : Nat :=
  (bearer.dynamicRules.head?.map fun rule => rule.ruleName.length).getD 0

/-- The name in a report has the length of the rule's name, but as many octets are copied as the
first rule's name has; `raw` is its memory. -/
def reportedName (bearer : TftBearer) (raw : Nat → Char) (name : List Char) : List Char :=
  let len := min name.length ruleNameLen
  (List.range len).map fun i => if i < bearer.firstNameLen then name.getD i (raw i) else raw i

def BearerRsrcCmd.deletedIds (cmd : BearerRsrcCmd) : List UInt8 :=
  (List.range cmd.pktFltCnt).map (fillGxPacketFilterId cmd.pktFltrBuf)

def TftBearer.totalNoOfPcktFltr (bearer : TftBearer) : UInt8 :=
  bearer.dynamicRules.foldl (fun total rule => total + UInt8.ofNat rule.flowDesc.length) 0

/-- The report for an entry of `rule_report`. In a terminated bearer all rules are inactive,
otherwise those for which as many identifiers came as they have filters. -/
def chargingRuleReport (bearer : TftBearer) (terminated : Bool) (rawName : Nat → Nat → Char)
    (entry : (Nat × UInt8) × Nat) : Option GxChargingRuleReport :=
  let ((ruleIndex, numFltr), id) := entry
  bearer.dynamicRules[ruleIndex]?.map fun rule => {
    chargingRuleName := reportedName bearer (rawName id) rule.ruleName
    pccRuleStatus :=
      if terminated ∨ rule.flowDesc.length = numFltr.toNat then .inactive else .active
    ruleFailureCode := noBearerBound }

/-- `fill_delete_existing_filter_tft_avp`; `raw` and `rawName` are the memory of filters and names.
-/
def fillDeleteExistingFilterTftAvp (raw : Nat → GxPacketFilterInformation)
    (rawName : Nat → Nat → Char) (cmd : BearerRsrcCmd) (bearer : TftBearer) :
    Except TadError DeleteAvps :=
  if cmd.pktFltCnt = 0 then .error .syntacticErrInTadOp
  else
    match deletedRules bearer cmd.deletedIds [] with
    | none => .error .syntacticErrInTadOp
    | some ruleReport =>
      let terminated := bearer.totalNoOfPcktFltr.toNat == cmd.pktFltCnt
      .ok {
        bearerOperation := if terminated then bearerTermination else bearerModification
        packetFilterOperation := filterDeletion
        packetFilterInformation :=
          cmd.deletedIds.zipIdx.map fun (pktId, idx) => namedEntry pktId (raw idx)
        chargingRuleReport :=
          ruleReport.zipIdx.filterMap (chargingRuleReport bearer terminated rawName)
        reportedRules := ruleReport.map Prod.fst
        qosInformation := cmd.flowQos }

end Epc.Cp
