import Epc.Lib.Chain
import Epc.Up.Session
import Epc.Up.Usage

/-! The rules of a session on the user plane: the tables of PDRs, FARs, QERs and URRs
(`dp/pfcp_up_init.c`, `dp/pfcp_up_llist.c`) and how `process_up_session_estab_req`
(`pfcp_messages/pfcp_up_sess.c`) fills and links them. -/

namespace Epc.Up

open Epc.Lib

/-- How a request ends other than well: with -1, or in something C does not define. -/
inductive Fault where
  | rejected
  | undefined
  deriving DecidableEq, Repr

/-- `rule_key`: the address that the union holds depends on the type. -/
structure RuleKey where
  type : UInt8
  ip : UInt32 ⊕ Ipv6Address
  cpSeid : UInt64
  id : UInt32
  deriving DecidableEq

def PfcpSession.ruleKey (sess : PfcpSession) (id : UInt32) : RuleKey where
  type := sess.cpIp.type
  ip := if sess.cpIp.type = pdnTypeIpv4 then .inl sess.cpIp.ipv4 else .inr sess.cpIp.ipv6
  cpSeid := sess.cpSeid
  id := id

/-- A hash of rules with the entries it refers to. -/
structure RuleTable (Entry : Type) where
  heap : Heap Entry
  byId : Table RuleKey Nat

namespace RuleTable

variable {Entry : Type}

def empty : RuleTable Entry where
  heap := Heap.empty
  byId := Table.empty

/-- A new entry under a key; allocation and insertion succeed. -/
def create (t : RuleTable Entry) (key : RuleKey) (entry : Entry) : RuleTable Entry where
  heap := t.heap.alloc entry
  byId := t.byId.add key t.heap.next

def update (t : RuleTable Entry) (a : Nat) (f : Entry → Entry) : RuleTable Entry :=
  { t with heap := t.heap.update a f }

end RuleTable

/-- `enum outer_header_rvl_crt`, without the members that nothing stores here. -/
inductive OuterHeader where
  | gtpuUdpIpv4
  | gtpuUdpIpv6
  | notSet
  deriving DecidableEq, Repr

/-- `pfcp_outer_hdr_creation_ie_t`; the tags are those of the description. -/
structure OuterHdrCreationIe where
  gtpuUdpIpv4 : Bool
  gtpuUdpIpv6 : Bool
  ctag : UInt32
  stag : UInt32
  teid : UInt32
  portNumber : UInt16
  ipv4Address : UInt32
  ipv6Address : Ipv6Address
  deriving DecidableEq, Repr

/-- `pfcp_apply_action_ie_t`, and what an entry keeps of it. -/
structure ApplyAction where
  dupl : Bool := false
  buff : Bool := false
  forw : Bool := false
  drop : Bool := false
  nocp : Bool := false
  deriving DecidableEq, Repr

/-- The forwarding parameters that `process_create_far_info` does not store, zero where absent. -/
structure OtherParms where
  ntwkInst : List UInt8 := []
  trnsptLvlMarking : UInt16 := 0
  frwdngPlcy : List UInt8 := []
  hdrEnrchmt : List UInt8 := []
  deriving DecidableEq, Repr

structure FrwdngParms where
  dstIntfc : Option UInt8
  outerHdrCreation : Option OuterHdrCreationIe
  others : OtherParms := {}
  deriving DecidableEq, Repr

/-- `pfcp_create_far_ie_t`; the duplicating parameters by their policies. -/
structure CreateFar where
  farId : UInt32
  applyAction : Option ApplyAction
  frwdngParms : Option FrwdngParms
  barId : Option UInt8
  dupngParms : List (List UInt8)
  deriving DecidableEq, Repr

structure OuterHdrCreation where
  ipType : UInt8 := 0
  outerHdrCreationDesc : OuterHeader := .gtpuUdpIpv4
  teid : UInt32 := 0
  ipv4Address : UInt32 := 0
  ipv6Address : Ipv6Address := NodeAddress.zeroIpv6
  portNumber : UInt16 := 0
  ctag : UInt32 := 0
  stag : UInt32 := 0
  deriving DecidableEq, Repr

/-- `li_config_t`; the id has eight octets. -/
structure LiConfig where
  id : List UInt8
  westDirection : UInt8
  westContent : UInt8
  eastDirection : UInt8
  eastContent : UInt8
  forward : UInt8
  deriving DecidableEq, Repr

structure FarInfo where
  pdrCount : UInt16 := 0
  farIdValue : UInt32 := 0
  actions : ApplyAction := {}
  dstIntfc : UInt8 := 0
  outerHdrCreation : OuterHdrCreation := {}
  others : OtherParms := {}
  liConfig : List LiConfig := []
  barIdValue : UInt8 := 0
  session : Option Nat := none
  deriving DecidableEq, Repr

/-- The configuration that a forwarding policy stands for, octet by octet. -/
def liConfigOf (policy : List UInt8) : LiConfig where
  id := if 6 < policy.length then (List.range 8).map fun i => policy.getD (6 + i) 0
    else List.replicate 8 0
  westDirection := policy.getD 1 0
  westContent := policy.getD 2 0
  eastDirection := policy.getD 3 0
  eastContent := policy.getD 4 0
  forward := policy.getD 5 0

/-- The outer header: other kinds leave the description; the address is of the element's family. -/
def OuterHdrCreationIe.store (ie : OuterHdrCreationIe) (o : OuterHdrCreation) : OuterHdrCreation :=
  let o := { o with
    outerHdrCreationDesc :=
      if ie.gtpuUdpIpv4 then .gtpuUdpIpv4
      else if ie.gtpuUdpIpv6 then .gtpuUdpIpv6
      else o.outerHdrCreationDesc
    teid := ie.teid
    ctag := ie.ctag
    stag := ie.stag
    portNumber := ie.portNumber }
  if ie.ipv4Address ≠ 0 then { o with ipType := pdnTypeIpv4, ipv4Address := ie.ipv4Address }
  else { o with ipType := pdnTypeIpv6, ipv6Address := ie.ipv6Address }

/-- What `process_create_far_info` stores into the entry. -/
def CreateFar.store (ie : CreateFar) (far : FarInfo) : FarInfo :=
  let parms := ie.frwdngParms
  { far with
    actions := ie.applyAction.getD far.actions
    dstIntfc := (parms.bind (·.dstIntfc)).getD far.dstIntfc
    outerHdrCreation :=
      match parms.bind (·.outerHdrCreation) with
      | some outer => outer.store far.outerHdrCreation
      | none => far.outerHdrCreation
    barIdValue := ie.barId.getD far.barIdValue
    liConfig := if ie.dupngParms = [] then far.liConfig else ie.dupngParms.map liConfigOf }

inductive UpSessionState where
  | connected
  | idle
  | inProgress
  deriving DecidableEq, Repr

/-- What rules are linked with in `pfcp_session_datat_t`; `pdrs` are the listed addresses. -/
structure SessionData where
  pdrs : List Nat := []
  sessState : UpSessionState := .connected
  hdrCrt : OuterHeader := .gtpuUdpIpv4
  hdrRvl : Option UInt8 := some 0
  wbPeerIpAddr : NodeAddress := NodeAddress.zero
  ebPeerIpAddr : NodeAddress := NodeAddress.zero
  deriving DecidableEq, Repr

def dstIntfcAccess : UInt8 := 0

/-- The peer that a FAR sends to, added to the address of one side of the session. -/
def OuterHdrCreationIe.storePeer (ie : OuterHdrCreationIe) (peer : NodeAddress) : NodeAddress :=
  if ie.ipv4Address ≠ 0 then
    { peer with ipType := peer.ipType ||| pdnTypeIpv4, ipv4Addr := ie.ipv4Address }
  else { peer with ipType := peer.ipType ||| pdnTypeIpv6, ipv6Addr := ie.ipv6Address }

/-- What `process_create_far_info` stores into the session. -/
def CreateFar.storeSession (ie : CreateFar) (session : SessionData) : SessionData :=
  match ie.frwdngParms with
  | none => { session with hdrCrt := .notSet }
  | some parms =>
    match parms.outerHdrCreation with
    | none => { session with hdrCrt := .notSet }
    | some outer =>
      let session := { session with
        hdrCrt :=
          if outer.gtpuUdpIpv4 then .gtpuUdpIpv4
          else if outer.gtpuUdpIpv6 then .gtpuUdpIpv6
          else .notSet }
      if outer.ipv4Address ≠ 0 ∨ outer.ipv6Address ≠ NodeAddress.zeroIpv6 then
        let session :=
          if parms.dstIntfc.getD 0 = dstIntfcAccess then
            { session with wbPeerIpAddr := outer.storePeer session.wbPeerIpAddr }
          else { session with ebPeerIpAddr := outer.storePeer session.ebPeerIpAddr }
        if outer.teid ≠ 0 then { session with sessState := .connected } else session
      else session

structure Rates where
  ul : UInt64 := 0
  dl : UInt64 := 0
  deriving DecidableEq, Repr

structure GateStatus where
  ulGate : UInt8 := 0
  dlGate : UInt8 := 0
  deriving DecidableEq, Repr

structure PacketRate where
  timeUnit : UInt8 := 0
  maxPcktRate : UInt16 := 0
  deriving DecidableEq, Repr

/-- `pfcp_create_qer_ie_t`: what is behind a flag is absent without it. -/
structure CreateQer where
  qerId : UInt32
  gateStatus : Option GateStatus
  qerCorrId : Option UInt32
  maximumBitrate : Option Rates
  guaranteedBitrate : Option Rates
  uplinkPacketRate : Option PacketRate
  downlinkPacketRate : Option PacketRate
  tosTrafficCls : Option UInt16
  svcClsIndctr : Option UInt16
  qosFlowIdent : Option UInt8
  reflectiveQos : Option UInt8
  pagingPlcyIndctr : Option UInt8
  avgngWnd : Option UInt32
  deriving DecidableEq, Repr

/-- `qer_info_t` without its link; a marking is there when its flag is set. -/
structure QerInfo where
  qerId : UInt32 := 0
  qerCorrIdVal : UInt32 := 0
  gateStatus : GateStatus := {}
  maxBitrate : Rates := {}
  guaranteedBitrate : Rates := {}
  uplinkPacketRate : PacketRate := {}
  downlinkPacketRate : PacketRate := {}
  tosTrafficCls : Option UInt16 := none
  svcClsIndctr : Option UInt16 := none
  qosFlowIdent : UInt8 := 0
  reflectiveQos : UInt8 := 0
  pagingPlcyIndctr : UInt8 := 0
  avgngWnd : UInt32 := 0
  session : Option Nat := none
  deriving DecidableEq, Repr

/-- What `process_create_qer_info` stores into the entry. -/
def CreateQer.store (ie : CreateQer) (qer : QerInfo) : QerInfo :=
  { qer with
    gateStatus := ie.gateStatus.getD qer.gateStatus
    qerCorrIdVal := ie.qerCorrId.getD qer.qerCorrIdVal
    maxBitrate := ie.maximumBitrate.getD qer.maxBitrate
    guaranteedBitrate := ie.guaranteedBitrate.getD qer.guaranteedBitrate
    uplinkPacketRate := ie.uplinkPacketRate.getD qer.uplinkPacketRate
    downlinkPacketRate := ie.downlinkPacketRate.getD qer.downlinkPacketRate
    tosTrafficCls := ie.tosTrafficCls.or qer.tosTrafficCls
    svcClsIndctr := ie.svcClsIndctr.or qer.svcClsIndctr
    qosFlowIdent := ie.qosFlowIdent.getD qer.qosFlowIdent
    reflectiveQos := ie.reflectiveQos.getD qer.reflectiveQos
    pagingPlcyIndctr := ie.pagingPlcyIndctr.getD qer.pagingPlcyIndctr
    avgngWnd := ie.avgngWnd.getD qer.avgngWnd }

/-- `pfcp_create_urr_ie_t`: a volume is absent without its flag. -/
structure CreateUrr where
  urrId : UInt32
  volThreshUplink : Option UInt64
  volThreshDownlink : Option UInt64
  timeThreshold : Option UInt32
  methodVolum : Bool
  methodDurat : Bool
  triggerVolth : Bool
  triggerTimth : Bool
  deriving DecidableEq, Repr

/-- `urr_info_t` without its link to the next one. -/
structure UrrRule where
  pdrCount : UInt16
  timeThes : UInt32
  endTime : UInt32
  info : UrrInfo
  deriving DecidableEq, Repr

def UrrRule.zero : UrrRule where
  pdrCount := 0
  timeThes := 0
  endTime := 0
  info :=
    { urrId := 0, urrSeqNum := 0, measMethod := .volBased, reptTrigg := .volBased,
      volThesUplnk := 0, volThesDwnlnk := 0, uplnkData := 0, dwnlnkData := 0, startTime := 0,
      firstPktTime := 0, lastPktTime := 0 }

/-- The method that two flags stand for, none where it is not supported. -/
def measMethodOf (volume time : Bool) : Option MeasMethod :=
  if volume && time then some .volTimeBased
  else if time then some .timeBased
  else if volume then some .volBased
  else none

/-- What `process_create_urr_info` stores, none for -1; the thresholds lose their high words. -/
def CreateUrr.store (ie : CreateUrr) (now : UInt32) (urr : UrrRule) : Option UrrRule := do
  let measMethod ← measMethodOf ie.methodVolum ie.methodDurat
  let reptTrigg ← measMethodOf ie.triggerVolth ie.triggerTimth
  some { urr with
    timeThes := ie.timeThreshold.getD urr.timeThes
    endTime := 0
    info := { urr.info with
      measMethod
      reptTrigg
      volThesUplnk := (ie.volThreshUplink.map UInt64.toUInt32).getD urr.info.volThesUplnk
      volThesDwnlnk := (ie.volThreshDownlink.map UInt64.toUInt32).getD urr.info.volThesDwnlnk
      uplnkData := 0
      dwnlnkData := 0
      startTime := now
      firstPktTime := 0
      lastPktTime := 0 } }

structure LocalFteid where
  v4 : Bool
  v6 : Bool
  chid : Bool
  ch : Bool
  teid : UInt32
  deriving DecidableEq, Repr

structure UeIpAddress where
  v4 : Bool
  v6 : Bool
  ipv4Address : UInt32
  ipv6Address : Ipv6Address
  deriving DecidableEq, Repr

/-- `pfcp_create_pdr_ie_t`, without the filters of its PDI. -/
structure CreatePdr where
  pdrId : UInt16
  precedence : Option UInt32
  localFteid : Option LocalFteid
  ueIpAddress : Option UeIpAddress
  outerHdrRemoval : Option UInt8
  farId : Option UInt32
  qerIds : List UInt32
  urrIds : List UInt32
  actvtPredefRules : List (List UInt8)
  deriving DecidableEq, Repr

/-- `pdi.local_fteid.teid`, zero without the element. -/
def CreatePdr.teid (pdr : CreatePdr) : UInt32 :=
  (pdr.localFteid.map (·.teid)).getD 0

/-- The parts of `pdr_info_t` outside its PDI. -/
structure PdrInfo where
  ruleId : UInt16
  prcdncVal : UInt32 := 0
  teid : UInt32 := 0
  outerHdrRemovalDesc : UInt8 := 0
  far : Option Nat := none
  qerCount : UInt8 := 0
  quer : Option Nat := none
  urrCount : UInt8 := 0
  urr : Option Nat := none
  predefRules : List (List UInt8) := []
  session : Option Nat := none
  deriving DecidableEq, Repr

structure UeIp where
  ueIpv4 : UInt32
  ueIpv6 : Ipv6Address
  deriving DecidableEq

/-- The parts of a predefined rule and of its meter that a QER is made of. -/
structure PredefQos where
  gateStatus : GateStatus
  maxBitrate : Rates
  guaranteedBitrate : Rates
  deriving DecidableEq, Repr

/-- What the rules are kept in. `predefQos` has the names of rules with a meter; `teids` are those
of the session contexts. -/
structure RuleState where
  sessions : Heap SessionData
  byTeid : Table UInt32 Nat
  byUeip : Table UeIp Nat
  pdrs : RuleTable PdrInfo
  fars : RuleTable FarInfo
  qers : RuleTable (Node QerInfo)
  urrs : RuleTable (Node UrrRule)
  predefQos : Table (List UInt8) PredefQos
  upQerIndxOffset : UInt32
  teids : Nat → List UInt32

section

/-- `add_far_info_entry`: an entry found is overwritten with the PDR's, if any. -/
def addFarInfoEntry (t : RuleTable FarInfo) (key : RuleKey) (far : Option Nat) :
    Nat × RuleTable FarInfo :=
  match t.byId key with
  | none => (t.heap.next, t.create key {})
  | some tmp =>
    match far with
    | none => (tmp, t)
    | some a => (a, t.update tmp fun old => (t.heap.cells a).getD old)

variable {α : Type}

/-- `insert_qer_node` and `insert_urr_node` and the test of the head: a new last node. -/
def insertNode (heap : Heap (Node α)) (head : Option Nat) (a : Nat) :
    Except Fault (Option Nat × Heap (Node α)) :=
  match head with
  | none => .ok (some a, heap)
  | some first =>
    match heap.lastNode heap.next first with
    | none => .error .undefined
    | some last => .ok (head, heap.update last fun node => { node with next := some a })

/-- The common part of `add_qer_info_entry` and `add_urr_info_entry`: an entry found is put on an
empty list only. -/
def addListedEntry (t : RuleTable (Node α)) (key : RuleKey) (entry : α) (head : Option Nat) :
    Except Fault (Option Nat × RuleTable (Node α)) :=
  match t.byId key with
  | some a => .ok (head.or (some a), t)
  | none => do
      let created := t.create key { data := entry }
      let (head, heap) ← insertNode created.heap head t.heap.next
      .ok (head, { created with heap })

def addQerInfoEntry (t : RuleTable (Node QerInfo)) (key : RuleKey) (qerId : UInt32)
    (head : Option Nat) : Except Fault (Option Nat × RuleTable (Node QerInfo)) :=
  addListedEntry t key { qerId } head

/-- The entry of a URR is left without its id. -/
def addUrrInfoEntry (t : RuleTable (Node UrrRule)) (key : RuleKey) (_urrId : UInt32)
    (head : Option Nat) : Except Fault (Option Nat × RuleTable (Node UrrRule)) :=
  addListedEntry t key UrrRule.zero head

/-- A store to `head[itr]`, where `head` is one node and not an array. -/
def storeAt (t : RuleTable (Node α)) (head : Option Nat) (itr : Nat) (f : α → α) :
    Except Fault (RuleTable (Node α)) :=
  match head, itr with
  | some a, 0 => .ok (t.update a (Node.modify f))
  | _, _ => .error .undefined

variable (sess : PfcpSession)

/-- The loop over a PDR's ids: each is added to the list, then a store to its index. -/
def linkListed (add : RuleTable (Node α) → RuleKey → UInt32 → Option Nat →
      Except Fault (Option Nat × RuleTable (Node α))) (store : UInt32 → α → α) :
    Nat → List UInt32 → Option Nat → RuleTable (Node α) →
      Except Fault (Option Nat × RuleTable (Node α))
  | _, [], head, t => .ok (head, t)
  | itr, id :: ids, head, t => do
      let (head, t) ← add t (sess.ruleKey id) id head
      let t ← storeAt t head itr (store id)
      linkListed add store (itr + 1) ids head t

def linkQers : Nat → List UInt32 → Option Nat → RuleTable (Node QerInfo) →
    Except Fault (Option Nat × RuleTable (Node QerInfo)) :=
  linkListed sess addQerInfoEntry fun id qer => { qer with qerId := id }

def linkUrrs : Nat → List UInt32 → Option Nat → RuleTable (Node UrrRule) →
    Except Fault (Option Nat × RuleTable (Node UrrRule)) :=
  linkListed sess addUrrInfoEntry fun id urr =>
    { urr with pdrCount := urr.pdrCount + 1, info := { urr.info with urrId := id } }

/-- The FAR of a PDR; the id is cut to the sixteen bits of the parameter. -/
def linkFar (farId : Option UInt32) (far : Option Nat) (t : RuleTable FarInfo) :
    Option Nat × RuleTable FarInfo :=
  match farId with
  | none => (far, t)
  | some id =>
    let (a, t) := addFarInfoEntry t (sess.ruleKey id.toUInt16.toUInt32) far
    (some a, t.update a fun far => { far with farIdValue := id, pdrCount := far.pdrCount + 1 })

/-- The loop over a PDR's predefined rules: the QERs of `add_rule_info_qer_hash` go to the end of
the list. -/
def linkPredefRules (predefQos : Table (List UInt8) PredefQos) (session : Nat) :
    List (List UInt8) → UInt32 → Option Nat → Heap (Node QerInfo) →
      Except Fault (UInt32 × Option Nat × Heap (Node QerInfo))
  | [], offset, head, heap => .ok (offset, head, heap)
  | name :: names, offset, head, heap =>
    match predefQos name with
    | none => linkPredefRules predefQos session names offset head heap
    | some qos => do
        let qer : QerInfo :=
          { qerId := offset + 1
            gateStatus := qos.gateStatus
            maxBitrate := qos.maxBitrate
            guaranteedBitrate := qos.guaranteedBitrate
            session := some session }
        let (head, heap) ← insertNode (heap.alloc { data := qer }) head heap.next
        linkPredefRules predefQos session names (offset + 1) head heap

end

def getSessByTeidEntry (s : RuleState) (teid : UInt32) : Nat × RuleState :=
  match s.byTeid teid with
  | some a => (a, s)
  | none =>
    (s.sessions.next,
      { s with
        sessions := s.sessions.alloc {}
        byTeid := s.byTeid.add teid s.sessions.next })

def getSessByUeipEntry (s : RuleState) (ueIp : UeIp) : Nat × RuleState :=
  match s.byUeip ueIp with
  | some a => (a, s)
  | none =>
    (s.sessions.next,
      { s with
        sessions := s.sessions.alloc {}
        byUeip := s.byUeip.add ueIp s.sessions.next })

/-- `get_pfcp_session_data`: by the TEID, or else the UE's address; with both families the IPv6
address leads to the IPv4 one's session. -/
def getPfcpSessionData (pdr : CreatePdr) (s : RuleState) : Option Nat × RuleState :=
  if pdr.teid ≠ 0 then
    let (a, s) := getSessByTeidEntry s pdr.teid
    (some a, s)
  else
    match pdr.ueIpAddress with
    | none => (none, s)
    | some ue =>
      let v4Key : UeIp := { ueIpv4 := ue.ipv4Address, ueIpv6 := NodeAddress.zeroIpv6 }
      let v6Key : UeIp := { ueIpv4 := 0, ueIpv6 := ue.ipv6Address }
      match ue.v4, ue.v6 with
      | true, false =>
        let (a, s) := getSessByUeipEntry s v4Key
        (some a, s)
      | true, true =>
        let (a, s) := getSessByUeipEntry s v4Key
        (some a, { s with byUeip := s.byUeip.add v6Key a })
      | false, true =>
        let (a, s) := getSessByUeipEntry s v6Key
        (some a, s)
      | false, false => (none, s)

section

variable (sess : PfcpSession)

def getPdrInfoEntry (ruleId : UInt16) (session : Nat) (s : RuleState) : Nat × RuleState :=
  match s.pdrs.byId (sess.ruleKey ruleId.toUInt32) with
  | some a => (a, s)
  | none =>
    (s.pdrs.heap.next,
      { s with
        pdrs := s.pdrs.create (sess.ruleKey ruleId.toUInt32) { ruleId }
        sessions := s.sessions.update session fun data =>
          { data with pdrs := data.pdrs ++ [s.pdrs.heap.next] } })

def processCreatePdrInfo (context session : Nat) (pdr : CreatePdr) (s : RuleState) :
    Except Fault RuleState := do
  let (a, s) := getPdrInfoEntry sess pdr.pdrId session s
  if pdr.localFteid.any fun fteid => fteid.chid || fteid.ch then
    .error .rejected
  match s.pdrs.heap.cells a with
  | none => .error .undefined
  | some old =>
    let (far, fars) := linkFar sess pdr.farId old.far s.fars
    let (quer, qers) ← linkQers sess 0 pdr.qerIds old.quer s.qers
    let (urr, urrs) ← linkUrrs sess 0 pdr.urrIds old.urr s.urrs
    let (upQerIndxOffset, quer, heap) ←
      linkPredefRules s.predefQos session pdr.actvtPredefRules s.upQerIndxOffset quer qers.heap
    let predefQers := pdr.actvtPredefRules.filter fun name => (s.predefQos name).isSome
    .ok { s with
      fars
      urrs
      upQerIndxOffset
      qers := { qers with heap }
      sessions := s.sessions.update session fun data => { data with hdrRvl := pdr.outerHdrRemoval }
      pdrs := s.pdrs.update a fun info => { info with
        ruleId := pdr.pdrId
        prcdncVal := pdr.precedence.getD info.prcdncVal
        teid :=
          match pdr.localFteid with
          | some fteid => if fteid.v4 || fteid.v6 then fteid.teid else info.teid
          | none => info.teid
        outerHdrRemovalDesc := pdr.outerHdrRemoval.getD info.outerHdrRemovalDesc
        far
        quer
        urr
        qerCount :=
          (if pdr.qerIds = [] then info.qerCount else UInt8.ofNat pdr.qerIds.length) +
            UInt8.ofNat predefQers.length
        urrCount := if pdr.urrIds = [] then info.urrCount else UInt8.ofNat pdr.urrIds.length
        predefRules :=
          if pdr.actvtPredefRules = [] then info.predefRules else pdr.actvtPredefRules
        session := some context } }

def processCreateFarInfo (session : Nat) (ie : CreateFar) (s : RuleState) :
    Except Fault RuleState :=
  match s.fars.byId (sess.ruleKey ie.farId.toUInt16.toUInt32) with
  | none => .error .rejected
  | some a => .ok { s with
      fars := s.fars.update a fun far => { ie.store far with session := some session }
      sessions := s.sessions.update session ie.storeSession }

/-- The end of `process_create_qer_info`, once it has the entry. -/
def storeQer (session : Nat) (ie : CreateQer) (a : Nat) (t : RuleTable (Node QerInfo)) :
    RuleTable (Node QerInfo) :=
  t.update a (Node.modify fun qer => { ie.store qer with session := some session })

/-- `process_create_qer_info` for the list of `session->pdrs[itr]`, which is no array; the list is
only looked at for a new entry. -/
def processCreateQerInfo (session itr : Nat) (ie : CreateQer) (s : RuleState) :
    Except Fault RuleState :=
  let key := sess.ruleKey ie.qerId
  match s.qers.byId key with
  | some a => .ok { s with qers := storeQer session ie a s.qers }
  | none =>
    match itr, (s.sessions.cells session).bind (·.pdrs.head?) with
    | 0, some p =>
      match s.pdrs.heap.cells p with
      | none => .error .undefined
      | some info => do
          let (quer, qers) ← addQerInfoEntry s.qers key ie.qerId info.quer
          .ok { s with
            qers := storeQer session ie s.qers.heap.next qers
            pdrs := s.pdrs.update p fun info => { info with quer } }
    | _, _ => .error .undefined

/-- `process_create_urr_info`; its timers start. -/
def processCreateUrrInfo (now : UInt32) (ie : CreateUrr) (s : RuleState) : Except Fault RuleState :=
  match s.urrs.byId (sess.ruleKey ie.urrId) with
  | none => .error .rejected
  | some a =>
    match s.urrs.heap.cells a with
    | none => .error .undefined
    | some node =>
      match ie.store now node.data with
      | none => .error .rejected
      | some data => .ok { s with urrs := s.urrs.update a fun node => { node with data } }

def maxBearers : Nat := 15

/-- A PDR's TEID is kept with the session context; there are fifteen places. -/
def storeTeid (context : Nat) (pdr : CreatePdr) (s : RuleState) : Except Fault RuleState :=
  if pdr.teid = 0 then .ok s
  else if (s.teids context).length < maxBearers then
    .ok { s with teids := Function.update s.teids context (s.teids context ++ [pdr.teid]) }
  else .error .undefined

end

/-- The parts of `pfcp_sess_estab_req_t` that the rules come from. -/
structure EstabRequest where
  head : SessionRequest
  createPdrs : List CreatePdr
  createFars : List CreateFar
  createQers : List CreateQer
  createUrrs : List CreateUrr
  deriving DecidableEq, Repr

namespace EstabRequest

variable (r : EstabRequest) (sess : PfcpSession) (context : Nat) (now : UInt32)

/-- One round of the loop over the Create PDRs; one without a session is passed over. -/
def processPdr (itr : Nat) (pdr : CreatePdr) (s : RuleState) : Except Fault RuleState :=
  match getPfcpSessionData pdr s with
  | (none, s) => .ok s
  | (some session, s) => do
      let s := { s with
        sessions := s.sessions.update session fun data => { data with sessState := .inProgress } }
      let s ← processCreatePdrInfo sess context session pdr s
      let s ← (r.createFars.filter fun ie => pdr.farId.getD 0 == ie.farId).foldlM
        (fun s ie => processCreateFarInfo sess session ie s) s
      let s ← pdr.qerIds.foldlM (fun s id =>
        (r.createQers.filter fun ie => id == ie.qerId).foldlM
          (fun s ie => processCreateQerInfo sess session itr ie s) s) s
      let s ← pdr.urrIds.foldlM (fun s id =>
        (r.createUrrs.filter fun ie => id == ie.urrId).foldlM
          (fun s ie => processCreateUrrInfo sess now ie s) s) s
      storeTeid context pdr s

/-- The loop over the Create PDRs from an index on. -/
def processPdrs : Nat → List CreatePdr → RuleState → Except Fault RuleState
  | _, [], s => .ok s
  | itr, pdr :: pdrs, s => do
      let s ← r.processPdr sess context now itr pdr s
      processPdrs (itr + 1) pdrs s

end EstabRequest

/-- The session contexts and the rules of the user plane. -/
structure UpState where
  contexts : SessionTable
  rules : RuleState

/-- The context a request works on, as the head of the request leaves it. -/
def EstabRequest.session (r : EstabRequest) (contexts : SessionTable) : PfcpSession :=
  let opened := openSession contexts r.head
  PfcpSession.identify r.head ((opened.2.2.contexts.cells opened.1).getD {})

/-- `process_up_session_estab_req` up to the end of the loop over the Create PDRs. -/
def processUpSessionEstabReq (now : UInt32) (s : UpState) (r : EstabRequest) :
    Except Fault UpState :=
  let (context, accepted, contexts) := openSession s.contexts r.head
  if accepted then do
    let rules ← r.processPdrs (r.session s.contexts) context now 0 r.createPdrs s.rules
    .ok { contexts, rules }
  else .error .rejected

end Epc.Up
