import Epc.Lib.Lists
import Epc.Up.AclTable

/-! The SDF filters of the PDRs on the user plane and the table indices of the session data
(`pfcp_messages/pfcp_up_sess.c`): what the creation, update and removal of PDRs and the deletion of sessions
do to them and to the ACL tables. -/

namespace Epc.Up.Filters

open Epc.Lib Epc.Lib.Text

/-- `MAX_LEN`, `MAX_LIST_SIZE` and `MAX_SDF_RULE_NUM`. -/
def maxLen : Nat := 128
def maxListSize : Nat := 16
def maxSdfRuleNum : Nat := 32

section

/-- `get_rule_ip_type`: a colon in the first address; without one it reads through a null pointer.
-/
def getRuleIpType (rule : List Char) : Except Fault RuleIpType :=
  match strtok blank rule with
  | none => .error .undefined
  | some (first, _) => .ok (if ':' ∈ first then .ipv6 else .ipv4)

def swapSrcDstIp (str : List Char) : Except Fault (List Char) :=
  match strtok blank str with
  | none => .error .undefined
  | some (src, rest) =>
    match strtok blank rest with
    | none => .error .undefined
    | some (dst, sp) => .ok ((dst ++ (' ' :: (src ++ (' ' :: (sp ++ ['\n']))))).take (maxLen - 1))

/-- The packet filter of a flow description. One that does not fit is written past the rule string;
uplink swaps the addresses. -/
def sdfPktFilter (precedence : UInt32) (interfaceValue : UInt8) (flowDesc : List Char) :
    Except Fault SdfPktFilter := do
  if maxLen ≤ flowDesc.length then .error .undefined
  else
    let ruleIpType ← getRuleIpType flowDesc
    let ruleStr ← if interfaceValue = 0 then swapSrcDstIp flowDesc else .ok flowDesc
    .ok { precedence, ruleIpType, ruleStr }

end

/-- `sdf_filter_t`, as it is zeroed or filled. -/
structure SdfFilter where
  fd : Bool := false
  flowDesc : List Char := []
  deriving DecidableEq, Repr

/-- A session's PDR: the session data listing it, and what its PDI has about filters; `sdfFilter`
has `sdf_filter_cnt` entries. -/
structure SdfPdr where
  seid : UInt64
  data : Nat
  ruleId : UInt16
  prcdncVal : UInt32 := 0
  interfaceValue : UInt8 := 0
  sdfFilter : List SdfFilter := []
  deriving DecidableEq, Repr

def SdfPdr.key (pdr : SdfPdr) : UInt64 × UInt16 := (pdr.seid, pdr.ruleId)

def SdfPdr.pktFilter (pdr : SdfPdr) (filter : SdfFilter) : Except Fault SdfPktFilter :=
  sdfPktFilter pdr.prcdncVal pdr.interfaceValue filter.flowDesc

/-- The ACL tables, the used entries of `acl_table_indx` of the session data, the PDRs of live
sessions. -/
structure FilterState where
  acl : AclState := {}
  aclTableIndx : Nat → List Nat := fun _ => []
  pdrs : List SdfPdr := []

section

/-- `pfcp_sdf_filter_ie_t`; `there` tells of its header length. -/
structure SdfFilterIe where
  there : Bool := true
  fd : Bool := true
  flowDesc : List Char
  deriving DecidableEq, Repr

/-- What is about filters in `pfcp_pdi_ie_t`: the source interface, whether the F-TEID is refused
for its CH or CHID flag, and the filters. -/
structure PdiIe where
  srcIntfc : Bool := true
  interfaceValue : UInt8
  refusedFteid : Bool := false
  sdfFilter : List SdfFilterIe
  deriving DecidableEq, Repr

/-- A Create PDR or Update PDR; `data` is what the PDI's F-TEID or UE address leads to. -/
structure PdrIe where
  seid : UInt64
  data : Nat
  ruleId : UInt16
  precedence : Option UInt32
  pdi : Option PdiIe
  deriving DecidableEq, Repr

end

section

variable (freed : List Char → List Char)

structure PdiState where
  pdr : SdfPdr
  aclTableIndx : List Nat
  acl : AclState

/-- `process_pdi_sdf_filters` for a filter of the array that is zero. -/
def processPdiSdfFilters (ie : SdfFilterIe) : SdfFilter :=
  if ie.fd then { fd := true, flowDesc := ie.flowDesc } else {}

/-- The loop of `process_pdr_pdi_info` for one filter. -/
def addFilter (prcdncVal : UInt32) (interfaceValue : UInt8) (s : PdiState) (ie : SdfFilterIe) :
    Except Fault PdiState :=
  if ie.there then
    if maxListSize ≤ s.pdr.sdfFilter.length then .error .undefined
    else
      let pdr := { s.pdr with sdfFilter := s.pdr.sdfFilter ++ [processPdiSdfFilters ie] }
      if ie.fd then do
        let filter ← sdfPktFilter prcdncVal interfaceValue ie.flowDesc
        if maxSdfRuleNum ≤ s.aclTableIndx.length then .error .undefined
        else
          let (indx, acl) ← s.acl.getAclTableIndx freed filter true
          .ok { pdr, acl, aclTableIndx := s.aclTableIndx ++ indx.toList }
      else .ok { s with pdr }
  else .ok s

/-- Whether `process_pdr_pdi_info` succeeds, and what it leaves. -/
def processPdrPdiInfo (pdi : PdiIe) (s : PdiState) : Except Fault (Bool × PdiState) :=
  let s := if pdi.srcIntfc then { s with pdr := { s.pdr with interfaceValue := pdi.interfaceValue } } else s
  if pdi.refusedFteid then .ok (false, s)
  else
    (pdi.sdfFilter.foldlM (addFilter freed s.pdr.prcdncVal pdi.interfaceValue) s).map fun s => (true, s)

/-- `process_create_pdr_info` for a PDR that is found or new. -/
def processCreatePdrInfo (ie : PdrIe) (s : FilterState) : Except Fault FilterState := do
  let known := findKey SdfPdr.key (ie.seid, ie.ruleId) s.pdrs
  let pdr := known.getD { seid := ie.seid, data := ie.data, ruleId := ie.ruleId }
  let pdr := { pdr with prcdncVal := ie.precedence.getD pdr.prcdncVal }
  let start : PdiState := { pdr, aclTableIndx := s.aclTableIndx ie.data, acl := s.acl }
  let (done, next) ← match ie.pdi with
    | none => .ok (true, start)
    | some pdi => processPdrPdiInfo freed pdi start
  if done then
    .ok
      { acl := next.acl
        aclTableIndx := Function.update s.aclTableIndx ie.data next.aclTableIndx
        pdrs := match known with
          | none => s.pdrs ++ [next.pdr]
          | some _ =>
            updateFirst (fun other => other.key = (ie.seid, ie.ruleId)) (fun _ => next.pdr) s.pdrs }
  else .error .rejected

/-- The loop of `process_update_pdr_info` for a stored filter: its index leaves the session data.
With all entries in use the one behind the array becomes zero. -/
def dropIndex (pdr : SdfPdr) (acl : AclState) (aclTableIndx : List Nat) (filter : SdfFilter) :
    Except Fault (List Nat) :=
  if filter.fd then do
    let pktFilter ← pdr.pktFilter filter
    let (indx, _) ← acl.getAclTableIndx freed pktFilter false
    match indx with
    | none => .ok aclTableIndx
    | some i =>
      if i ∈ aclTableIndx then
        if aclTableIndx.length = maxSdfRuleNum then .error .undefined else .ok (aclTableIndx.erase i)
      else .ok aclTableIndx
  else .ok aclTableIndx

/-- `process_update_pdr_info`; the result of `process_pdr_pdi_info` is ignored. -/
def processUpdatePdrInfo (ie : PdrIe) (s : FilterState) : Except Fault FilterState :=
  match findKey SdfPdr.key (ie.seid, ie.ruleId) s.pdrs with
  | none => .error .rejected
  | some pdr => do
      let older := match ie.pdi with
        | none => []
        | some pdi => if pdi.sdfFilter = [] then [] else pdr.sdfFilter
      let aclTableIndx ← older.foldlM (dropIndex freed pdr s.acl) (s.aclTableIndx ie.data)
      let pdr := { pdr with prcdncVal := ie.precedence.getD pdr.prcdncVal }
      let start : PdiState := { pdr, aclTableIndx, acl := s.acl }
      let (_, next) ← match ie.pdi with
        | none => .ok (true, start)
        | some pdi => processPdrPdiInfo freed pdi start
      .ok
        { acl := next.acl
          aclTableIndx := Function.update s.aclTableIndx ie.data next.aclTableIndx
          pdrs :=
            updateFirst (fun other => other.key = (ie.seid, ie.ruleId)) (fun _ => next.pdr) s.pdrs }

/-- The loop of `process_remove_pdr_sess` for one stored filter. -/
def removeFilter (dangling : Option Nat) (pdr : SdfPdr) (s : List Nat × AclState) (filter : SdfFilter) :
    Except Fault (List Nat × AclState) :=
  if filter.fd then do
    let pktFilter ← pdr.pktFilter filter
    let (indx, acl) ← s.2.getAclTableIndx freed pktFilter false
    match indx with
    | none => .ok (s.1, acl)
    | some i =>
      if i ∈ s.1 then do
        let acl ← acl.removeRuleEntryAcl freed i pktFilter dangling
        if s.1.length = maxSdfRuleNum then .error .undefined else .ok (s.1.erase i, acl)
      else .ok (s.1, acl)
  else .ok s

/-- `process_remove_pdr_sess`. After a session's last PDR the freed session data is read. Session
data without PDRs is freed. -/
def processRemovePdrSess (seid : UInt64) (ruleId : UInt16) (dangling : Option Nat) (s : FilterState) :
    Except Fault FilterState :=
  match findKey SdfPdr.key (seid, ruleId) s.pdrs with
  | none => .ok s
  | some pdr => do
      let (indx, acl) ← pdr.sdfFilter.foldlM (removeFilter freed dangling pdr) (s.aclTableIndx pdr.data, s.acl)
      let pdrs := s.pdrs.filter fun other => other.key ≠ (seid, ruleId)
      if pdrs.all fun other => other.seid ≠ seid then .error .undefined
      else
        .ok
          { acl
            aclTableIndx := Function.update s.aclTableIndx pdr.data
              (if pdrs.all fun other => other.data ≠ pdr.data then [] else indx)
            pdrs }

/-- `up_delete_session_entry`: the session data is freed, the ACL tables stay. -/
def upDeleteSessionEntry (seid : UInt64) (s : FilterState) : FilterState :=
  { s with
    aclTableIndx := fun data =>
      if s.pdrs.any fun pdr => pdr.seid = seid ∧ pdr.data = data then [] else s.aclTableIndx data
    pdrs := s.pdrs.filter fun pdr => pdr.seid ≠ seid }

end

end Epc.Up.Filters
