import Epc.Lib.Lists
import Epc.Cp.Ddn

/-! The timers behind which downlink reports are deferred: `ddn_timer_callback`,
`thrtle_timer_callback`, `dl_buffer_timer_callback` (`cp/cp_timer.c`) and `fill_sess_info_id`
(`pfcp_messages/pfcp_association.c`). The calls of `ddn_by_session_id` are what a callback returns, each
with the record it is given; an access past an array has no result. -/

namespace Epc.Cp

open Epc.Lib

structure SessInfo where
  pdrCount : UInt8 := 0
  pdrId : List UInt16 := List.replicate maxListSize 0
  sessId : UInt64 := 0
  deriving DecidableEq, Repr

/-- `thrtle_count`. The two counters are of type `float` and count by one. -/
structure ThrtleCount where
  prevDdnEval : Nat := 0
  prevDdnDiscard : Nat := 0
  sessPtr : List SessInfo := []
  deriving DecidableEq, Repr

/-- `ddn_by_seid_hash`, `pfcp_rep_by_seid_hash`, the factors of `thrtl_timer_by_nodeip_hash`,
`thrtl_ddn_count_hash`. -/
structure TimerState where
  ddnBySeid : Table UInt64 PdrIds
  pfcpRepBySeid : Table UInt64 PdrIds
  thrtlTimerByNodeip : Table NodeAddress UInt8
  thrtlDdnCount : Table NodeAddress ThrtleCount

structure DdnCall where
  sessionId : UInt64
  pdr : PdrIds
  deriving DecidableEq, Repr

/-- The rule ids that count in the array of a record. -/
def PdrIds.ids (record : PdrIds) : List UInt16 :=
  record.pdrId.take record.pdrCount.toNat

def SessInfo.ids (info : SessInfo) : List UInt16 :=
  info.pdrId.take info.pdrCount.toNat

def DdnContext.seids (context : DdnContext) : List UInt64 :=
  (List.range maxBearers).filterMap fun i => (context.pdns i).map DdnPdn.seid

/-- Puts the rule ids `pdr` into a node; new ones go through an array of octets. -/
def fillSessInfoPdr (info : SessInfo) (numPdr : UInt8) (pdr : List UInt16) : Option SessInfo :=
  if maxListSize < numPdr.toNat then none
  else if info.pdrCount = 0 then
    some { info with
      pdrCount := numPdr
      pdrId := pdr.take numPdr.toNat ++ info.pdrId.drop numPdr.toNat }
  else if maxListSize < info.pdrCount.toNat then none
  else
    let new := ((pdr.take numPdr.toNat).filter (· ∉ info.ids)).map fun id => id.toUInt8.toUInt16
    let free := info.pdrId.findIdx (· = 0)
    if maxListSize < free + new.length then none
    else some { info with
      pdrCount := info.pdrCount + UInt8.ofNat new.length
      pdrId := info.pdrId.take free ++ new ++ info.pdrId.drop (free + new.length) }

/-- `fill_sess_info_id`: fills the session's node or a new one, in which the session is not noted.
It goes to the end of the list; an empty list stays empty. -/
def fillSessInfoId (count : ThrtleCount) (sessId : UInt64) (numPdr : UInt8) (pdr : List UInt16) :
    Option ThrtleCount :=
  match findKey SessInfo.sessId sessId count.sessPtr with
  | some info =>
    (fillSessInfoPdr info numPdr pdr).map fun filled =>
      { count with
        sessPtr := updateFirst (fun other => other.sessId = sessId) (fun _ => filled) count.sessPtr }
  | none =>
    (fillSessInfoPdr {} numPdr pdr).map fun filled =>
      match count.sessPtr with
      | [] => count
      | head :: rest => { count with sessPtr := head :: rest ++ [filled] }

def deleteRecords (context : DdnContext) (hash : Table UInt64 PdrIds) : Table UInt64 PdrIds :=
  context.seids.foldl Table.del hash

section

variable (thrtlFact : Nat → Nat → UInt8) (ueContextByFteid : Table UInt32 DdnContext)

/-- A session with a record while the MME throttles; `thrtlFact` is the percentage to discard. -/
def throttled (factor : UInt8) (count : ThrtleCount) (seid : UInt64) (record : PdrIds) :
    Option (List DdnCall × ThrtleCount) :=
  if count.prevDdnEval ≠ 0 ∧ thrtlFact count.prevDdnDiscard count.prevDdnEval ≤ factor then
    (fillSessInfoId
        { count with
          prevDdnEval := count.prevDdnEval + 1
          prevDdnDiscard := count.prevDdnDiscard + 1 } seid record.pdrCount record.pdrId).map
      fun count => ([], count)
  else
    some ([⟨seid, { record with ddnBufferedCount := 0 }⟩],
      { count with prevDdnEval := count.prevDdnEval + 1 })

/-- The loop over the PDN connections; under throttling the first session with a record ends it. -/
def ddnTimerLoop (mme : NodeAddress) : List UInt64 → TimerState → Option (List DdnCall × TimerState)
  | [], s => some ([], s)
  | seid :: rest, s =>
    match s.ddnBySeid seid with
    | none => ddnTimerLoop mme rest s
    | some record =>
      match s.thrtlTimerByNodeip mme with
      | none =>
        (ddnTimerLoop mme rest s).map fun (calls, s) =>
          (⟨seid, { record with ddnBufferedCount := 0 }⟩ :: calls, s)
      | some factor =>
        (throttled thrtlFact factor ((s.thrtlDdnCount mme).getD {}) seid record).map
          fun (calls, count) => (calls, { s with thrtlDdnCount := s.thrtlDdnCount.add mme count })

def ddnTimerCallback (sessId : UInt64) (s : TimerState) : Option (List DdnCall × TimerState) :=
  match ueContextByFteid (ueSessId sessId).toUInt32 with
  | none => some ([], s)
  | some context =>
    (ddnTimerLoop thrtlFact context.s11MmeGtpcIp context.seids s).map fun (calls, s) =>
      (calls, { s with ddnBySeid := deleteRecords context s.ddnBySeid })

/-- The PDN connections of a node's context: the first rule id is copied to the record on the stack.
-/
def thrtleCalls (info : SessInfo) : List UInt64 → PdrIds → List DdnCall × PdrIds
  | [], local' => ([], local')
  | seid :: rest, local' =>
    if seid = info.sessId then
      let filled : PdrIds :=
        { pdrCount := info.pdrCount
          pdrId := local'.pdrId.set 0 (info.pdrId.getD 0 0)
          ddnBufferedCount := 0 }
      let (calls, last) := thrtleCalls info rest filled
      (⟨info.sessId, filled⟩ :: calls, last)
    else thrtleCalls info rest local'

/-- The loop over the throttling record. Without a context that of the node before is used. -/
def thrtleLoop : List SessInfo → Option DdnContext → PdrIds → Option (List DdnCall)
  | [], _, _ => some []
  | info :: rest, stale, local' =>
    match (ueContextByFteid (ueSessId info.sessId).toUInt32).or stale with
    | none => none
    | some context =>
      let (calls, last) := thrtleCalls info context.seids local'
      (thrtleLoop rest (some context) last).map (calls ++ ·)

def thrtleTimerCallback (nodeIp : NodeAddress) (s : TimerState) :
    Option (List DdnCall × TimerState) :=
  (thrtleLoop ueContextByFteid ((s.thrtlDdnCount nodeIp).elim [] ThrtleCount.sessPtr) none {}).map fun calls =>
    (calls,
      { s with
        thrtlDdnCount := s.thrtlDdnCount.del nodeIp
        thrtlTimerByNodeip := s.thrtlTimerByNodeip.del nodeIp })

/-- `dl_buffer_timer_callback` by the sessions that a DROBU modification is sent for: the last PDN
connection met, if any has a record. -/
def dlBufferTimerCallback (sessId : UInt64) (s : TimerState) : List UInt64 × TimerState :=
  match ueContextByFteid (ueSessId sessId).toUInt32 with
  | none => ([], s)
  | some context =>
    (if context.seids.any fun seid => (s.pfcpRepBySeid seid).isSome then context.seids.getLast?.toList
      else [],
      { s with pfcpRepBySeid := deleteRecords context s.pfcpRepBySeid })

end

end Epc.Cp
