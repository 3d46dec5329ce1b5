import Epc.Lib.Run
import Epc.Up.Mask

/-! Usage measurement on the user plane: `update_usage`, the two report builders and the timer callback
(`dp/up_pkt_handler.c`, `pfcp_messages/pfcp_up_sess.c`). What was reported for a URR and what its
counters hold is what the packets carried. -/

namespace Epc.Up

/-- `enum urr_measur_method`. -/
inductive MeasMethod where
  | volBased
  | timeBased
  | volTimeBased
  deriving DecidableEq, Repr

inductive Flow where
  | uplink
  | downlink
  deriving DecidableEq, Repr

/-- The parts of `urr_info_t` that measurement uses. -/
structure UrrInfo where
  urrId : UInt32
  urrSeqNum : UInt32
  measMethod : MeasMethod
  reptTrigg : MeasMethod
  volThesUplnk : UInt32
  volThesDwnlnk : UInt32
  uplnkData : UInt32
  dwnlnkData : UInt32
  startTime : UInt32
  firstPktTime : UInt32
  lastPktTime : UInt32
  deriving DecidableEq, Repr

def UrrInfo.data (urr : UrrInfo) : Flow → UInt32
  | .uplink => urr.uplnkData
  | .downlink => urr.dwnlnkData

def UrrInfo.setData (urr : UrrInfo) (value : UInt32) : Flow → UrrInfo
  | .uplink => { urr with uplnkData := value }
  | .downlink => { urr with dwnlnkData := value }

def UrrInfo.volThes (urr : UrrInfo) : Flow → UInt32
  | .uplink => urr.volThesUplnk
  | .downlink => urr.volThesDwnlnk

/-- The trigger flag of a usage report. -/
inductive UsageRptTrig where
  | volth
  | timth
  | termr
  | unset
  deriving DecidableEq, Repr

structure VolMeas where
  uplinkVolume : UInt64
  downlinkVolume : UInt64
  totalVolume : UInt64
  deriving DecidableEq, Repr

structure UsageReport where
  urrId : UInt32
  urseqn : UInt32
  usageRptTrig : UsageRptTrig
  volMeas : Option VolMeas
  durMeas : Option UInt32
  startTime : UInt32
  endTime : UInt32
  timeOfFrstPckt : UInt32
  timeOfLstPckt : UInt32
  deriving DecidableEq, Repr

def ntpToUnixTime (ntp : UInt32) : UInt32 :=
  if ntp = 0 then 0 else ntp - 0x83AA7E80

/-- What both report builders put into a report; `now` is the clock. -/
def UrrInfo.usageReport (urr : UrrInfo) (trig : UsageRptTrig) (now : UInt32) : UsageReport where
  urrId := urr.urrId
  urseqn := urr.urrSeqNum
  usageRptTrig := trig
  volMeas :=
    match urr.measMethod with
    | .volTimeBased | .volBased =>
      some { uplinkVolume := urr.uplnkData.toUInt64
             downlinkVolume := urr.dwnlnkData.toUInt64
             totalVolume := (urr.dwnlnkData + urr.uplnkData).toUInt64 }
    | .timeBased => none
  durMeas :=
    match urr.measMethod with
    | .timeBased | .volTimeBased => some (ntpToUnixTime now - ntpToUnixTime urr.startTime)
    | .volBased => none
  startTime := urr.startTime
  endTime := now
  timeOfFrstPckt := urr.firstPktTime
  timeOfLstPckt := urr.lastPktTime

/-- The stores that both report builders make. -/
def UrrInfo.restart (urr : UrrInfo) (now : UInt32) : UrrInfo :=
  { urr with
    urrSeqNum := urr.urrSeqNum + 1
    startTime := now
    firstPktTime := 0
    lastPktTime := 0 }

/-- `fill_sess_rep_req_usage_report`: counters become zero only where time is measured. -/
def fillSessRepReqUsageReport (urr : UrrInfo) (trig : MeasMethod) (now : UInt32) :
    UsageReport × UrrInfo :=
  let flag := match trig with
    | .volBased => UsageRptTrig.volth
    | .timeBased => .timth
    | .volTimeBased => .unset
  let restarted := urr.restart now
  (urr.usageReport flag now,
    match urr.measMethod with
    | .timeBased | .volTimeBased => { restarted with uplnkData := 0, dwnlnkData := 0 }
    | .volBased => restarted)

/-- `fill_sess_del_usage_report`, without the timer it stops. -/
def fillSessDelUsageReport (urr : UrrInfo) (now : UInt32) : UsageReport × UrrInfo :=
  (urr.usageReport .termr now, urr.restart now)

/-- A report that left for the control plane, with the address of its URR. -/
structure SentReport where
  urr : Nat
  cpSeid : UInt64
  report : UsageReport
  deriving DecidableEq, Repr

/-- The URRs by address, the reports sent, and the ids `get_sess_info_entry` finds. -/
structure UsageState where
  urrs : Nat → UrrInfo
  sent : List SentReport
  live : UInt64 → Bool

namespace UsageState

def setUrr (s : UsageState) (u : Nat) (urr : UrrInfo) : UsageState :=
  { s with urrs := Function.update s.urrs u urr }

/-- `send_usage_report_req`: without a session the report is built and dropped. -/
def sendUsageReportReq (s : UsageState) (u : Nat) (cpSeid upSeid : UInt64) (trig : MeasMethod)
    (now : UInt32) : UsageState :=
  let filled := fillSessRepReqUsageReport (s.urrs u) trig now
  let s := s.setUrr u filled.2
  if s.live upSeid then
    { s with sent := s.sent ++ [{ urr := u, cpSeid, report := filled.1 }] }
  else s

end UsageState

/-- What measurement uses of `pdr_info_t`; `urr` is the list of its URRs. -/
structure UsagePdr where
  urr : List Nat
  cpSeid : UInt64
  upSeid : UInt64
  deriving DecidableEq, Repr

section

variable {Pkt : Type} (calculateUserDataLen : Pkt → Int)

/-- The counting of one packet in `update_usage`. -/
def UrrInfo.count (urr : UrrInfo) (flow : Flow) (pkt : Pkt) (now : UInt32) : UrrInfo :=
  { urr with
    firstPktTime := if urr.firstPktTime = 0 then now else urr.firstPktTime
    lastPktTime := now }.setData (urr.data flow + UInt32.ofInt (calculateUserDataLen pkt)) flow

/-- Whether the counted packet makes the URR report. -/
def UrrInfo.reports (urr : UrrInfo) (flow : Flow) : Bool :=
  (urr.reptTrigg == .volTimeBased || urr.reptTrigg == .volBased) &&
    decide (urr.volThes flow ≤ urr.data flow)

/-- `update_usage` for a packet whose bit is set: only the first URR is touched. -/
def usagePacket (s : UsageState) (flow : Flow) (now : UInt32) (pkt : Pkt)
    (pdr : Option UsagePdr) : UsageState :=
  match pdr with
  | none => s
  | some pdr =>
    match pdr.urr with
    | [] => s
    | u :: _ =>
      let counted := (s.urrs u).count calculateUserDataLen flow pkt now
      let s := s.setUrr u counted
      if counted.reports flow then
        let s := s.sendUsageReportReq u pdr.cpSeid pdr.upSeid .volBased now
        s.setUrr u ((s.urrs u).setData 0 flow)
      else s

/-- `update_usage` over the packets from index `i` on. -/
def updateUsageFrom (mask : PktMask) (flow : Flow) (now : UInt32) :
    Nat → List (Pkt × Option UsagePdr) → UsageState → UsageState
  | _, [], s => s
  | i, (pkt, pdr) :: rest, s =>
    updateUsageFrom mask flow now (i + 1) rest
      (if issetBit mask i then usagePacket calculateUserDataLen s flow now pkt pdr else s)

def updateUsage (mask : PktMask) (flow : Flow) (now : UInt32)
    (pkts : List (Pkt × Option UsagePdr)) (s : UsageState) : UsageState :=
  updateUsageFrom calculateUserDataLen mask flow now 0 pkts s

end

/-- `timer_callback` for a URR; one that does not measure time only loses its timer. -/
def timerCallback (s : UsageState) (u : Nat) (cpSeid upSeid : UInt64) (now : UInt32) : UsageState :=
  match (s.urrs u).measMethod with
  | .timeBased | .volTimeBased => s.sendUsageReportReq u cpSeid upSeid .timeBased now
  | .volBased => s

/-- The report of a URR in the deletion response. -/
def deletionReport (s : UsageState) (u : Nat) (cpSeid : UInt64) (now : UInt32) : UsageState :=
  let filled := fillSessDelUsageReport (s.urrs u) now
  { s.setUrr u filled.2 with sent := s.sent ++ [{ urr := u, cpSeid, report := filled.1 }] }

open Epc.Lib.Run List UrrInfo

section

variable {Pkt : Type} (calculateUserDataLen : Pkt → Int)

inductive UsageCall (Pkt : Type) where
  | burst (mask : PktMask) (flow : Flow) (now : UInt32) (pkts : List (Pkt × Option UsagePdr))
  | timer (u : Nat) (cpSeid upSeid : UInt64) (now : UInt32)

def UsageCall.apply (s : UsageState) : UsageCall Pkt → UsageState
  | .burst mask flow now pkts => updateUsage calculateUserDataLen mask flow now pkts s
  | .timer u cpSeid upSeid now => timerCallback s u cpSeid upSeid now

inductive UsageStep (Pkt : Type) where
  | packet (flow : Flow) (now : UInt32) (pkt : Pkt) (pdr : Option UsagePdr)
  | timer (u : Nat) (cpSeid upSeid : UInt64) (now : UInt32)

def UsageStep.apply (s : UsageState) : UsageStep Pkt → UsageState
  | .packet flow now pkt pdr => usagePacket calculateUserDataLen s flow now pkt pdr
  | .timer u cpSeid upSeid now => timerCallback s u cpSeid upSeid now

def setPackets (mask : PktMask) (flow : Flow) (now : UInt32) :
    Nat → List (Pkt × Option UsagePdr) → List (UsageStep Pkt)
  | _, [] => []
  | i, (pkt, pdr) :: rest =>
    if issetBit mask i then .packet flow now pkt pdr :: setPackets mask flow now (i + 1) rest
    else setPackets mask flow now (i + 1) rest

def UsageCall.steps : UsageCall Pkt → List (UsageStep Pkt)
  | .burst mask flow now pkts => setPackets mask flow now 0 pkts
  | .timer u cpSeid upSeid now => [.timer u cpSeid upSeid now]

theorem updateUsageFrom_eq_run (mask : PktMask) (flow : Flow) (now : UInt32) (i : Nat)
    (pkts : List (Pkt × Option UsagePdr)) (s : UsageState) :
    updateUsageFrom calculateUserDataLen mask flow now i pkts s =
      run (UsageStep.apply calculateUserDataLen) s (setPackets mask flow now i pkts) := by
  induction pkts generalizing i s with
  | nil => rfl
  | cons head rest ih =>
    rw [updateUsageFrom, setPackets, ih]
    split <;> rfl

theorem runCalls_eq_run (calls : List (UsageCall Pkt)) (s : UsageState) :
    run (UsageCall.apply calculateUserDataLen) s calls =
      run (UsageStep.apply calculateUserDataLen) s (calls.flatMap UsageCall.steps) := by
  induction calls generalizing s with
  | nil => rfl
  | cons call calls ih =>
    rw [run_cons, ih, flatMap_cons, run_append]
    congr 1
    cases call with
    | burst mask flow now pkts =>
      exact updateUsageFrom_eq_run calculateUserDataLen mask flow now 0 pkts s
    | timer u cpSeid upSeid now => rfl

end

def UsageReport.volume (report : UsageReport) (flow : Flow) : Nat :=
  match report.volMeas, flow with
  | none, _ => 0
  | some meas, .uplink => meas.uplinkVolume.toNat
  | some meas, .downlink => meas.downlinkVolume.toNat

def UsageState.reported (s : UsageState) (u : Nat) (flow : Flow) : Nat :=
  ((s.sent.filter fun sent => sent.urr = u).map fun sent => sent.report.volume flow).sum

structure UrrInfo.Volumetric (urr : UrrInfo) : Prop where
  measures : urr.measMethod ≠ .timeBased
  triggers : urr.reptTrigg ≠ .timeBased

variable {urr : UrrInfo}

theorem UrrInfo.Volumetric.volume (volumetric : urr.Volumetric) (trig : UsageRptTrig) (now : UInt32)
    (flow : Flow) : (urr.usageReport trig now).volume flow = (urr.data flow).toNat := by
  have measures := volumetric.measures
  cases method : urr.measMethod with
  | timeBased => exact absurd method measures
  | volBased | volTimeBased =>
    cases flow <;> simp [UsageReport.volume, usageReport, method, data]

def Flow.other : Flow → Flow
  | .uplink => .downlink
  | .downlink => .uplink

theorem Flow.eq_or_eq_other (flow d : Flow) : d = flow ∨ d = flow.other := by
  cases flow <;> cases d <;> simp [Flow.other]

@[simp] theorem UrrInfo.data_setData_self (urr : UrrInfo) (value : UInt32) (flow : Flow) :
    (urr.setData value flow).data flow = value := by
  cases flow <;> rfl

@[simp] theorem UrrInfo.data_setData_other (urr : UrrInfo) (value : UInt32) (flow : Flow) :
    (urr.setData value flow).data flow.other = urr.data flow.other := by
  cases flow <;> rfl

@[simp] theorem UrrInfo.setData_measMethod (urr : UrrInfo) (value : UInt32) (flow : Flow) :
    (urr.setData value flow).measMethod = urr.measMethod := by
  cases flow <;> rfl

@[simp] theorem UrrInfo.setData_reptTrigg (urr : UrrInfo) (value : UInt32) (flow : Flow) :
    (urr.setData value flow).reptTrigg = urr.reptTrigg := by
  cases flow <;> rfl

@[simp] theorem UrrInfo.setData_volThes (urr : UrrInfo) (value : UInt32) (flow d : Flow) :
    (urr.setData value flow).volThes d = urr.volThes d := by
  cases flow <;> cases d <;> rfl

theorem UrrInfo.Volumetric.setData (volumetric : urr.Volumetric) (value : UInt32)
    (flow : Flow) : (urr.setData value flow).Volumetric :=
  ⟨by simpa using volumetric.measures, by simpa using volumetric.triggers⟩

namespace UsageState

section

variable (s : UsageState)

@[simp] theorem setUrr_urrs_self (u : Nat) (urr : UrrInfo) :
    (s.setUrr u urr).urrs u = urr := by
  simp [setUrr]

theorem setUrr_urrs_of_ne {u v : Nat} (urr : UrrInfo) (ne : v ≠ u) :
    (s.setUrr u urr).urrs v = s.urrs v := by
  simp [setUrr, ne]

@[simp] theorem setUrr_reported (u v : Nat) (urr : UrrInfo) (flow : Flow) :
    (s.setUrr u urr).reported v flow = s.reported v flow := rfl

theorem reported_append (sent : SentReport) (u : Nat) (flow : Flow) :
    { s with sent := s.sent ++ [sent] }.reported u flow =
      s.reported u flow + if sent.urr = u then sent.report.volume flow else 0 := by
  by_cases own : sent.urr = u <;> simp [reported, own]

theorem sendUsageReportReq_of_ne {u v : Nat} (cpSeid upSeid : UInt64)
    (trig : MeasMethod) (now : UInt32) (ne : v ≠ u) :
    (s.sendUsageReportReq u cpSeid upSeid trig now).urrs v = s.urrs v ∧
      ∀ flow, (s.sendUsageReportReq u cpSeid upSeid trig now).reported v flow =
        s.reported v flow := by
  simp only [sendUsageReportReq]
  split
  · refine ⟨setUrr_urrs_of_ne s _ ne, fun flow => ?_⟩
    rw [reported_append, setUrr_reported, if_neg (Ne.symm ne), Nat.add_zero]
  · exact ⟨setUrr_urrs_of_ne s _ ne, fun flow => rfl⟩

theorem sendUsageReportReq_urr (u : Nat) (cpSeid upSeid : UInt64) (trig : MeasMethod) (now : UInt32) :
    (s.sendUsageReportReq u cpSeid upSeid trig now).urrs u =
      (fillSessRepReqUsageReport (s.urrs u) trig now).2 := by
  simp only [sendUsageReportReq]
  split <;> exact setUrr_urrs_self s u _

end

theorem sendUsageReportReq_reported {s : UsageState} {u : Nat} {upSeid : UInt64}
    (volumetric : (s.urrs u).Volumetric) (live : s.live upSeid) (cpSeid : UInt64)
    (trig : MeasMethod) (now : UInt32) (flow : Flow) :
    (s.sendUsageReportReq u cpSeid upSeid trig now).reported u flow =
      s.reported u flow + ((s.urrs u).data flow).toNat := by
  simp only [sendUsageReportReq]
  rw [if_pos (show (s.setUrr u _).live upSeid = true from live), reported_append,
    setUrr_reported, if_pos rfl]
  congr 1
  exact volumetric.volume _ now flow

end UsageState

theorem fillSessRepReqUsageReport_urr (volumetric : urr.Volumetric) (trig : MeasMethod) (now : UInt32) :
    (fillSessRepReqUsageReport urr trig now).2.Volumetric ∧
      ∀ flow, (fillSessRepReqUsageReport urr trig now).2.data flow =
        if urr.measMethod = .volBased then urr.data flow else 0 := by
  obtain ⟨measures, triggers⟩ := volumetric
  cases method : urr.measMethod with
  | timeBased => exact absurd method measures
  | volBased =>
    simp only [fillSessRepReqUsageReport, method, if_true]
    refine ⟨⟨?_, triggers⟩, fun flow => ?_⟩
    · simp [restart, method]
    · cases flow <;> rfl
  | volTimeBased =>
    simp only [fillSessRepReqUsageReport, method, reduceCtorEq, if_false]
    refine ⟨⟨?_, triggers⟩, fun flow => ?_⟩
    · simp [restart, method]
    · cases flow <;> rfl

/-- Reported volumes and counters of a URR add up to the given totals. -/
structure UsageState.Balanced (s : UsageState) (u : Nat) (total : Flow → Int) : Prop where
  volumetric : (s.urrs u).Volumetric
  sum : ∀ flow, (s.reported u flow : Int) + ((s.urrs u).data flow).toNat = total flow

theorem toNat_add_ofInt {a : UInt32} {k : Int} (lower : 0 ≤ a.toNat + k)
    (upper : a.toNat + k < 2 ^ 32) : ((a + UInt32.ofInt k).toNat : Int) = a.toNat + k := by
  rw [UInt32.toNat_add]
  have cast : (UInt32.ofInt k).toNat = (k % 2 ^ 32).toNat := by
    simp [UInt32.ofInt]
    omega
  omega

section

variable {Pkt : Type} (calculateUserDataLen : Pkt → Int)

/-- A packet of one of `u`'s PDRs must find `u` first in the PDR's list, must not wrap its counter
and, if it makes `u` report, must find a live session and, unless both counters are reset, nothing
in the other one. A timer that makes it report must find a live session. -/
def UsageState.Admits (u : Nat) (s : UsageState) : UsageStep Pkt → Prop
  | .packet _ _ _ none => True
  | .packet flow _ pkt (some pdr) =>
    u ∈ pdr.urr →
      pdr.urr.head? = some u ∧
        0 ≤ ((s.urrs u).data flow).toNat + calculateUserDataLen pkt ∧
        ((s.urrs u).data flow).toNat + calculateUserDataLen pkt < 2 ^ 32 ∧
        (((s.urrs u).volThes flow).toNat ≤
            ((s.urrs u).data flow).toNat + calculateUserDataLen pkt →
          s.live pdr.upSeid ∧
            ((s.urrs u).measMethod = .volBased → (s.urrs u).data flow.other = 0))
  | .timer v _ upSeid _ =>
    v = u → (s.urrs u).measMethod = .volTimeBased → s.live upSeid

def UsageStep.carried (u : Nat) (flow : Flow) : UsageStep Pkt → Int
  | .packet d _ pkt (some pdr) => if d = flow ∧ u ∈ pdr.urr then calculateUserDataLen pkt else 0
  | _ => 0

variable {calculateUserDataLen}

theorem UrrInfo.Volumetric.count {urr : UrrInfo} (volumetric : urr.Volumetric) (flow : Flow)
    (pkt : Pkt) (now : UInt32) : (urr.count calculateUserDataLen flow pkt now).Volumetric := by
  refine UrrInfo.Volumetric.setData ?_ _ _
  exact ⟨volumetric.measures, volumetric.triggers⟩

variable {s : UsageState} {u : Nat} {total : Flow → Int}

section

variable (balanced : s.Balanced u total) {flow : Flow}

include balanced

theorem UsageState.Balanced.report {upSeid : UInt64} (live : s.live upSeid)
    (unsplit : (s.urrs u).measMethod = .volBased → (s.urrs u).data flow.other = 0) (cpSeid : UInt64)
    (now : UInt32) :
    let t := s.sendUsageReportReq u cpSeid upSeid .volBased now
    (t.setUrr u ((t.urrs u).setData 0 flow)).Balanced u total := by
  intro t
  have reported := fun d =>
    UsageState.sendUsageReportReq_reported balanced.volumetric live cpSeid .volBased now d
  obtain ⟨volumetric, counters⟩ :=
    fillSessRepReqUsageReport_urr balanced.volumetric .volBased now
  have urr : t.urrs u = _ := s.sendUsageReportReq_urr u cpSeid upSeid .volBased now
  refine ⟨?_, fun d => ?_⟩
  · rw [setUrr_urrs_self, urr]
    exact volumetric.setData 0 flow
  · have before := balanced.sum d
    rw [setUrr_urrs_self, setUrr_reported, urr, reported d]
    rcases Flow.eq_or_eq_other flow d with rfl | rfl
    · rw [data_setData_self]
      simp only [UInt32.toNat_zero]
      omega
    · rw [data_setData_other, counters]
      split
      case isTrue method =>
        rw [unsplit method] at before ⊢
        simp only [UInt32.toNat_zero] at before ⊢
        omega
      case isFalse =>
        simp only [UInt32.toNat_zero]
        omega

theorem UsageState.Balanced.count {pkt : Pkt} (now : UInt32)
    (lower : 0 ≤ ((s.urrs u).data flow).toNat + calculateUserDataLen pkt)
    (upper : ((s.urrs u).data flow).toNat + calculateUserDataLen pkt < 2 ^ 32) :
    (s.setUrr u ((s.urrs u).count calculateUserDataLen flow pkt now)).Balanced u
      fun d => total d + if flow = d then calculateUserDataLen pkt else 0 := by
  refine ⟨?_, fun d => ?_⟩
  · rw [setUrr_urrs_self]
    exact balanced.volumetric.count flow pkt now
  · have before := balanced.sum d
    rw [setUrr_urrs_self, setUrr_reported, UrrInfo.count]
    rcases Flow.eq_or_eq_other flow d with rfl | rfl
    · have counted := toNat_add_ofInt lower upper
      rw [data_setData_self, if_pos rfl]
      omega
    · have ne : flow ≠ flow.other := by cases flow <;> simp [Flow.other]
      rw [data_setData_other, if_neg ne, Int.add_zero, ← before]
      cases flow <;> rfl

theorem UsageState.Balanced.packet
    {pkt : Pkt} {pdr : UsagePdr} {rest : List Nat} (now : UInt32)
    (first : pdr.urr = u :: rest) (lower : 0 ≤ ((s.urrs u).data flow).toNat + calculateUserDataLen pkt)
    (upper : ((s.urrs u).data flow).toNat + calculateUserDataLen pkt < 2 ^ 32)
    (reports : ((s.urrs u).volThes flow).toNat ≤
        ((s.urrs u).data flow).toNat + calculateUserDataLen pkt →
      s.live pdr.upSeid ∧
        ((s.urrs u).measMethod = .volBased → (s.urrs u).data flow.other = 0)) :
    (usagePacket calculateUserDataLen s flow now pkt (some pdr)).Balanced u
      fun d => total d + if flow = d then calculateUserDataLen pkt else 0 := by
  have counted := balanced.count now lower upper
  have value := toNat_add_ofInt lower upper
  simp only [usagePacket, first]
  split
  case isTrue triggered =>
    have reached : ((s.urrs u).volThes flow).toNat ≤
        ((s.urrs u).data flow).toNat + calculateUserDataLen pkt := by
      simp only [UrrInfo.reports, UrrInfo.count, data_setData_self, setData_volThes,
        Bool.and_eq_true, decide_eq_true_eq, UInt32.le_iff_toNat_le] at triggered
      have := triggered.2
      cases flow <;> simp only [volThes] at this ⊢ <;> omega
    obtain ⟨live, unsplit⟩ := reports reached
    apply counted.report live
    rw [setUrr_urrs_self, UrrInfo.count, data_setData_other, setData_measMethod]
    cases flow <;> exact unsplit
  case isFalse => exact counted

theorem UsageState.Balanced.of_same {t : UsageState} (urr : t.urrs u = s.urrs u)
    (reported : ∀ flow, t.reported u flow = s.reported u flow) : t.Balanced u total :=
  ⟨by rw [urr]; exact balanced.volumetric,
    fun flow => by rw [urr, reported]; exact balanced.sum flow⟩

theorem UsageState.Balanced.packet_of_notMem {pdr : UsagePdr} (flow : Flow) (now : UInt32) (pkt : Pkt)
    (unlisted : u ∉ pdr.urr) :
    (usagePacket calculateUserDataLen s flow now pkt (some pdr)).Balanced u total := by
  cases list : pdr.urr with
  | nil => simpa only [usagePacket, list] using balanced
  | cons v rest =>
    have ne : u ≠ v := by
      rintro rfl
      exact unlisted (by rw [list]; exact mem_cons_self)
    simp only [usagePacket, list]
    split
    · obtain ⟨urr, reported⟩ := sendUsageReportReq_of_ne
        (s.setUrr v ((s.urrs v).count calculateUserDataLen flow pkt now)) pdr.cpSeid pdr.upSeid
        .volBased now ne
      apply balanced.of_same
      · rw [setUrr_urrs_of_ne _ _ ne, urr, setUrr_urrs_of_ne _ _ ne]
      · exact reported
    · exact balanced.of_same (setUrr_urrs_of_ne _ _ ne) fun _ => rfl

theorem UsageState.Balanced.timer {v : Nat} {upSeid : UInt64} (cpSeid : UInt64) (now : UInt32)
    (live : v = u → (s.urrs u).measMethod = .volTimeBased → s.live upSeid) :
    (timerCallback s v cpSeid upSeid now).Balanced u total := by
  by_cases own : v = u
  · subst own
    unfold timerCallback
    have measures := balanced.volumetric.measures
    cases method : (s.urrs v).measMethod with
    | timeBased => exact absurd method measures
    | volBased => exact balanced
    | volTimeBased =>
      obtain ⟨volumetric, counters⟩ :=
        fillSessRepReqUsageReport_urr balanced.volumetric .timeBased now
      refine ⟨?_, fun flow => ?_⟩
      · rw [sendUsageReportReq_urr]
        exact volumetric
      · rw [sendUsageReportReq_urr, counters, method, if_neg (by decide),
          sendUsageReportReq_reported balanced.volumetric (live rfl method)]
        have before := balanced.sum flow
        simp only [UInt32.toNat_zero]
        omega
  · unfold timerCallback
    split
    · obtain ⟨urr, reported⟩ :=
        s.sendUsageReportReq_of_ne cpSeid upSeid .timeBased now (Ne.symm own)
      exact balanced.of_same urr reported
    · obtain ⟨urr, reported⟩ :=
        s.sendUsageReportReq_of_ne cpSeid upSeid .timeBased now (Ne.symm own)
      exact balanced.of_same urr reported
    · exact balanced

theorem UsageState.Balanced.step {step : UsageStep Pkt}
    (admitted : s.Admits calculateUserDataLen u step) :
    (step.apply calculateUserDataLen s).Balanced u
      fun flow => total flow + step.carried calculateUserDataLen u flow := by
  cases step with
  | timer v cpSeid upSeid now =>
    simpa [UsageStep.apply, UsageStep.carried] using balanced.timer cpSeid now admitted
  | packet flow now pkt pdr =>
    cases pdr with
    | none => simpa [UsageStep.apply, UsageStep.carried, usagePacket] using balanced
    | some pdr =>
      by_cases listed : u ∈ pdr.urr
      · obtain ⟨head, lower, upper, reports⟩ := admitted listed
        obtain ⟨rest, first⟩ := head?_eq_some_iff.mp head
        simpa [UsageStep.apply, UsageStep.carried, listed]
          using balanced.packet now first lower upper reports
      · simpa [UsageStep.apply, UsageStep.carried, listed]
          using balanced.packet_of_notMem flow now pkt listed

end

variable (calculateUserDataLen)

def carried (u : Nat) (flow : Flow) (steps : List (UsageStep Pkt)) : Int :=
  (steps.map (UsageStep.carried calculateUserDataLen u flow)).sum

variable {calculateUserDataLen}

theorem UsageState.Balanced.run {steps : List (UsageStep Pkt)} (balanced : s.Balanced u total)
    (guarded : Guarded (UsageStep.apply calculateUserDataLen)
      (UsageState.Admits calculateUserDataLen u) s steps) :
    (run (UsageStep.apply calculateUserDataLen) s steps).Balanced u
      fun flow => total flow + carried calculateUserDataLen u flow steps := by
  induction steps generalizing s total with
  | nil => simpa [carried] using balanced
  | cons step steps ih =>
    simpa [carried, Int.add_assoc] using ih (balanced.step guarded.1) guarded.2

theorem UsageState.Balanced.deletionReport
    (balanced : s.Balanced u total) (cpSeid : UInt64) (now : UInt32) (flow : Flow) :
    ((deletionReport s u cpSeid now).reported u flow : Int) = total flow := by
  have sum := balanced.sum flow
  have volume := balanced.volumetric.volume .termr now flow
  have reported : (Up.deletionReport s u cpSeid now).reported u flow =
      s.reported u flow + ((s.urrs u).usageReport .termr now).volume flow := by
    simp only [Up.deletionReport, fillSessDelUsageReport]
    exact (reported_append (s.setUrr u _) _ u flow).trans (by rw [if_pos rfl]; rfl)
  omega

/-- From empty counters, in every run of admitted steps the volumes reported and the counter of a
direction add up to the bytes of its packets in every state, and with a deletion report the reported
volumes alone do. -/
theorem usage_conserved (calculateUserDataLen : Pkt → Int) (s : UsageState) (u : Nat)
    (volumetric : (s.urrs u).Volumetric) (empty : ∀ flow, (s.urrs u).data flow = 0)
    (unsent : s.sent = []) (calls reached : List (UsageCall Pkt))
    (guarded : Guarded (UsageStep.apply calculateUserDataLen)
      (UsageState.Admits calculateUserDataLen u) s (calls.flatMap UsageCall.steps))
    (isPrefix : reached <+: calls) (flow : Flow) (cpSeid : UInt64) (now : UInt32) :
    let t := run (UsageCall.apply calculateUserDataLen) s reached
    let bytes := carried calculateUserDataLen u flow (reached.flatMap UsageCall.steps)
    (t.reported u flow : Int) + ((t.urrs u).data flow).toNat = bytes ∧
      ((deletionReport t u cpSeid now).reported u flow : Int) = bytes := by
  intro t bytes
  have start : s.Balanced u fun _ => 0 :=
    ⟨volumetric, fun flow => by simp [UsageState.reported, unsent, empty]⟩
  have steps : reached.flatMap UsageCall.steps <+: calls.flatMap UsageCall.steps := by
    obtain ⟨rest, rfl⟩ := isPrefix
    rw [flatMap_append]
    exact prefix_append _ _
  have balanced := start.run (guarded.of_prefix steps)
  rw [← runCalls_eq_run] at balanced
  simp only [Int.zero_add] at balanced
  exact ⟨balanced.sum flow, balanced.deletionReport cpSeid now flow⟩

end

instance {Pkt : Type} (calculateUserDataLen : Pkt → Int) (u : Nat) (s : UsageState)
    (step : UsageStep Pkt) : Decidable (s.Admits calculateUserDataLen u step) :=
  match step with
  | .packet _ _ _ none => isTrue trivial
  | .packet _ _ _ (some _) => inferInstanceAs (Decidable (_ → _))
  | .timer _ _ _ _ => inferInstanceAs (Decidable (_ → _))

def freshUrr (measMethod : MeasMethod) : UrrInfo where
  urrId := 1
  urrSeqNum := 0
  measMethod := measMethod
  reptTrigg := .volBased
  volThesUplnk := 10
  volThesDwnlnk := 10
  uplnkData := 0
  dwnlnkData := 0
  startTime := 0
  firstPktTime := 0
  lastPktTime := 0

def freshUsage (measMethod : MeasMethod) : UsageState where
  urrs := fun _ => freshUrr measMethod
  sent := []
  live := fun upSeid => upSeid == 7

def onePacket (flow : Flow) (length : Nat) : UsageCall Nat :=
  .burst 1#64 flow 100 [(length, some { urr := [0], cpSeid := 3, upSeid := 7 })]

def mixedTraffic : List (UsageCall Nat) :=
  [onePacket .uplink 6, onePacket .downlink 10, onePacket .uplink 6, .timer 0 3 7 101]

theorem usage_conserved_mixedTraffic :
    let t := run (UsageCall.apply Int.ofNat) (freshUsage .volTimeBased) mixedTraffic
    (t.reported 0 .uplink : Int) + ((t.urrs 0).data .uplink).toNat = 12 ∧
      ((deletionReport t 0 3 102).reported 0 .uplink : Int) = 12 :=
  usage_conserved Int.ofNat (freshUsage .volTimeBased) 0 ⟨by decide, by decide⟩
    (fun flow => by cases flow <;> rfl) rfl mixedTraffic mixedTraffic (by decide +kernel)
    prefix_rfl .uplink 3 102

/-- Without a time measurement the downlink's report carries six uplink bytes and leaves them in the
counter: of twelve eighteen are reported. -/
theorem usage_reported_twice :
    let t := run (UsageCall.apply Int.ofNat) (freshUsage .volBased)
      [onePacket .uplink 6, onePacket .downlink 10, onePacket .uplink 6]
    let bytes := carried Int.ofNat 0 .uplink
      ([onePacket .uplink 6, onePacket .downlink 10, onePacket .uplink 6].flatMap UsageCall.steps)
    bytes = 12 ∧ (t.reported 0 .uplink : Int) + ((t.urrs 0).data .uplink).toNat = 18 := by
  decide +kernel

end Epc.Up
