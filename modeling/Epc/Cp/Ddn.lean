import Epc.Lib.Run
import Epc.Cp.Seid
import Epc.Node

/-! Downlink data notifications: `ddn_by_session_id`, `create_downlink_data_notification` and the head of
`process_ddn_ack` (`cp/gtpv2c_messages/downlink_data_notification.c`). A step the C code could only take
through an invalid pointer has no result. When the notifications are paired with the acknowledgements in
runs for the sessions of one UE. -/

namespace Epc.Cp

open Epc.Lib

def maxListSize : Nat := 16

def gtpv2cCauseContextNotFound : Int := 64

structure PdrIds where
  pdrCount : UInt8 := 0
  pdrId : List UInt16 := List.replicate maxListSize 0
  ddnBufferedCount : UInt8 := 0
  deriving DecidableEq, Repr

/-- A bearer, with the rule id of `pdrs[1]`. -/
structure DdnBearer where
  epsBearerId : UInt8
  ruleId : Option UInt16
  deriving DecidableEq, Repr

structure DdnPdn where
  seid : UInt64
  defaultBearerId : UInt8
  epsBearers : Table Nat DdnBearer

/-- A UE context: its MME, PDN connections, and bearers with the PDN connection of each. -/
structure DdnContext where
  s11MmeGtpcIp : NodeAddress
  pdns : Table Nat DdnPdn
  epsBearers : Table Nat (DdnBearer × DdnPdn)

structure DdnMessage where
  sessionId : UInt64
  epsBearerId : Option UInt8
  deriving DecidableEq, Repr

/-- `buffered_ddn_req_hash` and the messages that were sent. -/
structure DdnState where
  bufferedDdnReq : Table UInt64 PdrIds
  sent : List DdnMessage

def DdnPdn.bearers (pdn : DdnPdn) : List DdnBearer :=
  (List.range maxBearers).filterMap pdn.epsBearers

/-- The loop over the PDN's bearers: those of the record's PDRs, counted down; the last one found is
in the message. -/
def matchBearers : List DdnBearer → Nat → Option UInt8 → PdrIds → Option (Option UInt8 × PdrIds)
  | [], _, ebi, pdr => some (ebi, pdr)
  | bearer :: rest, j, ebi, pdr =>
    match bearer.ruleId with
    | none => none
    | some ruleId =>
      if ruleId = pdr.pdrId.getD j 0 then
        matchBearers rest (j + 1) (some bearer.epsBearerId) { pdr with pdrCount := pdr.pdrCount - 1 }
      else matchBearers rest j ebi pdr

/-- The bearer of the message, and the record as it is left. -/
def createDownlinkDataNotification (context : DdnContext) (epsBearerId : UInt64) (pdr : Option PdrIds) :
    Option (Except Int (Option UInt8 × Option PdrIds)) :=
  match getEbiIndex epsBearerId.toNat with
  | none => some (.error (-1))
  | some ebiIndex =>
    match context.epsBearers ebiIndex with
    | none => some (.error gtpv2cCauseContextNotFound)
    | some (bearer, pdn) =>
      match pdr with
      | none => some (.ok (some bearer.epsBearerId, none))
      | some pdr => (matchBearers pdn.bearers 0 none pdr).map fun found => .ok (found.1, some found.2)

section

variable (ueContextByFteid : Table UInt32 DdnContext)

/-- `ddn_by_session_id` and its result; memory and room in the hash are there. -/
def ddnBySessionId (sessionId : UInt64) (pdr : Option PdrIds) (s : DdnState) :
    Option (Int × DdnState) :=
  match s.bufferedDdnReq sessionId with
  | some entry =>
    some (0, { s with
      bufferedDdnReq := s.bufferedDdnReq.add sessionId
        { entry with ddnBufferedCount := entry.ddnBufferedCount + 1 } })
  | none =>
    match ueContextByFteid (ueSessId sessionId).toUInt32 with
    | none => some (gtpv2cCauseContextNotFound, s)
    | some context =>
      (createDownlinkDataNotification context (ueBearId sessionId) pdr).map fun
        | .error cause => (cause, s)
        | .ok (epsBearerId, pdr) =>
          -- the entry is a copy of the record, or all zero
          (0, { bufferedDdnReq := s.bufferedDdnReq.add sessionId (pdr.getD {})
                sent := s.sent ++ [⟨sessionId, epsBearerId⟩] })

def DdnContext.firstPdn (context : DdnContext) : Option DdnPdn :=
  (List.range maxBearers).findSome? context.pdns

/-- `process_ddn_ack` up to the timers: it takes out the entry of the UE's first PDN connection. -/
def processDdnAck (teid : UInt32) (s : DdnState) : Option DdnState :=
  match ueContextByFteid teid with
  | none => some s
  | some context =>
    match context.firstPdn with
    | none => none
    | some pdn =>
      match getEbiIndex pdn.defaultBearerId.toNat, s.bufferedDdnReq pdn.seid with
      | none, _ => some s
      | some _, none => some s
      | some _, some entry =>
        let s := { s with bufferedDdnReq := s.bufferedDdnReq.del pdn.seid }
        if 0 < entry.ddnBufferedCount then
          (ddnBySessionId ueContextByFteid pdn.seid
            (some { entry with ddnBufferedCount := entry.ddnBufferedCount - 1 }) s).map (·.2)
        else some s

end

open Epc.Lib.Run List Option Table

inductive DdnOp where
  | request (sessionId : UInt64) (pdr : Option PdrIds)
  | ack (sessionId : UInt64)
  deriving DecidableEq, Repr

structure DdnHistory where
  state : DdnState
  requests : List UInt64
  acked : List UInt64

namespace DdnHistory

def sentFor (h : DdnHistory) (sessionId : UInt64) : Nat :=
  (h.state.sent.map DdnMessage.sessionId).count sessionId

def bufferedFor (h : DdnHistory) (sessionId : UInt64) : Nat :=
  (h.state.bufferedDdnReq sessionId).elim 0 fun entry => entry.ddnBufferedCount.toNat

/-- The notifications of a session are paired with the acknowledgements. -/
structure Paired (h : DdnHistory) (sessionId : UInt64) : Prop where
  atMostOne : h.sentFor sessionId = h.acked.count sessionId ∨
    h.sentFor sessionId = h.acked.count sessionId + 1
  outstanding : h.sentFor sessionId = h.acked.count sessionId + 1 ↔
    (h.state.bufferedDdnReq sessionId).isSome
  requested : h.requests.count sessionId = h.sentFor sessionId + h.bufferedFor sessionId

end DdnHistory

section

variable (ueContextByFteid : Table UInt32 DdnContext) (teid : UInt32)

def DdnOp.exec (h : DdnHistory) : DdnOp → Option DdnHistory
  | .request sessionId pdr =>
    (ddnBySessionId ueContextByFteid sessionId pdr h.state).map fun result =>
      { h with state := result.2, requests := h.requests ++ [sessionId] }
  | .ack sessionId =>
    (processDdnAck ueContextByFteid teid h.state).map fun state =>
      { h with state, acked := h.acked ++ [sessionId] }

def DdnOp.step (h : DdnHistory) (op : DdnOp) : DdnHistory :=
  (op.exec ueContextByFteid teid h).getD h

def OfUe (sessionId : UInt64) : Prop :=
  ∃ context, ueContextByFteid teid = some context ∧
    ∃ i < maxBearers, (context.pdns i).map DdnPdn.seid = some sessionId

/-- A request is for a session of the UE, without a record or with one that has nothing buffered,
answered with 0, and short of 256 waiting; an acknowledgement answers an outstanding notification.
-/
def DdnOp.Possible (h : DdnHistory) : DdnOp → Prop
  | .request sessionId pdr =>
    OfUe ueContextByFteid teid sessionId ∧
      (∀ record ∈ pdr, record.ddnBufferedCount = 0) ∧
      (ddnBySessionId ueContextByFteid sessionId pdr h.state).map (·.1) = some 0 ∧
      h.bufferedFor sessionId < 255
  | .ack sessionId =>
    OfUe ueContextByFteid teid sessionId ∧ h.acked.count sessionId < h.sentFor sessionId

/-- A notification with a record can be made: the bearer is there, and every bearer of the PDN
connection has the second PDR. -/
def Notifiable (sessionId : UInt64) : Prop :=
  ∃ context, ueContextByFteid (ueSessId sessionId).toUInt32 = some context ∧
    ∃ ebiIndex, getEbiIndex (ueBearId sessionId).toNat = some ebiIndex ∧
      ∃ found, context.epsBearers ebiIndex = some found ∧
        ∀ bearer ∈ found.2.bearers, bearer.ruleId.isSome

/-- The acknowledged notification is that of the first PDN connection, and a waiting request can be
sent. -/
def DdnOp.Ok (h : DdnHistory) : DdnOp → Prop
  | .request _ _ => True
  | .ack sessionId =>
    (∃ context, ueContextByFteid teid = some context ∧
      ∃ pdn, context.firstPdn = some pdn ∧ pdn.seid = sessionId ∧
        (getEbiIndex pdn.defaultBearerId.toNat).isSome) ∧
      (0 < h.bufferedFor sessionId → Notifiable ueContextByFteid sessionId)

end

section

variable {ueContextByFteid : Table UInt32 DdnContext} {teid : UInt32}

theorem matchBearers_isSome (bearers : List DdnBearer) (j : Nat) (ebi : Option UInt8) (pdr : PdrIds)
    (present : ∀ bearer ∈ bearers, bearer.ruleId.isSome) :
    ∃ found, matchBearers bearers j ebi pdr = some found := by
  induction bearers generalizing j ebi pdr with
  | nil => exact ⟨(ebi, pdr), rfl⟩
  | cons bearer rest ih =>
    rw [forall_mem_cons] at present
    obtain ⟨ruleId, rule⟩ := isSome_iff_exists.mp present.1
    rw [matchBearers, rule]
    dsimp only
    split
    · exact ih (j + 1) (some bearer.epsBearerId) { pdr with pdrCount := pdr.pdrCount - 1 } present.2
    · exact ih j ebi pdr present.2

theorem ddnBufferedCount_matchBearers {bearers : List DdnBearer} {j : Nat} {ebi : Option UInt8}
    {pdr : PdrIds} {found : Option UInt8 × PdrIds} (done : matchBearers bearers j ebi pdr = some found) :
    found.2.ddnBufferedCount = pdr.ddnBufferedCount := by
  induction bearers generalizing j ebi pdr with
  | nil =>
    cases done
    rfl
  | cons bearer rest ih =>
    rw [matchBearers] at done
    split at done
    · cases done
    · split at done
      · have kept := ih done
        exact kept
      · exact ih done

theorem createDownlinkDataNotification_made {context : DdnContext} {epsBearerId : UInt64}
    {pdr : Option PdrIds} {made : Except Int (Option UInt8 × Option PdrIds)}
    (created : createDownlinkDataNotification context epsBearerId pdr = some made) :
    match made with
    | .error cause => cause ≠ 0
    | .ok (_, pdr') => (pdr'.getD {}).ddnBufferedCount = (pdr.getD {}).ddnBufferedCount := by
  rw [createDownlinkDataNotification] at created
  split at created
  · cases created
    show (-1 : Int) ≠ 0
    decide
  · split at created
    · cases created
      show gtpv2cCauseContextNotFound ≠ 0
      decide
    · split at created
      · cases created
        rfl
      · obtain ⟨found, done, rfl⟩ := map_eq_some_iff.mp created
        exact ddnBufferedCount_matchBearers done

theorem ddnBySessionId_zero {sessionId : UInt64} {pdr : Option PdrIds} {s s' : DdnState}
    (done : ddnBySessionId ueContextByFteid sessionId pdr s = some (0, s')) :
    (∃ entry, s.bufferedDdnReq sessionId = some entry ∧ s' = { s with
      bufferedDdnReq := s.bufferedDdnReq.add sessionId
        { entry with ddnBufferedCount := entry.ddnBufferedCount + 1 } }) ∨
    (s.bufferedDdnReq sessionId = none ∧ ∃ ebi record,
      record.ddnBufferedCount = (pdr.getD {}).ddnBufferedCount ∧
      s' = { bufferedDdnReq := s.bufferedDdnReq.add sessionId record
             sent := s.sent ++ [⟨sessionId, ebi⟩] }) := by
  rw [ddnBySessionId] at done
  split at done
  · rename_i entry present
    cases done
    exact .inl ⟨entry, present, rfl⟩
  · rename_i absent
    refine .inr ⟨absent, ?_⟩
    split at done
    · cases done
    · rename_i context _
      obtain ⟨made, created, same⟩ := map_eq_some_iff.mp done
      cases made with
      | error cause =>
        exact absurd (congrArg Prod.fst same) (createDownlinkDataNotification_made created)
      | ok made =>
        obtain ⟨ebi, record⟩ := made
        exact ⟨ebi, record.getD {}, createDownlinkDataNotification_made created,
          (congrArg Prod.snd same).symm⟩

theorem ddnBySessionId_sends {sessionId : UInt64} (pdr : PdrIds) {s : DdnState}
    (notifiable : Notifiable ueContextByFteid sessionId) (absent : s.bufferedDdnReq sessionId = none) :
    ∃ s', ddnBySessionId ueContextByFteid sessionId (some pdr) s = some (0, s') := by
  obtain ⟨context, found, ebiIndex, valid, ⟨bearer, pdn⟩, present, second⟩ := notifiable
  obtain ⟨matched, done⟩ := matchBearers_isSome pdn.bearers 0 none pdr second
  simp [ddnBySessionId, absent, found, createDownlinkDataNotification, valid, present, done]

end

section

variable {ueContextByFteid : Table UInt32 DdnContext} {teid : UInt32} {h : DdnHistory}

namespace DdnHistory

theorem paired_iff (sessionId : UInt64) :
    h.Paired sessionId ↔
      h.sentFor sessionId =
        h.acked.count sessionId + (h.state.bufferedDdnReq sessionId).isSome.toNat ∧
      h.requests.count sessionId = h.sentFor sessionId + h.bufferedFor sessionId := by
  constructor
  · rintro ⟨atMostOne, outstanding, requested⟩
    refine ⟨?_, requested⟩
    cases present : (h.state.bufferedDdnReq sessionId).isSome with
    | true => exact outstanding.mpr present
    | false =>
      refine atMostOne.resolve_right fun more => ?_
      rw [outstanding.mp more] at present
      cases present
  · rintro ⟨sent, requested⟩
    cases present : (h.state.bufferedDdnReq sessionId).isSome with
    | true =>
      rw [present, Bool.toNat_true] at sent
      exact ⟨.inr sent, ⟨fun _ => present, fun _ => sent⟩, requested⟩
    | false =>
      rw [present, Bool.toNat_false, Nat.add_zero] at sent
      refine ⟨.inl sent, ⟨fun more => ?_, fun some => ?_⟩, requested⟩
      · omega
      · rw [present] at some
        cases some

theorem count_append_singleton (l : List UInt64) (a b : UInt64) :
    (l ++ [a]).count b = l.count b + (decide (b = a)).toNat := by
  by_cases same : b = a
  · simp [same]
  · simp [same, Ne.symm same]

end DdnHistory

open DdnHistory

section

variable (paired : ∀ session, h.Paired session)

include paired

theorem paired_request {sessionId : UInt64} {pdr : Option PdrIds} {s' : DdnState}
    (empty : ∀ record ∈ pdr, record.ddnBufferedCount = 0) (room : h.bufferedFor sessionId < 255)
    (done : ddnBySessionId ueContextByFteid sessionId pdr h.state = some (0, s')) (session : UInt64) :
    DdnHistory.Paired { h with state := s', requests := h.requests ++ [sessionId] } session := by
  have before := (paired_iff session).mp (paired session)
  rw [paired_iff]
  simp only [sentFor, bufferedFor] at before room ⊢
  rw [count_append_singleton]
  obtain ⟨entry, present, rfl⟩ | ⟨absent, ebi, record, fresh, rfl⟩ := ddnBySessionId_zero done
  · by_cases same : session = sessionId
    · subst same
      rw [present] at before room
      simp only [add_self, isSome_some, elim_some, decide_true, Bool.toNat_true]
        at before room ⊢
      rw [UInt8.toNat_add, UInt8.toNat_one]
      omega
    · dsimp only
      rw [add_of_ne same]
      simpa [same] using before
  · have zero : record.ddnBufferedCount = 0 := by
      rw [fresh]
      cases pdr with
      | none => rfl
      | some record => exact empty record rfl
    simp only [map_append, map_singleton, count_append_singleton]
    by_cases same : session = sessionId
    · subst same
      rw [absent] at before
      simp only [add_self, isSome_some, isSome_none, elim_some,
        elim_none, decide_true, Bool.toNat_true, Bool.toNat_false, zero] at before ⊢
      simp only [UInt8.toNat_zero]
      omega
    · rw [add_of_ne same]
      simpa [same] using before

theorem paired_ack {context : DdnContext} {pdn : DdnPdn} (found : ueContextByFteid teid = some context)
    (first : context.firstPdn = some pdn) (valid : (getEbiIndex pdn.defaultBearerId.toNat).isSome)
    (outstanding : h.acked.count pdn.seid < h.sentFor pdn.seid)
    (notifiable : 0 < h.bufferedFor pdn.seid → Notifiable ueContextByFteid pdn.seid) :
    ∃ s', processDdnAck ueContextByFteid teid h.state = some s' ∧
      ∀ session, DdnHistory.Paired { h with state := s', acked := h.acked ++ [pdn.seid] } session := by
  obtain ⟨ebiIndex, index⟩ := isSome_iff_exists.mp valid
  have own := (paired pdn.seid).outstanding.mp (by
    have atMostOne := (paired pdn.seid).atMostOne
    omega)
  obtain ⟨entry, present⟩ := isSome_iff_exists.mp own
  have waiting : h.bufferedFor pdn.seid = entry.ddnBufferedCount.toNat := by
    rw [bufferedFor, present]
    rfl
  have head : processDdnAck ueContextByFteid teid h.state =
      if 0 < entry.ddnBufferedCount then
        (ddnBySessionId ueContextByFteid pdn.seid
          (some { entry with ddnBufferedCount := entry.ddnBufferedCount - 1 })
          { h.state with bufferedDdnReq := h.state.bufferedDdnReq.del pdn.seid }).map (·.2)
      else some { h.state with bufferedDdnReq := h.state.bufferedDdnReq.del pdn.seid } := by
    simp only [processDdnAck, found, first, index, present]
  rw [head]
  have numbers := fun session => (paired_iff session).mp (paired session)
  simp only [sentFor, bufferedFor] at numbers
  by_cases more : 0 < entry.ddnBufferedCount
  · have pos : 0 < entry.ddnBufferedCount.toNat := UInt8.lt_iff_toNat_lt.mp more
    obtain ⟨s', done⟩ := ddnBySessionId_sends
      (s := { h.state with bufferedDdnReq := h.state.bufferedDdnReq.del pdn.seid })
      { entry with ddnBufferedCount := entry.ddnBufferedCount - 1 } (notifiable (waiting ▸ pos))
      (del_self h.state.bufferedDdnReq pdn.seid)
    rw [if_pos more, done]
    refine ⟨s', rfl, fun session => ?_⟩
    obtain ⟨other, wrong, -⟩ | ⟨-, ebi, record, kept, rfl⟩ := ddnBySessionId_zero done
    · dsimp only at wrong
      rw [del_self] at wrong
      cases wrong
    · have before := numbers session
      rw [paired_iff]
      simp only [sentFor, bufferedFor, map_append, map_singleton, count_append_singleton]
      by_cases same : session = pdn.seid
      · subst same
        rw [present] at before
        have less : record.ddnBufferedCount.toNat = entry.ddnBufferedCount.toNat - 1 := by
          rw [kept]
          exact UInt8.toNat_sub_of_le _ _ (UInt8.le_iff_toNat_le.mpr pos)
        simp only [add_self, isSome_some, elim_some, decide_true, Bool.toNat_true, less] at before ⊢
        omega
      · rw [add_of_ne same, del_of_ne same]
        simpa [same] using before
  · rw [if_neg more]
    refine ⟨_, rfl, fun session => ?_⟩
    have before := numbers session
    rw [paired_iff]
    simp only [sentFor, bufferedFor, count_append_singleton]
    by_cases same : session = pdn.seid
    · subst same
      rw [present] at before
      have nothing : entry.ddnBufferedCount.toNat = 0 := by
        rw [UInt8.lt_iff_toNat_lt, UInt8.toNat_zero] at more
        omega
      simp only [del_self, isSome_some, isSome_none, elim_some,
        elim_none, decide_true, Bool.toNat_true, Bool.toNat_false, nothing] at before ⊢
      omega
    · rw [del_of_ne same]
      simpa [same] using before

theorem DdnOp.exec_paired {op : DdnOp}
    (possible : op.Possible ueContextByFteid teid h) (ok : op.Ok ueContextByFteid teid h) :
    ∃ h', op.exec ueContextByFteid teid h = some h' ∧ ∀ session, h'.Paired session := by
  cases op with
  | request sessionId pdr =>
    obtain ⟨-, empty, returned, room⟩ := possible
    obtain ⟨⟨value, s'⟩, done, zero⟩ := map_eq_some_iff.mp returned
    obtain rfl : value = 0 := zero
    refine ⟨_, ?_, paired_request paired empty room done⟩
    rw [DdnOp.exec, done, map_some]
  | ack sessionId =>
    obtain ⟨⟨context, found, pdn, first, rfl, valid⟩, notifiable⟩ := ok
    obtain ⟨s', done, paired'⟩ := paired_ack paired found first valid possible.2 notifiable
    refine ⟨_, ?_, paired'⟩
    rw [DdnOp.exec, done, map_some]

end

end

def DdnHistory.start : DdnHistory where
  state := { bufferedDdnReq := Table.empty, sent := [] }
  requests := []
  acked := []

theorem paired_start (session : UInt64) : DdnHistory.start.Paired session := by
  rw [DdnHistory.paired_iff]
  exact ⟨rfl, rfl⟩

/-- In a run in which the acknowledged notifications are those of the first PDN connection, every
step leaves the notifications of every session paired with its acknowledgements. -/
theorem ddnRun_paired (ueContextByFteid : Table UInt32 DdnContext) (teid : UInt32) (ops : List DdnOp)
    (guarded : Guarded (DdnOp.step ueContextByFteid teid)
      (fun h op => op.Possible ueContextByFteid teid h ∧ op.Ok ueContextByFteid teid h) .start ops)
    (before : List DdnOp) (op : DdnOp) (isPrefix : before ++ [op] <+: ops) :
    ∃ h', op.exec ueContextByFteid teid (run (DdnOp.step ueContextByFteid teid) .start before) = some h' ∧
      ∀ session, h'.Paired session := by
  exact guarded.exec_at isPrefix (DdnOp.exec ueContextByFteid teid) (fun h => ∀ session, h.Paired session)
    paired_start (fun _ _ => rfl) fun _ _ paired ok => DdnOp.exec_paired paired ok.1 ok.2

def defaultBearer (ebi : UInt8) : DdnBearer where
  epsBearerId := ebi
  ruleId := some ebi.toUInt16

def defaultPdn (ebi : UInt8) : DdnPdn where
  seid := sessId 1 1 ebi
  defaultBearerId := ebi
  epsBearers := fun i => if i + 1 = ebi.toNat then some (defaultBearer ebi) else none

def twoPdns : DdnContext where
  s11MmeGtpcIp := .v4 1
  pdns := fun i => if i = 0 then some (defaultPdn 5) else if i = 1 then some (defaultPdn 6) else none
  epsBearers := fun i =>
    if i = 4 then some (defaultBearer 5, defaultPdn 5)
    else if i = 5 then some (defaultBearer 6, defaultPdn 6)
    else none

def twoPdnsByTeid (teid : UInt32) : Option DdnContext :=
  if teid = 1 then some twoPdns else none

theorem ofUe_first : OfUe twoPdnsByTeid 1 (sessId 1 1 5) := ⟨twoPdns, rfl, 0, by decide, rfl⟩

theorem ofUe_second : OfUe twoPdnsByTeid 1 (sessId 1 1 6) := ⟨twoPdns, rfl, 1, by decide, rfl⟩

theorem notifiable_first : Notifiable twoPdnsByTeid (sessId 1 1 5) := by
  have teid : (ueSessId (sessId 1 1 5)).toUInt32 = 1 := by decide
  exact ⟨twoPdns, by rw [teid]; rfl, 4, by decide, (defaultBearer 5, defaultPdn 5), rfl, by decide⟩

def firstRun : List DdnOp :=
  [.request (sessId 1 1 5) none, .request (sessId 1 1 5) (some { pdrCount := 1 }),
    .request (sessId 1 1 6) none, .ack (sessId 1 1 5), .ack (sessId 1 1 5)]

theorem ddnRun_paired_firstRun :
    Guarded (DdnOp.step twoPdnsByTeid 1)
        (fun h op => op.Possible twoPdnsByTeid 1 h ∧ op.Ok twoPdnsByTeid 1 h) .start firstRun ∧
      ∃ h', (DdnOp.ack (sessId 1 1 5)).exec twoPdnsByTeid 1
          (run (DdnOp.step twoPdnsByTeid 1) .start (firstRun.take 4)) = some h' ∧
        ∀ session, h'.Paired session := by
  have first : ∃ context, twoPdnsByTeid 1 = some context ∧
      ∃ pdn, context.firstPdn = some pdn ∧ pdn.seid = sessId 1 1 5 ∧
        (getEbiIndex pdn.defaultBearerId.toNat).isSome :=
    ⟨twoPdns, rfl, defaultPdn 5, rfl, rfl, by decide⟩
  have guarded : Guarded (DdnOp.step twoPdnsByTeid 1)
      (fun h op => op.Possible twoPdnsByTeid 1 h ∧ op.Ok twoPdnsByTeid 1 h) .start firstRun := by
    refine ⟨⟨⟨ofUe_first, by decide, by decide +kernel, by decide +kernel⟩, trivial⟩,
      ⟨⟨ofUe_first, by decide, by decide +kernel, by decide +kernel⟩, trivial⟩,
      ⟨⟨ofUe_second, by decide, by decide +kernel, by decide +kernel⟩, trivial⟩,
      ⟨⟨ofUe_first, by decide +kernel⟩, first, fun _ => notifiable_first⟩,
      ⟨⟨ofUe_first, by decide +kernel⟩, first, fun _ => notifiable_first⟩, trivial⟩
  exact ⟨guarded, ddnRun_paired twoPdnsByTeid 1 firstRun guarded (firstRun.take 4)
    (.ack (sessId 1 1 5)) prefix_rfl⟩

def secondRun : List DdnOp :=
  [.request (sessId 1 1 6) none, .ack (sessId 1 1 6)]

/-- The entry of the second session stays, with nothing outstanding. -/
theorem secondRun_not_paired :
    Guarded (DdnOp.step twoPdnsByTeid 1) (fun h op => op.Possible twoPdnsByTeid 1 h) .start secondRun ∧
      ¬(run (DdnOp.step twoPdnsByTeid 1) .start secondRun).Paired (sessId 1 1 6) := by
  refine ⟨⟨⟨ofUe_second, by decide, by decide +kernel, by decide +kernel⟩,
    ⟨ofUe_second, by decide +kernel⟩, trivial⟩, fun paired => ?_⟩
  have entry : ((run (DdnOp.step twoPdnsByTeid 1) .start secondRun).state.bufferedDdnReq
      (sessId 1 1 6)).isSome = true := by decide +kernel
  have more := paired.outstanding.mpr entry
  revert more
  decide +kernel

end Epc.Cp
