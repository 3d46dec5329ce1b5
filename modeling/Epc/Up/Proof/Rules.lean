import Epc.Lib.Lists
import Epc.Up.Proof.RuleTable

/-! When the PDRs of an establishment request end up linked with the FARs, QERs and URRs that they
name. -/

namespace Epc.Up

open Epc.Lib List Option Heap RuleTable

def CreatePdr.HasSession (pdr : CreatePdr) : Prop :=
  pdr.teid ≠ 0 ∨ ∃ ue, pdr.ueIpAddress = some ue ∧ (ue.v4 = true ∨ ue.v6 = true)

structure SameRules (s s' : RuleState) : Prop where
  pdrs : s'.pdrs = s.pdrs
  fars : s'.fars = s.fars
  qers : s'.qers = s.qers
  urrs : s'.urrs = s.urrs
  predefQos : s'.predefQos = s.predefQos
  teids : s'.teids = s.teids

section

theorem getSessByTeidEntry_same (s : RuleState) (teid : UInt32) :
    SameRules s (getSessByTeidEntry s teid).2 := by
  unfold getSessByTeidEntry
  split <;> exact ⟨rfl, rfl, rfl, rfl, rfl, rfl⟩

theorem getSessByUeipEntry_same (s : RuleState) (ueIp : UeIp) :
    SameRules s (getSessByUeipEntry s ueIp).2 := by
  unfold getSessByUeipEntry
  split <;> exact ⟨rfl, rfl, rfl, rfl, rfl, rfl⟩

theorem getPfcpSessionData_same (pdr : CreatePdr) (s : RuleState) :
    SameRules s (getPfcpSessionData pdr s).2 := by
  unfold getPfcpSessionData
  split
  · exact getSessByTeidEntry_same s pdr.teid
  · split
    · exact ⟨rfl, rfl, rfl, rfl, rfl, rfl⟩
    · next ue _ =>
        have v4 := getSessByUeipEntry_same s ⟨ue.ipv4Address, NodeAddress.zeroIpv6⟩
        split
        · exact v4
        · exact ⟨v4.pdrs, v4.fars, v4.qers, v4.urrs, v4.predefQos, v4.teids⟩
        · exact getSessByUeipEntry_same s ⟨0, ue.ipv6Address⟩
        · exact ⟨rfl, rfl, rfl, rfl, rfl, rfl⟩

theorem getPfcpSessionData_isSome (pdr : CreatePdr) (s : RuleState) :
    (getPfcpSessionData pdr s).1.isSome = true ↔ pdr.HasSession := by
  unfold getPfcpSessionData CreatePdr.HasSession
  by_cases teid : pdr.teid ≠ 0
  · simp [teid]
  · cases pdr.ueIpAddress with
    | none => simp [teid]
    | some ue =>
      cases v4 : ue.v4 <;> cases v6 : ue.v6 <;> simp [teid, v4, v6]

end

/-- What linking a new PDR with its QERs, its URRs and then its predefined rules gives. -/
structure Links where
  quer : Option Nat
  qers : RuleTable (Node QerInfo)
  urr : Option Nat
  urrs : RuleTable (Node UrrRule)
  offset : UInt32
  predef : Option Nat
  heap : Heap (Node QerInfo)

structure Links.Made (l : Links) (sess : PfcpSession) (session : Nat) (pdr : CreatePdr)
    (s : RuleState) (offset : UInt32) : Prop where
  qers : linkQers sess 0 pdr.qerIds none s.qers = .ok (l.quer, l.qers)
  urrs : linkUrrs sess 0 pdr.urrIds none s.urrs = .ok (l.urr, l.urrs)
  predef : linkPredefRules s.predefQos session pdr.actvtPredefRules offset l.quer l.qers.heap =
    .ok (l.offset, l.predef, l.heap)

def GainsPdr (session p : Nat) (s s' : RuleState) : Prop :=
  ∀ a, (s'.sessions.cells a).map (·.pdrs) =
    if a = session then (s.sessions.cells a).map fun data => data.pdrs ++ [p]
    else (s.sessions.cells a).map (·.pdrs)

/-- What `process_create_pdr_info` leaves for a PDR that was not there. -/
structure Created (sess : PfcpSession) (session : Nat) (pdr : CreatePdr) (s s' : RuleState)
    (l : Links) : Prop where
  byId : s'.pdrs.byId = s.pdrs.byId.add (sess.ruleKey pdr.pdrId.toUInt32) s.pdrs.heap.next
  cell : ∃ info, s'.pdrs.heap.cells s.pdrs.heap.next = some info ∧
    info.far = (linkFar sess pdr.farId none s.fars).1 ∧ info.quer = l.predef ∧ info.urr = l.urr ∧
    info.ruleId = pdr.pdrId ∧
    info.urrCount = if pdr.urrIds = [] then 0 else UInt8.ofNat pdr.urrIds.length
  old : ∀ a info, s.pdrs.heap.cells a = some info → s'.pdrs.heap.cells a = some info
  sessions : GainsPdr session s.pdrs.heap.next s s'
  fars : s'.fars = (linkFar sess pdr.farId none s.fars).2
  qers : s'.qers = { l.qers with heap := l.heap }
  urrs : s'.urrs = l.urrs
  predefQos : s'.predefQos = s.predefQos
  teids : s'.teids = s.teids

def CreatePdr.Chooses (pdr : CreatePdr) : Prop :=
  (pdr.localFteid.any fun fteid => fteid.chid || fteid.ch) = true

section

variable {sess : PfcpSession} {session : Nat} {pdr : CreatePdr} {s s' : RuleState} {l : Links}

theorem processCreatePdrInfo_chooses (context : Nat) (chooses : pdr.Chooses) :
    processCreatePdrInfo sess context session pdr s = .error .rejected := by
  unfold CreatePdr.Chooses at chooses
  simp only [processCreatePdrInfo, chooses, if_true]
  rfl

theorem processCreatePdrInfo_absent (context : Nat)
    (absent : s.pdrs.byId (sess.ruleKey pdr.pdrId.toUInt32) = none) (fixed : ¬ pdr.Chooses)
    (made : l.Made sess session pdr s s.upQerIndxOffset) :
    ∃ s', processCreatePdrInfo sess context session pdr s = .ok s' ∧
      Created sess session pdr s s' l := by
  unfold CreatePdr.Chooses at fixed
  have live : (s.pdrs.create (sess.ruleKey pdr.pdrId.toUInt32)
      { ruleId := pdr.pdrId }).heap.cells s.pdrs.heap.next = some { ruleId := pdr.pdrId } :=
    alloc_cells_next _ _
  simp only [processCreatePdrInfo, getPdrInfoEntry, absent, fixed, live, made.qers, made.urrs,
    made.predef, Bool.false_eq_true, if_false, except_ok_bind]
  refine ⟨_, rfl, ?_⟩
  exact {
    byId := rfl
    cell := ⟨_, by rw [RuleTable.update, update_cells_self, live, map_some], rfl, rfl, rfl, rfl, rfl⟩
    old := fun a info old => by
      have ne := (live_lt old).ne
      exact (update_cells_of_ne ne).trans ((alloc_cells_of_ne ne).trans old)
    sessions := fun a => by
      by_cases same : a = session
      · subst same
        simp only [if_true, update_cells_self, Option.map_map]
        rfl
      · rw [if_neg same]
        simp only [update_cells_of_ne same]
    fars := rfl
    qers := rfl
    urrs := rfl
    predefQos := rfl
    teids := rfl }

end

def farWrite (session : Nat) (ie : CreateFar) (far : FarInfo) : FarInfo :=
  { ie.store far with session := some session }

theorem foldlM_filter_key {α κ : Type} [DecidableEq κ] {key : α → κ} {l : List α} {ie : α}
    (nodup : (l.map key).Nodup) (mem : ie ∈ l) (f : RuleState → α → Except Fault RuleState)
    (s : RuleState) : (l.filter fun other => key ie == key other).foldlM f s = f s ie := by
  rw [filter_key_eq_singleton nodup mem, foldlM_cons]
  cases f s ie <;> rfl

/-- The ids of a kind are distinct, every PDR has a FAR id, and every id a PDR names has its rule.
-/
structure EstabRequest.WellFormed (r : EstabRequest) : Prop where
  pdrIds : (r.createPdrs.map (·.pdrId)).Nodup
  farIds : (r.createFars.map (·.farId)).Nodup
  qerIds : (r.createQers.map (·.qerId)).Nodup
  urrIds : (r.createUrrs.map (·.urrId)).Nodup
  far : ∀ pdr ∈ r.createPdrs, ∃ ie ∈ r.createFars, pdr.farId = some ie.farId
  qer : ∀ pdr ∈ r.createPdrs, ∀ id ∈ pdr.qerIds, ∃ ie ∈ r.createQers, ie.qerId = id
  urr : ∀ pdr ∈ r.createPdrs, ∀ id ∈ pdr.urrIds, ∃ ie ∈ r.createUrrs, ie.urrId = id

section

def CreateUrr.Supported (ie : CreateUrr) : Prop :=
  measMethodOf ie.methodVolum ie.methodDurat ≠ none ∧
    measMethodOf ie.triggerVolth ie.triggerTimth ≠ none

def urrWrite (now : UInt32) (ie : CreateUrr) (urr : UrrRule) : UrrRule :=
  (ie.store now urr).getD urr

theorem CreateUrr.store_of_supported {ie : CreateUrr} (supported : ie.Supported) (now : UInt32)
    (urr : UrrRule) : ie.store now urr = some (urrWrite now ie urr) := by
  obtain ⟨method, method_eq⟩ := ne_none_iff_exists'.mp supported.1
  obtain ⟨trigger, trigger_eq⟩ := ne_none_iff_exists'.mp supported.2
  simp only [urrWrite, CreateUrr.store, method_eq, trigger_eq]
  rfl

theorem CreateUrr.store_of_not_supported {ie : CreateUrr} (unsupported : ¬ ie.Supported)
    (now : UInt32) (urr : UrrRule) : ie.store now urr = none := by
  unfold CreateUrr.store
  cases method : measMethodOf ie.methodVolum ie.methodDurat with
  | none => rfl
  | some _ =>
    cases trigger : measMethodOf ie.triggerVolth ie.triggerTimth with
    | none => rfl
    | some _ => exact absurd ⟨by simp [method], by simp [trigger]⟩ unsupported

end

section

variable {sess : PfcpSession} {context : Nat} {pdr : CreatePdr} {s s' : RuleState}
  {t t' : RuleTable (Node QerInfo)}

def farLink (id : UInt32) (far : FarInfo) : FarInfo :=
  { far with farIdValue := id, pdrCount := far.pdrCount + 1 }

def qerLink (id : UInt32) (qer : QerInfo) : QerInfo :=
  { qer with qerId := id }

def urrLink (id : UInt32) (urr : UrrRule) : UrrRule :=
  { urr with pdrCount := urr.pdrCount + 1, info := { urr.info with urrId := id } }

def farKey (sess : PfcpSession) (id : UInt32) : RuleKey :=
  sess.ruleKey id.toUInt16.toUInt32

variable {ids : List UInt32} {head : Option Nat}

section

variable (short : ids.length ≤ 1)

include short

theorem linkQers_ok (linked : linkQers sess 0 ids none t = .ok (head, t')) :
    Entered sess.ruleKey (fun id => { data := { qerId := id } }) (fun id => Node.modify (qerLink id))
      ids head t t' :=
  linkListed_ok sess (fun _ _ _ _ => rfl) short linked

theorem linkUrrs_ok {t t' : RuleTable (Node UrrRule)}
    (linked : linkUrrs sess 0 ids none t = .ok (head, t')) :
    Entered sess.ruleKey (fun _ => { data := UrrRule.zero }) (fun id => Node.modify (urrLink id))
      ids head t t' :=
  linkListed_ok sess (fun _ _ _ _ => rfl) short linked

end

theorem storeTeid_ok (stored : storeTeid context pdr s = .ok s') :
    s'.pdrs = s.pdrs ∧ s'.fars = s.fars ∧ s'.qers = s.qers ∧ s'.urrs = s.urrs ∧
      s'.predefQos = s.predefQos ∧
      (s'.teids context).length = (s.teids context).length + (if pdr.teid = 0 then 0 else 1) := by
  unfold storeTeid at stored
  split at stored
  · next none =>
      cases stored
      simp [none]
  · next some =>
      split at stored
      · cases stored
        simp [some]
      · cases stored

theorem storeTeid_room (context : Nat) (room : pdr.teid ≠ 0 → (s.teids context).length < maxBearers) :
    ∃ s', storeTeid context pdr s = .ok s' := by
  unfold storeTeid
  split
  · exact ⟨s, rfl⟩
  · next some => rw [if_pos (room some)]; exact ⟨_, rfl⟩

end

end Epc.Up
