import Epc.Up.Proof.Rules

/-! The requests after which every PDR is linked with the rules it names. -/

namespace Epc.Up

open Epc.Lib List Table RuleTable
open Option hiding mem_map mem_map_of_mem

section

variable {α : Type}

def entriesAt (heap : Heap (Node α)) (addresses : List Nat) : List α :=
  addresses.filterMap fun a => (heap.cells a).map Node.data

def ListLinked (heap : Heap (Node α)) (head : Option Nat) (idOf : α → UInt32) (ids : List UInt32)
    (Good : α → Prop) : Prop :=
  ∃ addresses, heap.Chain head addresses ∧ addresses.Nodup ∧
    ((entriesAt heap addresses).map idOf).Perm ids ∧ ∀ entry ∈ entriesAt heap addresses, Good entry

/-- The entry of an outer header has the kind, the TEID, the tags, the port and the addresses of the
element; an address that is there gives its type. -/
structure OuterMatches (ie : OuterHdrCreationIe) (outer : OuterHdrCreation) : Prop where
  ipv4Desc : outer.outerHdrCreationDesc = .gtpuUdpIpv4 ↔ ie.gtpuUdpIpv4 = true
  ipv6Desc : outer.outerHdrCreationDesc = .gtpuUdpIpv6 ↔ ie.gtpuUdpIpv6 = true
  teid : outer.teid = ie.teid
  ctag : outer.ctag = ie.ctag
  stag : outer.stag = ie.stag
  portNumber : outer.portNumber = ie.portNumber
  ipv4Address : ie.ipv4Address ≠ 0 →
    outer.ipType = pdnTypeIpv4 ∧ outer.ipv4Address = ie.ipv4Address
  ipv6Address : ie.ipv6Address ≠ NodeAddress.zeroIpv6 →
    outer.ipType = pdnTypeIpv6 ∧ outer.ipv6Address = ie.ipv6Address

/-- A configuration has the octets of a forwarding policy as far as the policy goes. -/
structure LiMatches (policy : List UInt8) (config : LiConfig) : Prop where
  westDirection : ∀ octet, policy[1]? = some octet → config.westDirection = octet
  westContent : ∀ octet, policy[2]? = some octet → config.westContent = octet
  eastDirection : ∀ octet, policy[3]? = some octet → config.eastDirection = octet
  eastContent : ∀ octet, policy[4]? = some octet → config.eastContent = octet
  forward : ∀ octet, policy[5]? = some octet → config.forward = octet
  id : 14 ≤ policy.length → config.id = (policy.drop 6).take 8

/-- A FAR's entry has what its element carries. -/
structure FarMatches (ie : CreateFar) (far : FarInfo) : Prop where
  actions : ∀ actions, ie.applyAction = some actions → far.actions = actions
  dstIntfc : ∀ parms, ie.frwdngParms = some parms →
    ∀ interface, parms.dstIntfc = some interface → far.dstIntfc = interface
  outer : ∀ parms, ie.frwdngParms = some parms →
    ∀ outer, parms.outerHdrCreation = some outer → OuterMatches outer far.outerHdrCreation
  others : ∀ parms, ie.frwdngParms = some parms → far.others = parms.others
  barId : ∀ barId, ie.barId = some barId → far.barIdValue = barId
  liConfig : ie.dupngParms ≠ [] → Forall₂ LiMatches ie.dupngParms far.liConfig

/-- A QER's entry has what its element carries. -/
structure QerMatches (ie : CreateQer) (qer : QerInfo) : Prop where
  gateStatus : ∀ status, ie.gateStatus = some status → qer.gateStatus = status
  qerCorrId : ∀ id, ie.qerCorrId = some id → qer.qerCorrIdVal = id
  maximumBitrate : ∀ rates, ie.maximumBitrate = some rates → qer.maxBitrate = rates
  guaranteedBitrate : ∀ rates, ie.guaranteedBitrate = some rates → qer.guaranteedBitrate = rates
  uplinkPacketRate : ∀ rate, ie.uplinkPacketRate = some rate → qer.uplinkPacketRate = rate
  downlinkPacketRate : ∀ rate, ie.downlinkPacketRate = some rate → qer.downlinkPacketRate = rate
  tosTrafficCls : ∀ cls, ie.tosTrafficCls = some cls → qer.tosTrafficCls = some cls
  svcClsIndctr : ∀ cls, ie.svcClsIndctr = some cls → qer.svcClsIndctr = some cls
  qosFlowIdent : ∀ ident, ie.qosFlowIdent = some ident → qer.qosFlowIdent = ident
  reflectiveQos : ∀ rqi, ie.reflectiveQos = some rqi → qer.reflectiveQos = rqi
  pagingPlcyIndctr : ∀ ppi, ie.pagingPlcyIndctr = some ppi → qer.pagingPlcyIndctr = ppi
  avgngWnd : ∀ window, ie.avgngWnd = some window → qer.avgngWnd = window

/-- A URR's entry has what its element carries, the volumes as numbers. -/
structure UrrMatches (ie : CreateUrr) (urr : UrrRule) : Prop where
  method : measMethodOf ie.methodVolum ie.methodDurat = some urr.info.measMethod
  trigger : measMethodOf ie.triggerVolth ie.triggerTimth = some urr.info.reptTrigg
  time : ∀ time, ie.timeThreshold = some time → urr.timeThes = time
  uplink : ∀ volume, ie.volThreshUplink = some volume →
    urr.info.volThesUplnk.toNat = volume.toNat
  downlink : ∀ volume, ie.volThreshDownlink = some volume →
    urr.info.volThesDwnlnk.toNat = volume.toNat

/-- A stored PDR is linked with the rules it names, each with what its element carries. -/
structure PdrLinked (r : EstabRequest) (s : RuleState) (pdr : CreatePdr) (info : PdrInfo) : Prop where
  far : ∃ a far, info.far = some a ∧ s.fars.heap.cells a = some far ∧
    pdr.farId = some far.farIdValue ∧
    ∀ ie ∈ r.createFars, ie.farId = far.farIdValue → FarMatches ie far
  qers : ListLinked s.qers.heap info.quer (·.qerId) pdr.qerIds fun qer =>
    ∀ ie ∈ r.createQers, ie.qerId = qer.qerId → QerMatches ie qer
  urrs : ListLinked s.urrs.heap info.urr (·.info.urrId) pdr.urrIds fun urr =>
    ∀ ie ∈ r.createUrrs, ie.urrId = urr.info.urrId → UrrMatches ie urr

def StoredPdr (sess : PfcpSession) (s : RuleState) (pdr : CreatePdr) (info : PdrInfo) : Prop :=
  ∃ a, s.pdrs.byId (sess.ruleKey pdr.pdrId.toUInt32) = some a ∧ s.pdrs.heap.cells a = some info

/-- Two PDRs share no entry of rules with different ids. -/
structure PdrsApart (s : RuleState) (p q : CreatePdr) (info info' : PdrInfo) : Prop where
  far : p.farId ≠ q.farId → info.far ≠ info'.far
  qers : p.qerIds.Disjoint q.qerIds → ∀ l l', s.qers.heap.Chain info.quer l →
    s.qers.heap.Chain info'.quer l' → l.Disjoint l'
  urrs : p.urrIds.Disjoint q.urrIds → ∀ l l', s.urrs.heap.Chain info.urr l →
    s.urrs.heap.Chain info'.urr l' → l.Disjoint l'

/-- Every PDR of the request is stored and linked, and rules with different ids are different entries.
-/
structure RulesLinked (r : EstabRequest) (sess : PfcpSession) (s : RuleState) : Prop where
  linked : ∀ pdr ∈ r.createPdrs, ∃ info, StoredPdr sess s pdr info ∧ PdrLinked r s pdr info
  apart : ∀ p ∈ r.createPdrs, ∀ q ∈ r.createPdrs, ∀ info info', StoredPdr sess s p info →
    StoredPdr sess s q info' → PdrsApart s p q info info'

def EstabRequest.teidCount (r : EstabRequest) : Nat :=
  r.createPdrs.countP fun pdr => pdr.teid ≠ 0

/-- The forwarding parameters can be stored: one kind of outer header for GTP-U, one address at most,
and none of the parameters that are never stored. -/
def CreateFar.Storable (ie : CreateFar) : Prop :=
  ∀ parms, ie.frwdngParms = some parms → parms.others = {} ∧
    ∀ outer, parms.outerHdrCreation = some outer → outer.gtpuUdpIpv4 = !outer.gtpuUdpIpv6 ∧
      (outer.ipv4Address = 0 ∨ outer.ipv6Address = NodeAddress.zeroIpv6)

def CreateUrr.SmallVolumes (ie : CreateUrr) : Prop :=
  (∀ volume, ie.volThreshUplink = some volume → volume.toNat < 2 ^ 32) ∧
    ∀ volume, ie.volThreshDownlink = some volume → volume.toNat < 2 ^ 32

/-- A session for every PDR, FAR ids that differ in their low sixteen bits, FARs that can be stored,
at most one QER and one URR for a PDR, volumes of 32 bits, no predefined rule that makes a QER, and
room for the TEIDs. -/
structure Linkable (s : UpState) (r : EstabRequest) : Prop where
  sessions : ∀ pdr ∈ r.createPdrs, pdr.HasSession
  farIds : ∀ p ∈ r.createPdrs, ∀ q ∈ r.createPdrs, ∀ i j, p.farId = some i → q.farId = some j →
    i.toUInt16 = j.toUInt16 → i = j
  fars : ∀ pdr ∈ r.createPdrs, ∀ ie ∈ r.createFars, pdr.farId = some ie.farId → ie.Storable
  qers : ∀ pdr ∈ r.createPdrs, pdr.qerIds.length ≤ 1
  urrs : ∀ pdr ∈ r.createPdrs, pdr.urrIds.length ≤ 1
  volumes : ∀ pdr ∈ r.createPdrs, ∀ ie ∈ r.createUrrs, ie.urrId ∈ pdr.urrIds → ie.SmallVolumes
  predefined : ∀ pdr ∈ r.createPdrs, ∀ name ∈ pdr.actvtPredefRules, s.rules.predefQos name = none
  teids : r.teidCount = 0 ∨
    (s.rules.teids (openSession s.contexts r.head).1).length + r.teidCount ≤ maxBearers

def FreshRules (sess : PfcpSession) (s : RuleState) : Prop :=
  ∀ id, s.pdrs.byId (sess.ruleKey id) = none ∧ s.fars.byId (sess.ruleKey id) = none ∧
    s.qers.byId (sess.ruleKey id) = none ∧ s.urrs.byId (sess.ruleKey id) = none

end

section

theorem outerMatches_store {ie : OuterHdrCreationIe} (outer : OuterHdrCreation)
    (kind : ie.gtpuUdpIpv4 = !ie.gtpuUdpIpv6)
    (address : ie.ipv4Address = 0 ∨ ie.ipv6Address = NodeAddress.zeroIpv6) :
    OuterMatches ie (ie.store outer) := by
  unfold OuterHdrCreationIe.store
  rcases address with noIpv4 | noIpv6
  · constructor <;> cases v6 : ie.gtpuUdpIpv6 <;> simp [kind, v6, noIpv4]
  · by_cases v4Address : ie.ipv4Address = 0
    · constructor <;> cases v6 : ie.gtpuUdpIpv6 <;> simp [kind, v6, noIpv6, v4Address]
    · constructor <;> cases v6 : ie.gtpuUdpIpv6 <;> simp [kind, v6, noIpv6, v4Address]

theorem liMatches_liConfigOf (policy : List UInt8) : LiMatches policy (liConfigOf policy) where
  westDirection octet found := by simp [liConfigOf, found]
  westContent octet found := by simp [liConfigOf, found]
  eastDirection octet found := by simp [liConfigOf, found]
  eastContent octet found := by simp [liConfigOf, found]
  forward octet found := by simp [liConfigOf, found]
  id long := by
    have some : 6 < policy.length := by omega
    simp only [liConfigOf, if_pos some]
    refine ext_getElem (by simp; omega) fun i inRange _ => ?_
    rw [length_map, length_range] at inRange
    simp [getElem?_eq_getElem (show 6 + i < policy.length by omega)]

theorem farMatches_farWrite {ie : CreateFar} {far : FarInfo} (session : Nat)
    (storable : ie.Storable) (others : far.others = {}) :
    FarMatches ie (farWrite session ie far) where
  actions actions carried := by simp [farWrite, CreateFar.store, carried]
  dstIntfc parms carried interface given := by simp [farWrite, CreateFar.store, carried, given]
  outer parms carried outer given := by
    obtain ⟨kind, address⟩ := (storable parms carried).2 outer given
    simp only [farWrite, CreateFar.store, carried, bind_some, given]
    exact outerMatches_store far.outerHdrCreation kind address
  others parms carried := others.trans (storable parms carried).1.symm
  barId barId carried := by simp [farWrite, CreateFar.store, carried]
  liConfig some := by
    simp only [farWrite, CreateFar.store, if_neg some]
    exact forall₂_map_right_iff.mpr (forall₂_same.mpr fun policy _ => liMatches_liConfigOf policy)

theorem qerMatches_store (ie : CreateQer) (qer : QerInfo) (session : Option Nat) :
    QerMatches ie { ie.store qer with session } := by
  constructor <;> intro x carried <;> simp [CreateQer.store, carried]

theorem urrMatches_urrWrite {ie : CreateUrr} (supported : ie.Supported) (small : ie.SmallVolumes)
    (now : UInt32) (urr : UrrRule) : UrrMatches ie (urrWrite now ie urr) := by
  obtain ⟨method, method_eq⟩ := ne_none_iff_exists'.mp supported.1
  obtain ⟨trigger, trigger_eq⟩ := ne_none_iff_exists'.mp supported.2
  have written : urrWrite now ie urr = (ie.store now urr).getD urr := rfl
  simp only [CreateUrr.store, method_eq, trigger_eq, bind_eq_bind, bind_some, getD_some] at written
  rw [written]
  exact {
    method := method_eq
    trigger := trigger_eq
    time := fun time some => by simp [some]
    uplink := fun volume some => by
      simpa [some, UInt64.toNat_toUInt32] using small.1 volume some
    downlink := fun volume some => by
      simpa [some, UInt64.toNat_toUInt32] using small.2 volume some }

end

section

variable {r : EstabRequest} {sess : PfcpSession} {done : List CreatePdr}

def FarGood (r : EstabRequest) (id : UInt32) (far : FarInfo) : Prop :=
  far.farIdValue = id ∧ far.others = {} ∧ ∀ ie ∈ r.createFars, ie.farId = id → FarMatches ie far

/-- A node is alone, has the id, and has what the element with this id carries. -/
def NodeGood {Ie α : Type} (ies : List Ie) (ieId : Ie → UInt32) (idOf : α → UInt32)
    (Matches : Ie → α → Prop) (id : UInt32) (node : Node α) : Prop :=
  node.next = none ∧ idOf node.data = id ∧ ∀ ie ∈ ies, ieId ie = id → Matches ie node.data

def QerGood (r : EstabRequest) : UInt32 → Node QerInfo → Prop :=
  NodeGood r.createQers (·.qerId) (·.qerId) QerMatches

def UrrGood (r : EstabRequest) : UInt32 → Node UrrRule → Prop :=
  NodeGood r.createUrrs (·.urrId) (·.info.urrId) UrrMatches

/-- What holds after the PDRs `done`, if nothing stands in the way of their links. -/
structure Linking (r : EstabRequest) (sess : PfcpSession) (done : List CreatePdr) (s : RuleState) :
    Prop where
  fars : s.fars.Keeps (farKey sess) (fun id => ∃ pdr ∈ done, pdr.farId = some id) (FarGood r)
  qers : s.qers.Keeps sess.ruleKey (fun id => ∃ pdr ∈ done, id ∈ pdr.qerIds) (QerGood r)
  urrs : s.urrs.Keeps sess.ruleKey (fun id => ∃ pdr ∈ done, id ∈ pdr.urrIds) (UrrGood r)
  stored : ∀ pdr ∈ done, ∃ info, StoredPdr sess s pdr info ∧
    info.far = pdr.farId.bind (fun id => s.fars.byId (farKey sess id)) ∧
    info.quer = pdr.qerIds.head?.bind (fun id => s.qers.byId (sess.ruleKey id)) ∧
    info.urr = pdr.urrIds.head?.bind (fun id => s.urrs.byId (sess.ruleKey id))
  absent : ∀ id : UInt16, (∀ pdr ∈ done, pdr.pdrId ≠ id) →
    s.pdrs.byId (sess.ruleKey id.toUInt32) = none

theorem ruleKey_injective (sess : PfcpSession) : Function.Injective sess.ruleKey :=
  fun _ _ same => congrArg RuleKey.id same

theorem Linking.congr {s s' : RuleState} (linking : Linking r sess done s)
    (pdrs : s'.pdrs = s.pdrs) (fars : s'.fars = s.fars) (qers : s'.qers = s.qers)
    (urrs : s'.urrs = s.urrs) : Linking r sess done s' where
  fars := fars ▸ linking.fars
  qers := qers ▸ linking.qers
  urrs := urrs ▸ linking.urrs
  stored := by
    simp only [StoredPdr, pdrs, fars, qers, urrs]
    exact linking.stored
  absent := pdrs ▸ linking.absent

theorem linking_nil {s : RuleState} (fresh : FreshRules sess s) : Linking r sess [] s where
  fars := ⟨by simp, fun id _ => (fresh id.toUInt16.toUInt32).2.1⟩
  qers := ⟨by simp, fun id _ => (fresh id).2.2.1⟩
  urrs := ⟨by simp, fun id _ => (fresh id).2.2.2⟩
  stored := forall_mem_nil _
  absent id _ := (fresh id.toUInt32).1

theorem pdrKey_injective (sess : PfcpSession) :
    Function.Injective fun id : UInt16 => sess.ruleKey id.toUInt32 := by
  intro i j same
  have low := congrArg UInt32.toUInt16 (ruleKey_injective sess same)
  simpa using low

theorem farKey_low {i j : UInt32} (same : farKey sess i = farKey sess j) : i.toUInt16 = j.toUInt16 :=
  pdrKey_injective sess same

theorem farGood_write {ie : CreateFar} {far : FarInfo} (wf : r.WellFormed) (mem : ie ∈ r.createFars)
    (storable : ie.Storable) (session : Nat) (others : far.others = {}) :
    FarGood r ie.farId ((farWrite session ie ∘ farLink ie.farId) far) := by
  refine ⟨rfl, others, fun other otherMember same => ?_⟩
  obtain rfl := inj_on_of_nodup_map wf.farIds otherMember mem same
  exact farMatches_farWrite session storable others

theorem urrWrite_id (now : UInt32) (ie : CreateUrr) (urr : UrrRule) :
    (urrWrite now ie urr).info.urrId = urr.info.urrId := by
  unfold urrWrite CreateUrr.store
  cases measMethodOf ie.methodVolum ie.methodDurat with
  | none => rfl
  | some method => cases measMethodOf ie.triggerVolth ie.triggerTimth <;> rfl

theorem RuleTable.Keeps.live_of_byId {Entry : Type} {t : RuleTable Entry} {Named : UInt32 → Prop}
    {Good : UInt32 → Entry → Prop} (keeps : t.Keeps sess.ruleKey Named Good) (id : UInt32) (a : Nat)
    (known : t.byId (sess.ruleKey id) = some a) : ∃ e, t.heap.cells a = some e :=
  (keeps.known (fun _ _ same => ruleKey_injective sess same) known).imp fun _ => And.left

theorem processCreateUrrInfo_cases {ie : CreateUrr} {a : Nat} (node : Node UrrRule) (now : UInt32)
    {s : RuleState} (known : s.urrs.byId (sess.ruleKey ie.urrId) = some a)
    (live : s.urrs.heap.cells a = some node) (small : ie.SmallVolumes) :
    processCreateUrrInfo sess now ie s = .error .rejected ∨
      ∃ write, processCreateUrrInfo sess now ie s =
          .ok { s with urrs := s.urrs.update a (Node.modify write) } ∧
        ∀ data, (write (urrLink ie.urrId data)).info.urrId = ie.urrId ∧
          UrrMatches ie (write (urrLink ie.urrId data)) := by
  simp only [processCreateUrrInfo, known, live]
  by_cases supported : ie.Supported
  · refine .inr ⟨urrWrite now ie, ?_, fun data =>
      ⟨urrWrite_id now ie (urrLink ie.urrId data), urrMatches_urrWrite supported small now _⟩⟩
    have same : s.urrs.update a (fun node' => { node' with data := urrWrite now ie node.data }) =
        s.urrs.update a (Node.modify (urrWrite now ie)) := RuleTable.update_congr live rfl
    rw [CreateUrr.store_of_supported supported]
    simp only [same]
  · rw [CreateUrr.store_of_not_supported supported]
    exact .inl rfl

/-- The elements of the ids of a new PDR are stored in the entries that were linked, or one is turned
down. -/
theorem listedStage {Ie α : Type} {ies : List Ie} {ieId : Ie → UInt32} (idOf : α → UInt32)
    (Matches : Ie → α → Prop) (process : RuleState → Ie → Except Fault RuleState)
    (put : RuleTable (Node α) → RuleState) {entry : UInt32 → α} {link : UInt32 → α → α}
    {ids : List UInt32} {head : Option Nat} {t t' : RuleTable (Node α)}
    (nodup : (ies.map ieId).Nodup) (named : ∀ id ∈ ids, ∃ ie ∈ ies, ieId ie = id)
    (live : ∀ id a, t.byId (sess.ruleKey id) = some a → ∃ node, t.heap.cells a = some node)
    (entered : Entered sess.ruleKey (fun id => { data := entry id }) (fun id => Node.modify (link id))
      ids head t t')
    (processed : ∀ ie ∈ ies, ieId ie ∈ ids → ∀ a node, t'.byId (sess.ruleKey (ieId ie)) = some a →
      t'.heap.cells a = some node → process (put t') ie = .error .rejected ∨
        ∃ write, process (put t') ie = .ok (put (t'.update a (Node.modify write))) ∧
          ∀ data, idOf (write (link (ieId ie) data)) = ieId ie ∧
            Matches ie (write (link (ieId ie) data))) :
    let run := ids.foldlM (fun s id => (ies.filter fun ie => id == ieId ie).foldlM process s) (put t')
    run = .error .rejected ∨ ∃ t'', run = .ok (put t'') ∧
      EnteredGood sess.ruleKey (NodeGood ies ieId idOf Matches) ids head t t'' := by
  rcases entered with ⟨rfl, rfl, rfl⟩ | ⟨id, rfl, rfl, rfl⟩
  · exact .inr ⟨t', rfl, fun id => { data := entry id }, fun _ node => node, .inl ⟨rfl, rfl, rfl⟩,
      forall_mem_nil _⟩
  · obtain ⟨ie, mem, rfl⟩ := named id (mem_singleton_self id)
    obtain ⟨node, up⟩ := upserted { data := entry (ieId ie) } (Node.modify (link (ieId ie)))
      (live (ieId ie))
    rw [foldlM_cons, foldlM_filter_key nodup mem]
    rcases processed ie mem (mem_singleton_self _) _ _ upsert_byId_self up.here with
      rejected | ⟨write, run, good⟩
    · exact .inl (by rw [rejected]; rfl)
    · have written : ∀ node : Node α, node.next = none → NodeGood ies ieId idOf Matches (ieId ie)
          (Node.modify write (Node.modify (link (ieId ie)) node)) := by
        intro node ends
        obtain ⟨sameId, matched⟩ := good node.data
        refine ⟨ends, sameId, fun other otherMember same => ?_⟩
        obtain rfl := inj_on_of_nodup_map nodup otherMember mem same
        exact matched
      rw [run, upsert_update]
      refine .inr ⟨_, rfl, fun id => { data := entry id },
        fun id => Node.modify write ∘ Node.modify (link id),
        .inr ⟨_, rfl, congrArg some (upsert_fst ..), rfl⟩, ?_⟩
      rw [forall_mem_singleton]
      exact ⟨written _ rfl, fun node good => written node good.1⟩

end

section

variable {r : EstabRequest} {sess : PfcpSession} {context session itr : Nat} {now : UInt32}
  {pdr : CreatePdr} {info : PdrInfo} {s s' : RuleState} {done : List CreatePdr} {s₀ : UpState}

/-- What one round leaves for a new PDR: its links and the rules' tables. -/
structure Stepped (r : EstabRequest) (sess : PfcpSession) (session : Nat) (pdr : CreatePdr)
    (info : PdrInfo) (s s' : RuleState) : Prop where
  byId : s'.pdrs.byId = s.pdrs.byId.add (sess.ruleKey pdr.pdrId.toUInt32) s.pdrs.heap.next
  cell : s'.pdrs.heap.cells s.pdrs.heap.next = some info
  old : ∀ a info, s.pdrs.heap.cells a = some info → s'.pdrs.heap.cells a = some info
  fars : ∃ ie ∈ r.createFars, pdr.farId = some ie.farId ∧
    info.far = s'.fars.byId (farKey sess ie.farId) ∧
    s'.fars = (s.fars.upsert (farKey sess ie.farId) {} (farWrite session ie ∘ farLink ie.farId)).2
  qers : EnteredGood sess.ruleKey (QerGood r) pdr.qerIds info.quer s.qers s'.qers
  urrs : EnteredGood sess.ruleKey (UrrGood r) pdr.urrIds info.urr s.urrs s'.urrs
  predefQos : s'.predefQos = s.predefQos
  teids : s'.teids = s.teids

variable (linking : Linking r sess done s) (wf : r.WellFormed) (linkable : Linkable s₀ r)
  (member : pdr ∈ r.createPdrs) (new : ∀ p ∈ done, p.pdrId ≠ pdr.pdrId)

include linking wf linkable member new

theorem Linking.processPdr (context itr : Nat) (now : UInt32)
    (predefQos : s.predefQos = s₀.rules.predefQos) :
    r.processPdr sess context now itr pdr s = .error .rejected ∨
      ∃ s' session info, r.processPdr sess context now itr pdr s = storeTeid context pdr s' ∧
        Stepped r sess session pdr info s s' := by
  have isSome := (getPfcpSessionData_isSome pdr s).mpr (linkable.sessions pdr member)
  obtain ⟨session, data⟩ := isSome_iff_exists.mp isSome
  obtain ⟨s₁, found⟩ : ∃ s₁, getPfcpSessionData pdr s = (some session, s₁) := ⟨_, Prod.ext data rfl⟩
  have same := getPfcpSessionData_same pdr s
  rw [found] at same
  obtain ⟨ie, ieMember, farId⟩ := wf.far pdr member
  simp only [EstabRequest.processPdr, found]
  by_cases chooses : pdr.Chooses
  · left
    rw [processCreatePdrInfo_chooses context chooses]
    rfl
  obtain ⟨quer, qers, qersLinked, qersEntered⟩ :=
    linkListed_short sess (fun _ _ _ _ => rfl) (linkable.qers pdr member) s.qers
  obtain ⟨urr, urrs, urrsLinked, urrsEntered⟩ :=
    linkListed_short sess (fun _ _ _ _ => rfl) (linkable.urrs pdr member) s.urrs
  have noPredef := linkable.predefined pdr member
  rw [← predefQos, ← same.predefQos] at noPredef
  obtain ⟨s₂, run, created⟩ := processCreatePdrInfo_absent
    (l := ⟨quer, qers, urr, urrs, s₁.upQerIndxOffset, quer, qers.heap⟩) context
    (s := { s₁ with
      sessions := s₁.sessions.update session fun data => { data with sessState := .inProgress } })
    (same.pdrs ▸ linking.absent pdr.pdrId new) chooses
    ⟨same.qers ▸ qersLinked, same.urrs ▸ urrsLinked, linkPredefRules_none noPredef⟩
  rw [run, except_ok_bind, farId, getD_some]
  have fars := created.fars
  rw [farId, linkFar_some] at fars
  have farKnown : s₂.fars.byId (farKey sess ie.farId) =
      some (s₁.fars.upsert (farKey sess ie.farId) {} (farLink ie.farId)).1 := by
    rw [fars]
    exact upsert_byId_self
  -- The address is named, so that the states of the next stages stay short.
  generalize address : (s₁.fars.upsert (farKey sess ie.farId) {} (farLink ie.farId)).1 = a at farKnown
  have farRun : processCreateFarInfo sess session ie s₂ = .ok { s₂ with
      fars := s₂.fars.update a (farWrite session ie)
      sessions := s₂.sessions.update session ie.storeSession } := by
    unfold farKey at farKnown
    simp only [processCreateFarInfo, farKnown]
    rfl
  rw [foldlM_filter_key wf.farIds ieMember, farRun, except_ok_bind]
  obtain rfl : s₂.qers = qers := created.qers
  obtain rfl : s₂.urrs = urrs := created.urrs
  rcases listedStage (·.qerId) QerMatches (fun s ie => processCreateQerInfo sess session itr ie s)
    (fun qers => { s₂ with
      fars := s₂.fars.update a (farWrite session ie)
      sessions := s₂.sessions.update session ie.storeSession
      qers }) wf.qerIds (wf.qer pdr member)
    linking.qers.live_of_byId qersEntered (fun ie _ _ a node known _ =>
      .inr ⟨fun qer => { ie.store qer with session := some session },
        by simp only [processCreateQerInfo, known]; rfl, fun data => ⟨rfl, qerMatches_store ie _ _⟩⟩) with
    rejected | ⟨qers', qersRun, qersGood⟩
  · left
    rw [rejected, except_error_bind]
  rw [qersRun, except_ok_bind]
  rcases listedStage (·.info.urrId) UrrMatches (fun s ie => processCreateUrrInfo sess now ie s)
    (fun urrs => { s₂ with
      fars := s₂.fars.update a (farWrite session ie)
      sessions := s₂.sessions.update session ie.storeSession
      qers := qers'
      urrs }) wf.urrIds (wf.urr pdr member)
    linking.urrs.live_of_byId urrsEntered (fun ie mem named a node known live => by
      refine processCreateUrrInfo_cases node now ?_ ?_ (linkable.volumes pdr member ie mem named)
      exacts [known, live]) with rejected | ⟨urrs', urrsRun, urrsGood⟩
  · left
    rw [rejected, except_error_bind]
  right
  rw [urrsRun, except_ok_bind]
  obtain ⟨info, cell, far, querLinked, urrLinked, -⟩ := created.cell
  rw [farId, linkFar_some] at far
  refine ⟨_, session, info, rfl, ?_⟩
  exact {
    byId := by rw [← same.pdrs]; exact created.byId
    cell := by rw [← same.pdrs]; exact cell
    old := fun a info old => created.old a info (by rw [← same.pdrs] at old; exact old)
    fars := by
      subst address
      refine ⟨ie, ieMember, farId, far.trans farKnown.symm, ?_⟩
      simp only [fars, ← same.fars]
      exact upsert_update _ _ _ _ _
    qers := querLinked ▸ qersGood
    urrs := urrLinked ▸ urrsGood
    predefQos := created.predefQos.trans same.predefQos
    teids := created.teids.trans same.teids }

theorem Linking.step (doneMembers : ∀ p ∈ done, p ∈ r.createPdrs)
    (stepped : Stepped r sess session pdr info s s') : Linking r sess (pdr :: done) s' := by
  obtain ⟨qersKeep, qersKept, querLink⟩ := linking.qers.listed (ruleKey_injective sess)
    (fun _ _ _ first second => first.2.1.symm.trans second.2.1) stepped.qers
  obtain ⟨urrsKeep, urrsKept, urrLink⟩ := linking.urrs.listed (ruleKey_injective sess)
    (fun _ _ _ first second => first.2.1.symm.trans second.2.1) stepped.urrs
  obtain ⟨ie, ieMember, farId, farLinked, farsAfter⟩ := stepped.fars
  have farsKept : ∀ id, (∃ p ∈ done, p.farId = some id) →
      s'.fars.byId (farKey sess id) = s.fars.byId (farKey sess id) := by
    intro id named
    rw [farsAfter]
    exact linking.fars.upsert_byId named
  refine ⟨?_, ?_, ?_, ?_, ?_⟩
  · rw [farsAfter]
    have storable := linkable.fars pdr member ie ieMember farId
    refine (linking.fars.upsert ie.farId ?_ ?_ (farGood_write wf ieMember storable session rfl)
      fun e good => farGood_write wf ieMember storable session good.2.1).congr fun i => ?_
    · rintro other ⟨p, isDone, named⟩ same
      exact linkable.farIds p (doneMembers p isDone) pdr member other ie.farId named farId
        (farKey_low same)
    · exact fun _ _ _ first second => first.1.symm.trans second.1
    · simp [farId, eq_comm, or_comm]
  · exact qersKeep.congr fun i => by simp [or_comm]
  · exact urrsKeep.congr fun i => by simp [or_comm]
  · rintro p (_ | ⟨_, isDone⟩)
    · refine ⟨info, ⟨_, by rw [stepped.byId]; exact add_self .., stepped.cell⟩, ?_, querLink, urrLink⟩
      rw [farLinked, farId, bind_some]
    · obtain ⟨info, ⟨a, known, live⟩, far, quer, urr⟩ := linking.stored p isDone
      have other : sess.ruleKey p.pdrId.toUInt32 ≠ sess.ruleKey pdr.pdrId.toUInt32 :=
        fun same => new p isDone (pdrKey_injective sess same)
      refine ⟨info, ⟨a, ?_, stepped.old a info live⟩, ?_, ?_, ?_⟩
      · rw [stepped.byId, add_of_ne other]
        exact known
      · rw [far]
        cases named : p.farId with
        | none => rfl
        | some id => exact (farsKept id ⟨p, isDone, named⟩).symm
      · rw [quer]
        cases named : p.qerIds.head? with
        | none => rfl
        | some id => exact (qersKept id ⟨p, isDone, mem_of_head? named⟩).symm
      · rw [urr]
        cases named : p.urrIds.head? with
        | none => rfl
        | some id => exact (urrsKept id ⟨p, isDone, mem_of_head? named⟩).symm
  · intro id others
    have other : sess.ruleKey id.toUInt32 ≠ sess.ruleKey pdr.pdrId.toUInt32 :=
      fun same => others pdr (mem_cons_self ..) (pdrKey_injective sess same).symm
    rw [stepped.byId, add_of_ne other]
    exact linking.absent id fun p isDone => others p (mem_cons_of_mem _ isDone)

end

section

variable {r : EstabRequest} {sess : PfcpSession}

variable {ids : List UInt32}

theorem processPdrs_linking {s₀ : UpState} (context : Nat) (now : UInt32) (wf : r.WellFormed)
    (linkable : Linkable s₀ r) (pdrs : List CreatePdr) {done : List CreatePdr} {s : RuleState} (itr : Nat)
    (members : ∀ pdr ∈ pdrs, pdr ∈ r.createPdrs) (doneMembers : ∀ pdr ∈ done, pdr ∈ r.createPdrs)
    (nodup : (pdrs.map (·.pdrId)).Nodup) (new : ∀ pdr ∈ pdrs, ∀ p ∈ done, p.pdrId ≠ pdr.pdrId)
    (predefQos : s.predefQos = s₀.rules.predefQos) (room : pdrs.countP (fun pdr => pdr.teid ≠ 0) = 0 ∨
      (s.teids context).length + pdrs.countP (fun pdr => pdr.teid ≠ 0) ≤ maxBearers)
    (linking : Linking r sess done s) :
    r.processPdrs sess context now itr pdrs s = .error .rejected ∨
      ∃ s', r.processPdrs sess context now itr pdrs s = .ok s' ∧
        Linking r sess (pdrs.reverse ++ done) s' := by
  induction pdrs generalizing done s itr with
  | nil => exact .inr ⟨s, rfl, linking⟩
  | cons pdr pdrs ih =>
    have member := members pdr (mem_cons_self ..)
    have isNew := new pdr (mem_cons_self ..)
    rcases linking.processPdr wf linkable member isNew context itr now predefQos with
      rejected | ⟨s₂, session, info, run, stepped⟩
    · left
      rw [EstabRequest.processPdrs, rejected]
      rfl
    · rw [countP_cons] at room
      obtain ⟨s₃, stored⟩ : ∃ s₃, storeTeid context pdr s₂ = .ok s₃ := by
        refine storeTeid_room context fun some => ?_
        rw [stepped.teids]
        simp only [decide_eq_true some, if_true] at room
        omega
      obtain ⟨samePdrs, sameFars, sameQers, sameUrrs, samePredef, count⟩ := storeTeid_ok stored
      have linking' := (linking.step wf linkable member isNew doneMembers stepped).congr samePdrs sameFars
        sameQers sameUrrs
      rw [map_cons, nodup_cons] at nodup
      rw [EstabRequest.processPdrs, run, stored, except_ok_bind, reverse_cons, append_assoc]
      refine ih (itr + 1) (fun p mem => members p (mem_cons_of_mem _ mem))
        (forall_mem_cons.mpr ⟨member, doneMembers⟩) nodup.2 ?_ ?_ ?_ linking'
      · intro p mem q isDone
        rcases mem_cons.mp isDone with rfl | isDone
        · exact fun same => nodup.1 (same ▸ mem_map_of_mem mem)
        · exact new p (mem_cons_of_mem _ mem) q isDone
      · rw [samePredef, stepped.predefQos, predefQos]
      · rw [count, stepped.teids]
        by_cases none : pdr.teid = 0
        · simpa [none] using room
        · simp only [none, ne_eq, not_false_eq_true, decide_true, if_true, if_false] at room ⊢
          omega

variable {done : List CreatePdr} {s : RuleState} {pdr : CreatePdr}

theorem RuleTable.Keeps.listLinked {α : Type} {t : RuleTable (Node α)} {Named : UInt32 → Prop}
    {Good : UInt32 → Node α → Prop} {idOf : α → UInt32} {Matches : α → Prop}
    (keeps : t.Keeps sess.ruleKey Named Good) (named : ∀ id ∈ ids, Named id) (short : ids.length ≤ 1)
    (good : ∀ id node, Good id node → node.next = none ∧ idOf node.data = id ∧ Matches node.data) :
    ListLinked t.heap (ids.head?.bind fun id => t.byId (sess.ruleKey id)) idOf ids Matches := by
  match ids, short with
  | [], _ => exact ⟨[], .nil, nodup_nil, List.Perm.refl [], forall_mem_nil _⟩
  | [id], _ =>
    obtain ⟨a, node, known, live, isGood⟩ := keeps.live id (named id (mem_singleton_self id))
    obtain ⟨ends, sameId, matched⟩ := good id node isGood
    have entries : entriesAt t.heap [a] = [node.data] := by simp [entriesAt, live]
    refine ⟨[a], ?_, nodup_singleton a, ?_, ?_⟩
    · rw [head?_cons, bind_some, known]
      exact (Heap.Chain.singleton_iff live ends).mpr rfl
    · rw [entries, map_singleton, sameId]
    · rw [entries]
      simpa using matched

theorem Linking.pdrLinked (linking : Linking r sess done s) (wf : r.WellFormed)
    (member : pdr ∈ r.createPdrs) (isDone : pdr ∈ done) (qers : pdr.qerIds.length ≤ 1)
    (urrs : pdr.urrIds.length ≤ 1) : ∃ info, StoredPdr sess s pdr info ∧ PdrLinked r s pdr info := by
  obtain ⟨info, stored, far, quer, urr⟩ := linking.stored pdr isDone
  refine ⟨info, stored, ?_, ?_, ?_⟩
  · obtain ⟨ie, -, farId⟩ := wf.far pdr member
    obtain ⟨a, entry, known, live, sameId, -, matched⟩ := linking.fars.live ie.farId ⟨pdr, isDone, farId⟩
    refine ⟨a, entry, ?_, live, ?_, fun other otherMember same => ?_⟩
    · rw [far, farId, bind_some, known]
    · rw [farId, sameId]
    · exact matched other otherMember (same.trans sameId)
  · rw [quer]
    refine linking.qers.listLinked (fun id mem => ⟨pdr, isDone, mem⟩) qers ?_
    rintro id node ⟨ends, rfl, matched⟩
    exact ⟨ends, rfl, matched⟩
  · rw [urr]
    refine linking.urrs.listLinked (fun id mem => ⟨pdr, isDone, mem⟩) urrs ?_
    rintro id node ⟨ends, rfl, matched⟩
    exact ⟨ends, rfl, matched⟩

end

section

variable {α : Type} {heap : Heap (Node α)} {head head' : Option Nat} {idOf : α → UInt32}
  {ids ids' : List UInt32} {Good : α → Prop}

theorem ListLinked.id_mem (linked : ListLinked heap head idOf ids Good) {l : List Nat} {a : Nat}
    {node : Node α} (chain : heap.Chain head l) (mem : a ∈ l) (live : heap.cells a = some node) :
    idOf node.data ∈ ids := by
  obtain ⟨addresses, chain', -, perm, -⟩ := linked
  rw [chain.unique chain'] at mem
  refine perm.mem_iff.mp (mem_map.mpr ⟨node.data, ?_, rfl⟩)
  exact mem_filterMap.mpr ⟨a, mem, by rw [live, map_some]⟩

theorem ListLinked.disjoint (first : ListLinked heap head idOf ids Good)
    (second : ListLinked heap head' idOf ids' Good) (ne : ids.Disjoint ids')
    (l l' : List Nat) (chain : heap.Chain head l) (chain' : heap.Chain head' l') : l.Disjoint l' := by
  intro a mem mem'
  obtain ⟨node, live⟩ := chain.live mem
  exact ne (first.id_mem chain mem live) (second.id_mem chain' mem' live)

variable {s : RuleState}

theorem PdrLinked.apart {r : EstabRequest} {p q : CreatePdr} {info info' : PdrInfo}
    (first : PdrLinked r s p info) (second : PdrLinked r s q info') :
    PdrsApart s p q info info' where
  far ne same := by
    obtain ⟨a, far, linked, live, named, -⟩ := first.far
    obtain ⟨b, far', linked', live', named', -⟩ := second.far
    obtain rfl : a = b := some.inj (linked.symm.trans (same.trans linked'))
    obtain rfl : far = far' := some.inj (live.symm.trans live')
    exact ne (named.trans named'.symm)
  qers ne := first.qers.disjoint second.qers ne
  urrs ne := first.urrs.disjoint second.urrs ne

theorem StoredPdr.unique {sess : PfcpSession} {pdr : CreatePdr} {info info' : PdrInfo}
    (first : StoredPdr sess s pdr info) (second : StoredPdr sess s pdr info') : info = info' := by
  obtain ⟨a, known, live⟩ := first
  obtain ⟨b, known', live'⟩ := second
  obtain rfl : a = b := some.inj (known.symm.trans known')
  exact some.inj (live.symm.trans live')

theorem rulesLinked_of_linked {r : EstabRequest} {sess : PfcpSession}
    (linked : ∀ pdr ∈ r.createPdrs, ∃ info, StoredPdr sess s pdr info ∧ PdrLinked r s pdr info) :
    RulesLinked r sess s where
  linked := linked
  apart p pMember q qMember info info' stored stored' := by
    obtain ⟨_, storedP, linkedP⟩ := linked p pMember
    obtain ⟨_, storedQ, linkedQ⟩ := linked q qMember
    obtain rfl := stored.unique storedP
    obtain rfl := stored'.unique storedQ
    exact linkedP.apart linkedQ

end

section

variable {pdr : CreatePdr}

def UpState.initial : UpState where
  contexts := {}
  rules :=
    { sessions := Heap.empty
      byTeid := Table.empty
      byUeip := Table.empty
      pdrs := RuleTable.empty
      fars := RuleTable.empty
      qers := RuleTable.empty
      urrs := RuleTable.empty
      predefQos := Table.empty
      upQerIndxOffset := 0
      teids := fun _ => [] }

def uplinkRequest (farIds : List UInt32) : EstabRequest where
  head :=
    { s := true
      seid := 0
      imsi := none
      cpFseid := ⟨1, true, false, 0x0a000001, NodeAddress.zeroIpv6⟩
      nodeId := .ipv4 0x0a000001
      peerPort := 8805 }
  createPdrs := farIds.zipIdx.map fun (farId, i) =>
    { pdrId := UInt16.ofNat (i + 1)
      precedence := none
      localFteid := some ⟨true, false, false, false, UInt32.ofNat (i + 1)⟩
      ueIpAddress := none
      outerHdrRemoval := none
      farId := some farId
      qerIds := [1]
      urrIds := [1]
      actvtPredefRules := [] }
  createFars := farIds.map fun farId =>
    { farId
      applyAction := some { forw := true }
      frwdngParms := some
        { dstIntfc := some 1
          outerHdrCreation := some
            ⟨true, false, 0, 0, farId, 2152, 0x0a000002, NodeAddress.zeroIpv6⟩ }
      barId := none
      dupngParms := [] }
  createQers := [⟨1, some ⟨0, 0⟩, none, some ⟨1000, 1000⟩, none, none, none, none, none, none, none,
    none, none⟩]
  createUrrs := [⟨1, some 4096, none, none, true, false, true, false⟩]

theorem freshRules_initial (sess : PfcpSession) : FreshRules sess UpState.initial.rules :=
  fun _ => ⟨rfl, rfl, rfl, rfl⟩

theorem uplinkRequest_wellFormed {farIds : List UInt32} (nodup : farIds.Nodup)
    (pdrIds : ((uplinkRequest farIds).createPdrs.map (·.pdrId)).Nodup) :
    (uplinkRequest farIds).WellFormed where
  pdrIds := pdrIds
  farIds := by simpa [uplinkRequest, Function.comp_def] using nodup
  qerIds := nodup_singleton _
  urrIds := nodup_singleton _
  far pdr member := by
    obtain ⟨⟨farId, i⟩, mem, rfl⟩ := mem_map.mp member
    exact ⟨_, mem_map_of_mem (fst_mem_of_mem_zipIdx mem), rfl⟩
  qer pdr member id named := by
    obtain ⟨⟨farId, i⟩, -, rfl⟩ := mem_map.mp member
    exact ⟨_, mem_singleton_self _, (mem_singleton.mp named).symm⟩
  urr pdr member id named := by
    obtain ⟨⟨farId, i⟩, -, rfl⟩ := mem_map.mp member
    exact ⟨_, mem_singleton_self _, (mem_singleton.mp named).symm⟩

def farIdOf (sess : PfcpSession) (s : RuleState) (pdrId : UInt16) : Option UInt32 := do
  let a ← s.pdrs.byId (sess.ruleKey pdrId.toUInt32)
  let info ← s.pdrs.heap.cells a
  let far ← info.far
  (s.fars.heap.cells far).map (·.farIdValue)

theorem RulesLinked.farIdOf_eq {sess : PfcpSession} {s : RuleState} {r : EstabRequest}
    (linked : RulesLinked r sess s) (mem : pdr ∈ r.createPdrs) :
    farIdOf sess s pdr.pdrId = pdr.farId := by
  obtain ⟨info, ⟨a, known, live⟩, pdrLinked⟩ := linked.linked pdr mem
  obtain ⟨b, far, linkedFar, farLive, named, -⟩ := pdrLinked.far
  simp [farIdOf, known, live, linkedFar, farLive, named]

end

end Epc.Up
