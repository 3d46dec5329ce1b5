import Epc.Up.Proof.Removal
import Epc.Up.Proof.RuleLinks

/-! The references to the FARs, QERs and URRs of a session over runs of PDR creations and removals. -/

namespace Epc.Up

open Epc.Lib List Option Heap

section

def pdrsOf (s : RuleState) (session : Nat) : List Nat :=
  ((s.sessions.cells session).map (·.pdrs)).getD []

def livePdrs (context : Nat) (s : DataState) : List Nat :=
  (s.sessionsOf context).flatMap (pdrsOf s.rules)

def liveInfos (context : Nat) (s : DataState) : List PdrInfo :=
  (livePdrs context s).filterMap s.rules.pdrs.heap.cells

def farRefs (context : Nat) (s : DataState) (a : Nat) : Nat :=
  (liveInfos context s).countP fun info => info.far = some a

def urrRefs (context : Nat) (s : DataState) (a : Nat) : Nat :=
  (liveInfos context s).countP fun info =>
    a ∈ s.rules.urrs.heap.addresses s.rules.urrs.heap.next info.urr

/-- A session's FARs and URRs count the PDRs that refer to them and are there as long as there is
one, and the QERs its PDRs refer to are there. -/
structure RefCounts (sess : PfcpSession) (context : Nat) (s : DataState) : Prop where
  live : ∀ p ∈ livePdrs context s, ∃ info, s.rules.pdrs.heap.cells p = some info
  farCount : ∀ a, 0 < farRefs context s a →
    ∃ far, s.rules.fars.heap.cells a = some far ∧ far.pdrCount.toNat = farRefs context s a
  farListed : ∀ a, (∃ id, s.rules.fars.byId (sess.ruleKey id) = some a) ↔ 0 < farRefs context s a
  urrCount : ∀ a, 0 < urrRefs context s a →
    ∃ node, s.rules.urrs.heap.cells a = some node ∧
      node.data.pdrCount.toNat = urrRefs context s a
  urrListed : ∀ a, (∃ id, s.rules.urrs.byId (sess.ruleKey id) = some a) ↔ 0 < urrRefs context s a
  qers : ∀ info ∈ liveInfos context s, ∃ l, s.rules.qers.heap.Chain info.quer l

/-- No QER that a PDR still refers to has lost its place in the hash. -/
def QersKept (context : Nat) (s s' : DataState) : Prop :=
  ∀ info ∈ liveInfos context s', ∀ l, s'.rules.qers.heap.Chain info.quer l →
    ∀ a ∈ l, ∀ key, s.rules.qers.byId key = some a → s'.rules.qers.byId key = some a

inductive PdrOp where
  | create (pdr : CreatePdr)
  | remove (now : UInt32) (ruleId : UInt16)

def CreatePdr.knownData (pdr : CreatePdr) (s : RuleState) : Option Nat :=
  if pdr.teid ≠ 0 then s.byTeid pdr.teid
  else pdr.ueIpAddress.bind fun ue =>
    if ue.v4 then s.byUeip { ueIpv4 := ue.ipv4Address, ueIpv6 := NodeAddress.zeroIpv6 }
    else if ue.v6 then s.byUeip { ueIpv4 := 0, ueIpv6 := ue.ipv6Address }
    else none

/-- A PDR with an unused id, for session data of the session, with at most one QER and one URR,
whose FAR and URR can count one more. -/
@[mk_iff] structure CreateAllowed (sess : PfcpSession) (context : Nat) (pdr : CreatePdr)
    (s : DataState) : Prop where
  newId : s.rules.pdrs.byId (sess.ruleKey pdr.pdrId.toUInt32) = none
  session : ∀ a ∈ pdr.knownData s.rules, a ∈ s.sessionsOf context
  qers : pdr.qerIds.length ≤ 1
  urrs : pdr.urrIds.length ≤ 1
  farRoom : ∀ a ∈ pdr.farId.bind fun id => s.rules.fars.byId (farKey sess id),
    ∀ far ∈ s.rules.fars.heap.cells a, far.pdrCount.toNat < 2 ^ 16 - 1
  urrRoom : ∀ a ∈ pdr.urrIds.filterMap fun id => s.rules.urrs.byId (sess.ruleKey id),
    ∀ node ∈ s.rules.urrs.heap.cells a, node.data.pdrCount.toNat < 2 ^ 16 - 1

instance (sess : PfcpSession) (context : Nat) (pdr : CreatePdr) (s : DataState) :
    Decidable (CreateAllowed sess context pdr s) :=
  decidable_of_iff' _ (createAllowed_iff sess context pdr s)

def querList (s : RuleState) (info : PdrInfo) : List Nat :=
  s.qers.heap.addresses s.qers.heap.next info.quer

/-- The removed PDR is not the session's only one, and no other has one of its QERs or the QER under
one of their ids. -/
@[mk_iff] structure RemoveAllowed (sess : PfcpSession) (context : Nat) (ruleId : UInt16)
    (s : DataState) : Prop where
  others : ∀ p ∈ livePdrs context s, ∀ info ∈ s.rules.pdrs.heap.cells p,
    info.ruleId = ruleId → ∃ q ∈ livePdrs context s, q ≠ p
  unshared : ∀ p ∈ livePdrs context s, ∀ info ∈ s.rules.pdrs.heap.cells p,
    info.ruleId = ruleId → ∀ q ∈ livePdrs context s, q ≠ p →
    ∀ other ∈ s.rules.pdrs.heap.cells q, ∀ a ∈ querList s.rules info,
      a ∉ querList s.rules other ∧ ∀ node ∈ s.rules.qers.heap.cells a,
        ∀ b ∈ querList s.rules other, s.rules.qers.byId (sess.ruleKey node.data.qerId) ≠ some b

instance (sess : PfcpSession) (context : Nat) (ruleId : UInt16) (s : DataState) :
    Decidable (RemoveAllowed sess context ruleId s) :=
  decidable_of_iff' _ (removeAllowed_iff sess context ruleId s)

namespace PdrOp

variable (t : SessionTable) (upSeid : UInt64) (sess : PfcpSession) (context : Nat)

def exec (op : PdrOp) (s : DataState) : Except Fault DataState :=
  match op with
  | create pdr => createPdr sess context pdr s
  | remove now ruleId => (processRemovePdrSess t upSeid now ruleId s).map (·.2)

def Allowed (op : PdrOp) (s : DataState) : Prop :=
  match op with
  | create pdr => CreateAllowed sess context pdr s
  | remove _ ruleId => RemoveAllowed sess context ruleId s

def step (s : DataState) (op : PdrOp) : DataState :=
  match op.exec t upSeid sess context s with
  | .ok s' => s'
  | .error _ => s

def ok (s : DataState) (op : PdrOp) : Prop :=
  op.exec t upSeid sess context s ≠ .error .rejected ∧ op.Allowed sess context s

instance (op : PdrOp) (s : DataState) : Decidable (op.Allowed sess context s) :=
  match op with
  | create pdr => inferInstanceAs (Decidable (CreateAllowed sess context pdr s))
  | remove _ ruleId => inferInstanceAs (Decidable (RemoveAllowed sess context ruleId s))

instance (result : Except Fault DataState) : Decidable (result = .error .rejected) :=
  match result with
  | .error .rejected => isTrue rfl
  | .error .undefined => isFalse nofun
  | .ok _ => isFalse nofun

instance (s : DataState) (op : PdrOp) : Decidable (ok t upSeid sess context s op) :=
  inferInstanceAs (Decidable (_ ∧ _))

end PdrOp

end

/-- The list of a referenced URR ends with it. -/
def UrrsEnd (urrs : RuleTable (Node UrrRule)) (refs : List Nat) : Prop :=
  ∀ a ∈ refs, ∀ node, urrs.heap.cells a = some node → node.next = none

structure RefInv (sess : PfcpSession) (context : Nat) (s : DataState) : Prop where
  sessions : (s.sessionsOf context).Nodup
  filled : ∀ session ∈ s.sessionsOf context,
    ∃ data, s.rules.sessions.cells session = some data ∧ data.pdrs ≠ []
  distinct : (livePdrs context s).Nodup
  pdrs : ∀ p ∈ livePdrs context s, ∃ info, s.rules.pdrs.heap.cells p = some info ∧
    s.rules.pdrs.byId (sess.ruleKey info.ruleId.toUInt32) = some p ∧
    (info.urrCount = 0 ∨ info.urrCount = 1 ∧ info.urr ≠ none)
  fars : farCounts sess s.rules.fars ((liveInfos context s).filterMap (·.far))
  urrs : urrCounts sess s.rules.urrs ((liveInfos context s).filterMap (·.urr))
  urrEnds : UrrsEnd s.rules.urrs ((liveInfos context s).filterMap (·.urr))
  qers : ∀ info ∈ liveInfos context s, ∃ l, s.rules.qers.heap.Chain info.quer l
  qersListed : ∀ id a, s.rules.qers.byId (sess.ruleKey id) = some a →
    (∃ info ∈ liveInfos context s, info.quer = some a) ∧
      ∃ node, s.rules.qers.heap.cells a = some node ∧ node.data.qerId = id

section

variable {sess : PfcpSession} {context : Nat} {s s' : DataState}

theorem Counts.listed_iff {Entry : Type} {t : RuleTable Entry} {count : Entry → Nat}
    {keyOf : Entry → RuleKey} {refs : List Nat}
    (counts : Counts t (fun key => ∃ id, key = sess.ruleKey id) count keyOf refs) (a : Nat) :
    (∃ id, t.byId (sess.ruleKey id) = some a) ↔ 0 < refs.count a := by
  rw [count_pos_iff]
  constructor
  · rintro ⟨id, known⟩
    exact (counts.listed _ a ⟨id, rfl⟩ known).1
  · intro mem
    obtain ⟨e, -, -, ⟨id, key_eq⟩, known⟩ := counts.held a mem
    exact ⟨id, key_eq ▸ known⟩

theorem farRefs_eq (context : Nat) (s : DataState) (a : Nat) :
    farRefs context s a = ((liveInfos context s).filterMap (·.far)).count a := by
  rw [count_filterMap]
  exact countP_congr fun info _ => by simp

theorem RefInv.urrRefs_eq (inv : RefInv sess context s) (a : Nat) :
    urrRefs context s a = ((liveInfos context s).filterMap (·.urr)).count a := by
  rw [count_filterMap]
  refine countP_congr fun info mem => ?_
  cases urr : info.urr with
  | none =>
    have none : s.rules.urrs.heap.addresses s.rules.urrs.heap.next none = [] := by
      cases s.rules.urrs.heap.next <;> rfl
    simp [none]
  | some b =>
    have refers : b ∈ (liveInfos context s).filterMap (·.urr) :=
      mem_filterMap.mpr ⟨info, mem, urr⟩
    obtain ⟨node, live, -⟩ := inv.urrs.held b refers
    have chain : s.rules.urrs.heap.Chain (some b) [b] :=
      (Heap.Chain.singleton_iff live (inv.urrEnds b refers node live)).mpr rfl
    rw [chain.addresses_eq chain.length_le]
    simp only [mem_singleton, decide_eq_true_eq, beq_iff_eq, some.injEq]
    exact eq_comm

theorem RefInv.refCounts (inv : RefInv sess context s) : RefCounts sess context s where
  live p mem := by
    obtain ⟨info, live, -⟩ := inv.pdrs p mem
    exact ⟨info, live⟩
  farCount a referred := by
    rw [farRefs_eq] at referred ⊢
    obtain ⟨far, live, number, -⟩ := inv.fars.held a (count_pos_iff.mp referred)
    exact ⟨far, live, number⟩
  farListed a := by
    rw [farRefs_eq]
    exact inv.fars.listed_iff a
  urrCount a referred := by
    rw [inv.urrRefs_eq] at referred ⊢
    obtain ⟨node, live, number, -⟩ := inv.urrs.held a (count_pos_iff.mp referred)
    exact ⟨node, live, number⟩
  urrListed a := by
    rw [inv.urrRefs_eq]
    exact inv.urrs.listed_iff a
  qers := inv.qers

theorem refInv_start (none : s.sessionsOf context = []) (fresh : FreshRules sess s.rules) :
    RefInv sess context s := by
  have noPdrs : livePdrs context s = [] := by rw [livePdrs, none, flatMap_nil]
  have noInfos : liveInfos context s = [] := by rw [liveInfos, noPdrs, filterMap_nil]
  refine ⟨?_, ?_, ?_, ?_, ?_, ?_, ?_, ?_, ?_⟩
  · rw [none]
    exact nodup_nil
  · rw [none]
    exact forall_mem_nil _
  · rw [noPdrs]
    exact nodup_nil
  · rw [noPdrs]
    exact forall_mem_nil _
  · rw [noInfos]
    refine Counts.nil ?_
    rintro _ ⟨id, rfl⟩
    exact (fresh id).2.1
  · rw [noInfos]
    refine Counts.nil ?_
    rintro _ ⟨id, rfl⟩
    exact (fresh id).2.2.2
  · rw [noInfos]
    exact forall_mem_nil _
  · rw [noInfos]
    exact forall_mem_nil _
  · intro id a known
    rw [(fresh id).2.2.1] at known
    cases known

end

section

variable {sess : PfcpSession} {context session : Nat} {pdr : CreatePdr} {s : DataState}

theorem getPfcpSessionData_data (pdr : CreatePdr) (s : RuleState) :
    ((getPfcpSessionData pdr s).1 = none ∧ (getPfcpSessionData pdr s).2 = s) ∨
      (∃ a, pdr.knownData s = some a ∧ (getPfcpSessionData pdr s).1 = some a ∧
        (getPfcpSessionData pdr s).2.sessions = s.sessions) ∨
      ((getPfcpSessionData pdr s).1 = some s.sessions.next ∧
        (getPfcpSessionData pdr s).2.sessions = s.sessions.alloc {}) := by
  unfold getPfcpSessionData CreatePdr.knownData
  by_cases teid : pdr.teid ≠ 0
  · rw [if_pos teid, if_pos teid, getSessByTeidEntry]
    cases known : s.byTeid pdr.teid with
    | some a => exact .inr (.inl ⟨a, rfl, rfl, rfl⟩)
    | none => exact .inr (.inr ⟨rfl, rfl⟩)
  · rw [if_neg teid, if_neg teid]
    cases pdr.ueIpAddress with
    | none => exact .inl ⟨rfl, rfl⟩
    | some ue =>
      simp only [bind_some]
      cases v4 : ue.v4 with
      | true =>
        cases known : s.byUeip ⟨ue.ipv4Address, NodeAddress.zeroIpv6⟩ <;> cases ue.v6 <;>
          simp [getSessByUeipEntry, known]
      | false =>
        cases v6 : ue.v6 with
        | true =>
          cases known : s.byUeip ⟨0, ue.ipv6Address⟩ <;> simp [getSessByUeipEntry, known]
        | false => exact .inl ⟨rfl, rfl⟩

structure Placed (context session : Nat) (s s₁ : DataState) : Prop where
  same : SameRules s.rules s₁.rules
  member : session ∈ s₁.sessionsOf context
  sessions : (s₁.sessionsOf context).Nodup
  live : ∃ data, s₁.rules.sessions.cells session = some data
  filled : ∀ other ∈ s₁.sessionsOf context, other ≠ session →
    ∃ data, s₁.rules.sessions.cells other = some data ∧ data.pdrs ≠ []
  pdrs : livePdrs context s₁ = livePdrs context s

theorem RefInv.placed (inv : RefInv sess context s)
    (own : ∀ a ∈ pdr.knownData s.rules, a ∈ s.sessionsOf context)
    (found : (sessionData context pdr s).1 = some session) :
    Placed context session s (sessionData context pdr s).2 := by
  have same := getPfcpSessionData_same pdr s.rules
  have fresh : s.rules.sessions.next ∉ s.sessionsOf context := by
    intro member
    obtain ⟨data, live, -⟩ := inv.filled _ member
    exact (live_lt live).ne rfl
  rcases getPfcpSessionData_data pdr s.rules with ⟨missed, -⟩ | ⟨a, known, hit, sessions⟩ | ⟨hit, sessions⟩
  · rw [sessionData, missed] at found
    cases found
  · have isSession : a = session := by
      rw [sessionData, hit] at found
      exact some.inj found
    subst isSession
    have member := own a known
    have notNew : ¬ (getPfcpSessionData pdr s.rules).1 = some s.rules.sessions.next := by
      rw [hit, some.injEq]
      rintro rfl
      exact fresh member
    have kept : (sessionData context pdr s).2.sessionsOf context = s.sessionsOf context := by
      simp only [sessionData, notNew, if_false, Function.update_self]
    have cells : (sessionData context pdr s).2.rules.sessions = s.rules.sessions := sessions
    exact {
      same := same
      member := kept ▸ member
      sessions := kept ▸ inv.sessions
      live := by
        obtain ⟨data, live, -⟩ := inv.filled a member
        exact ⟨data, cells ▸ live⟩
      filled := by
        rw [kept, cells]
        exact fun other isMember _ => inv.filled other isMember
      pdrs := by
        rw [livePdrs, livePdrs, kept]
        exact flatMap_congr fun other _ => by rw [pdrsOf, pdrsOf, cells] }
  · have isSession : s.rules.sessions.next = session := by
      rw [sessionData, hit] at found
      exact some.inj found
    subst isSession
    have grown : (sessionData context pdr s).2.sessionsOf context =
        s.sessionsOf context ++ [s.rules.sessions.next] := by
      simp only [sessionData, hit, if_true, Function.update_self]
    have cells : (sessionData context pdr s).2.rules.sessions = s.rules.sessions.alloc {} := sessions
    have old : ∀ other ∈ s.sessionsOf context,
        (s.rules.sessions.alloc {}).cells other = s.rules.sessions.cells other :=
      fun other isMember => alloc_cells_of_ne fun isNew => fresh (isNew ▸ isMember)
    exact {
      same := same
      member := grown ▸ mem_append_right _ (mem_singleton_self _)
      sessions := by
        rw [grown]
        exact nodup_append.mpr ⟨inv.sessions, nodup_singleton _,
          fun a isMember b isNew => fun sameAddress => fresh (by
            rw [← mem_singleton.mp isNew, ← sameAddress]
            exact isMember)⟩
      live := ⟨{}, by rw [cells, alloc_cells_next]⟩
      filled := by
        rw [grown, cells]
        intro other isMember notNew
        rcases mem_append.mp isMember with isOld | isNew
        · rw [old other isOld]
          exact inv.filled other isOld
        · exact absurd (mem_singleton.mp isNew) notNew
      pdrs := by
        rw [livePdrs, livePdrs, grown, flatMap_append]
        have newEmpty : pdrsOf (sessionData context pdr s).2.rules s.rules.sessions.next = [] := by
          rw [pdrsOf, cells, alloc_cells_next]
          rfl
        rw [flatMap_singleton, newEmpty, append_nil]
        refine flatMap_congr fun other isMember => ?_
        rw [pdrsOf, pdrsOf, cells, old other isMember] }

end

section

variable {sess : PfcpSession} {refs : List Nat}

theorem linkFar_counts {t : RuleTable FarInfo} (counts : farCounts sess t refs) (farId : Option UInt32)
    (room : ∀ a ∈ farId.bind fun id => t.byId (farKey sess id), ∀ far ∈ t.heap.cells a,
      far.pdrCount.toNat < 2 ^ 16 - 1) :
    farCounts sess (linkFar sess farId none t).2 ((linkFar sess farId none t).1.toList ++ refs) := by
  cases farId with
  | none => exact counts
  | some id =>
    rw [linkFar_some]
    refine counts.link ⟨_, rfl⟩ (fun _ => rfl) rfl fun a far known live => ?_
    have small := room a known far live
    exact Nat.mod_eq_of_lt (by simpa using Nat.add_lt_of_lt_sub small)

theorem linkUrrs_counts {t t' : RuleTable (Node UrrRule)} {ids : List UInt32} {urr : Option Nat}
    (counts : urrCounts sess t refs) (short : ids.length ≤ 1)
    (linked : linkUrrs sess 0 ids none t = .ok (urr, t'))
    (room : ∀ a ∈ ids.filterMap fun id => t.byId (sess.ruleKey id), ∀ node ∈ t.heap.cells a,
      node.data.pdrCount.toNat < 2 ^ 16 - 1)
    (ends : UrrsEnd t refs) :
    urrCounts sess t' (urr.toList ++ refs) ∧ UrrsEnd t' (urr.toList ++ refs) ∧
      (ids = [] ∧ urr = none ∨ ids.length = 1 ∧ urr ≠ none) := by
  rcases linkUrrs_ok short linked with ⟨rfl, rfl, rfl⟩ | ⟨id, rfl, rfl, rfl⟩
  · exact ⟨counts, ends, .inl ⟨rfl, rfl⟩⟩
  · refine ⟨?_, ?_, .inr ⟨rfl, by simp⟩⟩
    · refine counts.link ⟨_, rfl⟩ (fun _ => rfl) rfl fun a node known live => ?_
      have small := room a (mem_filterMap.mpr ⟨id, mem_singleton_self id, known⟩) node live
      exact Nat.mod_eq_of_lt (by simpa using Nat.add_lt_of_lt_sub small)
    · obtain ⟨e, up⟩ := RuleTable.upserted ({ data := UrrRule.zero } : Node UrrRule)
        (Node.modify (urrLink id)) fun b known =>
          (counts.listed _ b ⟨id, rfl⟩ known).2.imp fun _ => And.left
      generalize t.upsert _ _ _ = u at up ⊢
      intro a mem node live
      by_cases same : a = u.1
      · rw [same, up.here, some.injEq] at live
        subst live
        rcases up.origin with ⟨-, -, rfl⟩ | ⟨known, oldLive⟩
        · rfl
        · exact ends _ (counts.listed _ _ ⟨id, rfl⟩ known).1 e oldLive
      · rw [up.elsewhere a same] at live
        exact ends a ((mem_cons.mp mem).resolve_left same) node live

structure ListsKept (heap heap' : Heap (Node QerInfo)) : Prop where
  chains : ∀ head l, heap.Chain head l → ∃ l', heap'.Chain head l'
  ids : ∀ a node, heap.cells a = some node →
    ∃ node', heap'.cells a = some node' ∧ node'.data.qerId = node.data.qerId

variable {heap : Heap (Node QerInfo)}

theorem ListsKept.trans {heap' heap'' : Heap (Node QerInfo)} (first : ListsKept heap heap')
    (second : ListsKept heap' heap'') : ListsKept heap heap'' where
  chains head l chain := by
    obtain ⟨l', chain'⟩ := first.chains head l chain
    exact second.chains head l' chain'
  ids a node live := by
    obtain ⟨node', live', same⟩ := first.ids a node live
    obtain ⟨node'', live'', same'⟩ := second.ids a node' live'
    exact ⟨node'', live'', same'.trans same⟩

theorem ListsKept.refl (heap : Heap (Node QerInfo)) : ListsKept heap heap :=
  ⟨fun _ l chain => ⟨l, chain⟩, fun _ node live => ⟨node, live, rfl⟩⟩

theorem ListsKept.of_cells {heap' : Heap (Node QerInfo)} (cells : ∀ a node, heap.cells a = some node →
      ∃ node', heap'.cells a = some node' ∧ node'.next = node.next ∧
        node'.data.qerId = node.data.qerId) : ListsKept heap heap' where
  chains head l chain := by
    refine ⟨l, chain.frame fun a mem => ?_⟩
    obtain ⟨node, live⟩ := chain.live mem
    obtain ⟨node', live', next, -⟩ := cells a node live
    rw [live, live', map_some, map_some, next]
  ids a node live := by
    obtain ⟨node', live', -, same⟩ := cells a node live
    exact ⟨node', live', same⟩

theorem ListsKept.alloc (heap : Heap (Node QerInfo)) (node : Node QerInfo) :
    ListsKept heap (heap.alloc node) := by
  refine .of_cells fun a old live => ⟨old, ?_, rfl, rfl⟩
  rw [alloc_cells_of_ne (live_lt live).ne, live]

theorem insertNode_keeps {head : Option Nat} {l : List Nat} (chain : heap.Chain head l) (qer : QerInfo) :
    ∃ head' heap' l', insertNode (heap.alloc { data := qer }) head heap.next = .ok (head', heap') ∧
      heap'.Chain head' l' ∧ ListsKept heap heap' ∧ (∀ a, head = some a → head' = some a) := by
  cases head with
  | none =>
    refine ⟨some heap.next, heap.alloc { data := qer }, [heap.next], rfl, ?_, .alloc heap _,
      fun _ known => by cases known⟩
    exact .cons (alloc_cells_next _ _) .nil
  | some first =>
    have chain' : (heap.alloc { data := qer }).Chain (some first) l := chain.frame fun a mem => by
      obtain ⟨node, live⟩ := chain.live mem
      rw [alloc_cells_of_ne (live_lt live).ne]
    obtain ⟨last, lastCell, found, mem, lastLive, ends⟩ := chain'.lastNode chain'.length_le
    have oldLive : heap.cells last = some lastCell := by
      obtain ⟨node, live⟩ := chain.live mem
      rwa [alloc_cells_of_ne (live_lt live).ne] at lastLive
    have inserted : insertNode (heap.alloc { data := qer }) (some first) heap.next =
        .ok (some first, (heap.alloc { data := qer }).update last
          fun node => { node with next := some heap.next }) := by
      simp only [insertNode, found]
    refine ⟨_, _, _, inserted, chain.append _ oldLive ends rfl, ⟨fun head l other =>
      ⟨_, other.append _ oldLive ends rfl⟩, fun a node live => ?_⟩, fun _ known => known⟩
    have old : (heap.alloc { data := qer }).cells a = heap.cells a :=
      alloc_cells_of_ne (live_lt live).ne
    by_cases same : a = last
    · subst same
      exact ⟨{ node with next := some heap.next },
        by rw [update_cells_self, old, live, map_some], rfl⟩
    · exact ⟨node, by rw [update_cells_of_ne same, old, live], rfl⟩

theorem linkPredefRules_keeps (predefQos : Table (List UInt8) PredefQos) (session : Nat)
    (names : List (List UInt8)) (offset : UInt32) {head : Option Nat}
    {l : List Nat} (chain : heap.Chain head l) :
    ∃ offset' head' heap' l', linkPredefRules predefQos session names offset head heap =
        .ok (offset', head', heap') ∧
      heap'.Chain head' l' ∧ ListsKept heap heap' ∧ ∀ a, head = some a → head' = some a := by
  induction names generalizing offset head heap l with
  | nil => exact ⟨offset, head, heap, l, rfl, chain, .refl heap, fun _ known => known⟩
  | cons name names ih =>
    rw [linkPredefRules]
    cases predefQos name with
    | none => exact ih offset chain
    | some qos =>
      simp only
      obtain ⟨head₁, heap₁, l₁, inserted, chain₁, kept₁, same₁⟩ := insertNode_keeps chain
        { qerId := offset + 1
          gateStatus := qos.gateStatus
          maxBitrate := qos.maxBitrate
          guaranteedBitrate := qos.guaranteedBitrate
          session := some session }
      obtain ⟨offset', head', heap', l', linked, chain', kept', same'⟩ := ih (offset + 1) chain₁
      refine ⟨offset', head', heap', l', ?_, chain', kept₁.trans kept',
        fun a known => same' a (same₁ a known)⟩
      rw [inserted, except_ok_bind]
      exact linked

theorem linkQers_keeps {t : RuleTable (Node QerInfo)} {ids : List UInt32} (short : ids.length ≤ 1)
    (listed : ∀ id a, t.byId (sess.ruleKey id) = some a →
      (∃ l, t.heap.Chain (some a) l) ∧ ∃ node, t.heap.cells a = some node ∧ node.data.qerId = id) :
    ∃ quer t' l, linkQers sess 0 ids none t = .ok (quer, t') ∧ t'.heap.Chain quer l ∧
      ListsKept t.heap t'.heap ∧
      (∀ key a, t.byId key = some a → t'.byId key = some a) ∧
      ∀ id a, t'.byId (sess.ruleKey id) = some a → t.byId (sess.ruleKey id) = some a ∨
        quer = some a ∧ ∃ node, t'.heap.cells a = some node ∧ node.data.qerId = id := by
  obtain ⟨quer, t', linked, -⟩ := linkListed_short sess (fun _ _ _ _ => rfl) short t
  refine ⟨quer, t', ?_⟩
  rcases linkQers_ok short linked with ⟨-, rfl, rfl⟩ | ⟨id, -, rfl, rfl⟩
  · exact ⟨[], linked, .nil, .refl _, fun _ _ known => known, fun _ _ known => .inl known⟩
  · beta_reduce at linked ⊢
    obtain ⟨e, up⟩ := RuleTable.upserted ({ data := { qerId := id } } : Node QerInfo)
      (Node.modify (qerLink id)) fun b known => (listed id b known).2.imp fun _ => And.left
    have byId := @RuleTable.upsert_byId_of_some _ t (sess.ruleKey id) { data := { qerId := id } }
      (Node.modify (qerLink id))
    generalize t.upsert _ _ _ = u at up linked byId ⊢
    have kept : ListsKept t.heap u.2.heap := by
      refine .of_cells fun a node live => ?_
      by_cases same : a = u.1
      · rw [same] at live ⊢
        rcases up.origin with ⟨-, free, -⟩ | ⟨known, oldLive⟩
        · rw [free] at live
          cases live
        · obtain ⟨-, old, oldLive', oldId⟩ := listed id _ known
          obtain rfl : e = node := some.inj (oldLive.symm.trans live)
          obtain rfl : old = e := some.inj (oldLive'.symm.trans live)
          exact ⟨_, up.here, rfl, oldId.symm⟩
      · exact ⟨node, (up.elsewhere a same).trans live, rfl, rfl⟩
    obtain ⟨l, chain⟩ : ∃ l, u.2.heap.Chain (some u.1) l := by
      rcases up.origin with ⟨-, -, rfl⟩ | ⟨known, -⟩
      · exact ⟨_, .cons up.here .nil⟩
      · obtain ⟨⟨l, chain⟩, -⟩ := listed id _ known
        exact kept.chains _ l chain
    refine ⟨l, linked, chain, kept, fun _ _ => byId, fun other a after => ?_⟩
    rw [up.byId] at after
    by_cases same : sess.ruleKey other = sess.ruleKey id
    · obtain rfl := ruleKey_injective sess same
      rw [Table.add_self, some.injEq] at after
      subst after
      exact .inr ⟨rfl, _, up.here, rfl⟩
    · rw [Table.add_of_ne same] at after
      exact .inl after

end

section

variable {sess : PfcpSession} {context session : Nat} {pdr : CreatePdr} {s s' : RuleState}

theorem processCreatePdrInfo_runs (context session : Nat)
    (absent : s.pdrs.byId (sess.ruleKey pdr.pdrId.toUInt32) = none)
    (fixed : ¬ pdr.Chooses) (shortQers : pdr.qerIds.length ≤ 1) (shortUrrs : pdr.urrIds.length ≤ 1)
    (listed : ∀ id a, s.qers.byId (sess.ruleKey id) = some a →
      (∃ l, s.qers.heap.Chain (some a) l) ∧
        ∃ node, s.qers.heap.cells a = some node ∧ node.data.qerId = id) :
    ∃ s' l, processCreatePdrInfo sess context session pdr s = .ok s' ∧
      Created sess session pdr s s' l ∧ l.Made sess session pdr s s.upQerIndxOffset ∧
      (∃ a, l.heap.Chain l.predef a) ∧ ListsKept s.qers.heap l.heap ∧
      (∀ key a, s.qers.byId key = some a → l.qers.byId key = some a) ∧
      ∀ id a, l.qers.byId (sess.ruleKey id) = some a → s.qers.byId (sess.ruleKey id) = some a ∨
        l.predef = some a ∧ ∃ node, l.heap.cells a = some node ∧ node.data.qerId = id := by
  obtain ⟨quer, qers, l, qersLinked, chain, kept, byId, new⟩ := linkQers_keeps shortQers listed
  obtain ⟨urr, urrs, urrsLinked, -⟩ := linkListed_short sess (fun _ _ _ _ => rfl) shortUrrs s.urrs
  obtain ⟨offset', quer', heap', l', predefLinked, chain', kept', same⟩ :=
    linkPredefRules_keeps s.predefQos session pdr.actvtPredefRules s.upQerIndxOffset chain
  have made : Links.Made ⟨quer, qers, urr, urrs, offset', quer', heap'⟩ sess session pdr s
    s.upQerIndxOffset := ⟨qersLinked, urrsLinked, predefLinked⟩
  obtain ⟨s', run, created⟩ := processCreatePdrInfo_absent context absent fixed made
  refine ⟨s', _, run, created, made, ⟨l', chain'⟩, kept.trans kept', byId, fun id a known => ?_⟩
  rcases new id a known with old | ⟨isHead, node, live, sameId⟩
  · exact .inl old
  · obtain ⟨node', live', sameId'⟩ := kept'.ids a node live
    exact .inr ⟨same a isHead, node', live', sameId'.trans sameId⟩

theorem filterMap_cons_toList {α β : Type} (f : α → Option β) (x : α) (l : List α) :
    (x :: l).filterMap f = (f x).toList ++ l.filterMap f := by
  cases h : f x <;> simp [h]

theorem liveInfos_perm {t t' : DataState} {p : Nat} {info : PdrInfo}
    (perm : (livePdrs context t').Perm (p :: livePdrs context t))
    (here : t'.rules.pdrs.heap.cells p = some info)
    (same : ∀ q ∈ livePdrs context t, t'.rules.pdrs.heap.cells q = t.rules.pdrs.heap.cells q) :
    (liveInfos context t').Perm (info :: liveInfos context t) := by
  have list := perm.filterMap t'.rules.pdrs.heap.cells
  rw [filterMap_cons_some here, filterMap_congr same] at list
  exact list

theorem sessionData_none {t : DataState} (missing : (sessionData context pdr t).1 = none) :
    sessionData context pdr t = (none, t) := by
  have noData : (getPfcpSessionData pdr t.rules).1 = none := missing
  have rules : (getPfcpSessionData pdr t.rules).2 = t.rules := by
    rcases getPfcpSessionData_data pdr t.rules with ⟨-, same⟩ | ⟨a, -, some, -⟩ | ⟨some, -⟩
    · exact same
    · rw [some] at noData
      cases noData
    · rw [some] at noData
      cases noData
  simp [sessionData, noData, rules]

section

variable {t t₁ t' : DataState} {info : PdrInfo}

section

variable (placed : Placed context session t t₁)
  (sessionsOf : t'.sessionsOf context = t₁.sessionsOf context) {p : Nat}
  (cells : GainsPdr session p t₁.rules t'.rules)

include placed sessionsOf cells

theorem Placed.perm : (livePdrs context t').Perm (p :: livePdrs context t) := by
  rw [← placed.pdrs, livePdrs, livePdrs, sessionsOf]
  refine flatMap_perm_cons placed.member placed.sessions ?_ fun other ne => ?_
  · obtain ⟨data, live⟩ := placed.live
    rw [pdrsOf, cells, if_pos rfl, pdrsOf, live]
    exact perm_append_singleton p data.pdrs
  · rw [pdrsOf, pdrsOf, cells, if_neg ne]

theorem Placed.filledAfter :
    ∀ other ∈ t'.sessionsOf context,
      ∃ data, t'.rules.sessions.cells other = some data ∧ data.pdrs ≠ [] := by
  intro other mem
  rw [sessionsOf] at mem
  have cell := cells other
  by_cases same : other = session
  · obtain ⟨data, live⟩ := placed.live
    rw [if_pos same, same, live, map_some, map_eq_some_iff] at cell
    obtain ⟨data', live', pdrs⟩ := cell
    exact ⟨data', same ▸ live', by simp [pdrs]⟩
  · obtain ⟨data, live, filled⟩ := placed.filled other mem same
    rw [if_neg same, live, map_some, map_eq_some_iff] at cell
    obtain ⟨data', live', pdrs⟩ := cell
    exact ⟨data', live', pdrs ▸ filled⟩

end

end

theorem RefInv.create {t : DataState} (inv : RefInv sess context t)
    (allowed : CreateAllowed sess context pdr t)
    (accepted : createPdr sess context pdr t ≠ .error .rejected) :
    ∃ t', createPdr sess context pdr t = .ok t' ∧ RefInv sess context t' ∧ QersKept context t t' := by
  cases found : (sessionData context pdr t).1 with
  | none =>
    refine ⟨t, ?_, inv, fun _ _ _ _ _ _ _ known => known⟩
    rw [createPdr, sessionData_none found]
  | some session =>
    obtain ⟨t₁, data_eq⟩ : ∃ t₁, sessionData context pdr t = (some session, t₁) :=
      ⟨_, Prod.ext found rfl⟩
    have placed : Placed context session t t₁ := by
      have placed := inv.placed allowed.session found
      rwa [data_eq] at placed
    obtain ⟨data, dataLive⟩ := placed.live
    have unfolded : createPdr sess context pdr t =
        (processCreatePdrInfo sess context session pdr t₁.rules >>= fun rules =>
          .ok { t₁ with rules }) := by
      simp only [createPdr, data_eq, dataLive]
    rw [unfolded] at accepted ⊢
    have fixed : ¬ pdr.Chooses := by
      intro chooses
      rw [processCreatePdrInfo_chooses context chooses] at accepted
      exact accepted rfl
    have same := placed.same
    have absent : t₁.rules.pdrs.byId (sess.ruleKey pdr.pdrId.toUInt32) = none := by
      rw [same.pdrs]
      exact allowed.newId
    obtain ⟨rules, l, run, created, made, chain, kept, byId, new⟩ :=
      processCreatePdrInfo_runs context session absent fixed allowed.qers allowed.urrs (by
        rw [same.qers]
        intro id a known
        obtain ⟨⟨info, mem, isHead⟩, node⟩ := inv.qersListed id a known
        exact ⟨isHead ▸ inv.qers info mem, node⟩)
    obtain ⟨info, cell, far, infoQuer, infoUrr, infoId, infoCount⟩ := created.cell
    have cells := created.sessions
    rw [same.pdrs] at cell cells
    rw [run, except_ok_bind]
    have sameList : ({ t₁ with rules } : DataState).sessionsOf context = t₁.sessionsOf context := rfl
    have perm : (livePdrs context { t₁ with rules }).Perm
        (t.rules.pdrs.heap.next :: livePdrs context t) := placed.perm sameList cells
    have old : ∀ q ∈ livePdrs context t,
        rules.pdrs.heap.cells q = t.rules.pdrs.heap.cells q := by
      intro q mem
      obtain ⟨info', live, -⟩ := inv.pdrs q mem
      rw [live]
      exact created.old q info' (same.pdrs ▸ live)
    have fresh : t.rules.pdrs.heap.next ∉ livePdrs context t := by
      intro mem
      obtain ⟨info', live, -⟩ := inv.pdrs _ mem
      exact (live_lt live).ne rfl
    have infos : (liveInfos context { t₁ with rules }).Perm (info :: liveInfos context t) :=
      liveInfos_perm perm cell old
    have farRefs : ((liveInfos context { t₁ with rules }).filterMap (·.far)).Perm
        (info.far.toList ++ (liveInfos context t).filterMap (·.far)) := by
      rw [← filterMap_cons_toList]
      exact infos.filterMap _
    have urrRefs : ((liveInfos context { t₁ with rules }).filterMap (·.urr)).Perm
        (info.urr.toList ++ (liveInfos context t).filterMap (·.urr)) := by
      rw [← filterMap_cons_toList]
      exact infos.filterMap _
    obtain ⟨urrCounted, urrEnds, urrIds⟩ := linkUrrs_counts (same.urrs ▸ inv.urrs) allowed.urrs
      made.urrs
      (by rw [same.urrs]; exact allowed.urrRoom) (by rw [same.urrs]; exact inv.urrEnds)
    have farCounted := linkFar_counts (same.fars ▸ inv.fars) pdr.farId
      (by rw [same.fars]; exact allowed.farRoom)
    refine ⟨_, rfl, ?_, ?_⟩
    · exact {
        sessions := placed.sessions
        filled := placed.filledAfter sameList cells
        distinct := perm.nodup_iff.mpr (nodup_cons.mpr ⟨fresh, inv.distinct⟩)
        pdrs := fun p mem => by
          rcases mem_cons.mp (perm.mem_iff.mp mem) with rfl | isOld
          · refine ⟨info, cell, ?_, ?_⟩
            · rw [created.byId, infoId, same.pdrs]
              exact Table.add_self ..
            · rw [infoCount, infoUrr]
              rcases urrIds with ⟨none, -⟩ | ⟨one, some⟩
              · exact .inl (if_pos none)
              · refine .inr ⟨?_, some⟩
                rw [if_neg (by rintro none; rw [none] at one; cases one), one]
                rfl
          · obtain ⟨info', live, known, count⟩ := inv.pdrs p isOld
            refine ⟨info', (old p isOld).trans live, ?_, count⟩
            rw [created.byId, same.pdrs, Table.add_of_ne fun sameKey => ?_]
            · exact known
            · rw [sameKey, allowed.newId] at known
              cases known
        fars := by
          refine Counts.perm ?_ farRefs.symm
          rw [far, created.fars]
          exact farCounted
        urrs := by
          refine Counts.perm ?_ urrRefs.symm
          rw [infoUrr, created.urrs]
          exact urrCounted
        urrEnds := fun a mem => by
          rw [created.urrs]
          rw [infoUrr] at urrRefs
          exact urrEnds a (urrRefs.mem_iff.mp mem)
        qers := fun info' mem => by
          rw [created.qers]
          rcases mem_cons.mp (infos.mem_iff.mp mem) with rfl | isOld
          · rw [infoQuer]
            exact chain
          · obtain ⟨l, oldChain⟩ := inv.qers info' isOld
            exact kept.chains _ l (same.qers ▸ oldChain)
        qersListed := fun id a known => by
          rw [created.qers] at known ⊢
          rcases new id a known with isOld | ⟨isHead, node⟩
          · rw [same.qers] at isOld
            obtain ⟨⟨info', mem, isHead⟩, node, live, sameId⟩ := inv.qersListed id a isOld
            obtain ⟨node', live', sameId'⟩ := kept.ids a node (same.qers ▸ live)
            exact ⟨⟨info', infos.mem_iff.mpr (mem_cons_of_mem _ mem), isHead⟩, node', live',
              sameId'.trans sameId⟩
          · exact ⟨⟨info, infos.mem_iff.mpr (mem_cons_self ..), infoQuer.trans isHead⟩, node⟩ }
    · intro info' _ l _ a _ key known
      rw [created.qers]
      exact byId key a (same.qers ▸ known)

end

end Epc.Up
