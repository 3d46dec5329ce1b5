import Epc.Up.Proof.RefCount

/-! The removal of a PDR keeps the counts of its FAR and URRs, and the runs of creations and removals. -/

namespace Epc.Up

open Epc.Lib List Function Heap
open Option hiding mem_map

section

variable {sess : PfcpSession} {context session p : Nat} {now : UInt32} {t : DataState}
  {info : PdrInfo} {infos rest : List PdrInfo} {urrs : RuleTable (Node UrrRule)}

theorem removeFar_rest {fars : RuleTable FarInfo}
    (counts : farCounts sess fars (infos.filterMap (·.far))) (perm : infos.Perm (info :: rest)) :
    ∃ fars', removeFar sess info.far fars = .ok fars' ∧
      farCounts sess fars' (rest.filterMap (·.far)) := by
  have refs := perm.filterMap (·.far)
  rw [filterMap_cons_toList] at refs
  cases far : info.far with
  | none =>
    rw [far] at refs
    exact ⟨fars, rfl, Counts.perm counts refs⟩
  | some a =>
    rw [far] at refs
    obtain ⟨fars', run, counts'⟩ :=
      removeFar_counts (Counts.perm counts refs) (mem_cons_self ..)
    refine ⟨fars', run, ?_⟩
    rwa [toList_some, singleton_append, erase_cons_head] at counts'

theorem reportUrrs_rest (now : UInt32) {refs : List Nat} (counts : urrCounts sess urrs refs)
    (ends : UrrsEnd urrs refs) (refers : ∀ a, info.urr = some a → a ∈ refs)
    (count : info.urrCount = 0 ∨ info.urrCount = 1 ∧ info.urr ≠ none) :
    ∃ reports urrs', reportUrrs now info.urrCount info.urr urrs = .ok (reports, urrs') ∧
      urrCounts sess urrs' refs ∧ UrrsEnd urrs' refs := by
  rcases count with zero | ⟨one, listed⟩
  · exact ⟨[], urrs, by rw [reportUrrs, if_pos zero], counts, ends⟩
  · obtain ⟨a, urr⟩ := ne_none_iff_exists'.mp listed
    obtain ⟨node, live, -⟩ := counts.held a (refers a urr)
    have run : reportUrrs now info.urrCount info.urr urrs =
        .ok ([node.data.info.usageReport .termr now], urrs.update a (Node.modify fun rule =>
          { rule with info := rule.info.restart now })) := by
      rw [reportUrrs, if_neg (by rw [one]; decide), if_pos one]
      simp only [urr, bind_some, live]
      rfl
    refine ⟨_, _, run, counts.update a (fun _ => rfl) fun _ => rfl, fun b mem cell after => ?_⟩
    by_cases same : b = a
    · subst same
      rw [RuleTable.update, update_cells_self, live, map_some, some.injEq] at after
      subst after
      exact ends b mem node live
    · rw [RuleTable.update, update_cells_of_ne same] at after
      exact ends b mem cell after

theorem removeUrrs_rest (fuel : Nat)
    (counts : urrCounts sess urrs (infos.filterMap (·.urr))) (perm : infos.Perm (info :: rest))
    (ends : UrrsEnd urrs (infos.filterMap (·.urr))) :
    ∃ urrs', removeUrrs sess (fuel + 1) info.urr info.urr urrs = .ok urrs' ∧
      urrCounts sess urrs' (rest.filterMap (·.urr)) ∧ UrrsEnd urrs' (rest.filterMap (·.urr)) := by
  have refs := perm.filterMap (·.urr)
  rw [filterMap_cons_toList] at refs
  have endsRest : UrrsEnd urrs (rest.filterMap (·.urr)) := fun a mem =>
    ends a (refs.mem_iff.mpr (mem_append_right _ mem))
  cases urr : info.urr with
  | none =>
    rw [urr] at refs
    exact ⟨urrs, rfl, Counts.perm counts refs, endsRest⟩
  | some a =>
    rw [urr] at refs
    have mem : a ∈ infos.filterMap (·.urr) := refs.mem_iff.mpr (mem_cons_self ..)
    obtain ⟨urrs', run, counts', kept⟩ := removeUrrs_counts fuel
      (Counts.perm counts refs) (mem_cons_self ..) (ends a mem)
    refine ⟨urrs', run, ?_, fun b inRest node live => ?_⟩
    · rwa [toList_some, singleton_append, erase_cons_head] at counts'
    · obtain ⟨old, oldLive, next⟩ := kept b node live
      rw [next]
      exact endsRest b inRest old oldLive

theorem nextPdr_none {s : RuleState} {data : SessionData} (live : s.sessions.cells session = some data)
    (ends : nextPdr s p = none) : successor data.pdrs p = none := by
  rw [nextPdr, findSome?_eq_none_iff] at ends
  have here := ends session (mem_range.mpr (live_lt live))
  rwa [live, bind_some] at here

structure Removed (sess : PfcpSession) (session p : Nat) (info : PdrInfo) (rest : List PdrInfo)
    (s s' : RuleState) : Prop where
  sessions : ∀ a, (s'.sessions.cells a).map (·.pdrs) =
    if a = session then (s.sessions.cells a).map fun data => data.pdrs.erase p
    else (s.sessions.cells a).map (·.pdrs)
  gone : s'.pdrs.heap.cells p = none
  pdrs : ∀ q, q ≠ p → s'.pdrs.heap.cells q = s.pdrs.heap.cells q
  byId : s'.pdrs.byId = s.pdrs.byId.del (sess.ruleKey info.ruleId.toUInt32)
  fars : farCounts sess s'.fars (rest.filterMap (·.far))
  urrs : urrCounts sess s'.urrs (rest.filterMap (·.urr))
  urrEnds : UrrsEnd s'.urrs (rest.filterMap (·.urr))
  qers : ∃ l, s.qers.heap.Chain info.quer l ∧
    (∀ b, b ∉ l → s'.qers.heap.cells b = s.qers.heap.cells b) ∧
    (∀ key, s'.qers.byId key = s.qers.byId key ∨ s'.qers.byId key = none ∧
      ∃ a ∈ l, ∃ node, s.qers.heap.cells a = some node ∧ key = sess.ruleKey node.data.qerId) ∧
    ∀ a ∈ l, ∀ node, s.qers.heap.cells a = some node →
      s'.qers.byId (sess.ruleKey node.data.qerId) = none

theorem RefInv.pdr (inv : RefInv sess context t) (mem : p ∈ livePdrs context t)
    (cell : t.rules.pdrs.heap.cells p = some info) :
    t.rules.pdrs.byId (sess.ruleKey info.ruleId.toUInt32) = some p ∧
      (info.urrCount = 0 ∨ info.urrCount = 1 ∧ info.urr ≠ none) := by
  obtain ⟨info', cell', facts⟩ := inv.pdrs p mem
  obtain rfl : info = info' := some.inj (cell.symm.trans cell')
  exact facts

theorem RefInv.removePdr (inv : RefInv sess context t) (now : UInt32) {data : SessionData}
    (live : t.rules.sessions.cells session = some data) (onList : p ∈ data.pdrs)
    (nodup : data.pdrs.Nodup) (mem : p ∈ livePdrs context t)
    (cell : t.rules.pdrs.heap.cells p = some info) (perm : (liveInfos context t).Perm (info :: rest)) :
    ∃ reports rules, removePdr sess context now session p t.rules = .ok (reports, rules) ∧
      Removed sess session p info rest t.rules rules := by
  have isInfo : info ∈ liveInfos context t := mem_filterMap.mpr ⟨p, mem, cell⟩
  obtain ⟨fars, farsRun, farsCounted⟩ := removeFar_rest inv.fars perm
  have refers : ∀ a, info.urr = some a → a ∈ (liveInfos context t).filterMap (·.urr) :=
    fun a urr => mem_filterMap.mpr ⟨info, isInfo, urr⟩
  obtain ⟨reports, reported, reportRun, reportCounted, reportEnds⟩ :=
    reportUrrs_rest now inv.urrs inv.urrEnds refers (inv.pdr mem cell).2
  obtain ⟨urrs, urrsRun, urrsCounted, urrEnds⟩ :=
    removeUrrs_rest ((reported.heap.next + 1) * reported.heap.next + reported.heap.next)
      reportCounted perm reportEnds
  obtain ⟨l, chain⟩ := inv.qers info isInfo
  obtain ⟨qers, qersRun, qersCells, qersById, qersDeleted⟩ :=
    removeQers_chain sess chain chain.length_le
  have node := removePdrNode_mem onList nodup fun ends =>
    successor_none onList (nextPdr_none live ends)
  have fuel : (reported.heap.next + 1) * (reported.heap.next + 1) =
      (reported.heap.next + 1) * reported.heap.next + reported.heap.next + 1 := by ring
  have run : ∃ rules, Epc.Up.removePdr sess context now session p t.rules = .ok (reports, rules) ∧
      rules.fars = fars ∧ rules.qers = qers ∧ rules.urrs = urrs ∧
      rules.sessions = t.rules.sessions.update session (fun data' =>
        { data' with pdrs := data.pdrs.erase p }) ∧
      rules.pdrs = ⟨t.rules.pdrs.heap.free p,
        t.rules.pdrs.byId.del (sess.ruleKey info.ruleId.toUInt32)⟩ := by
    simp only [Epc.Up.removePdr, cell, live, reportRun, farsRun, qersRun, fuel, urrsRun, node,
      except_ok_bind]
    exact ⟨_, rfl, rfl, rfl, rfl, rfl, rfl⟩
  obtain ⟨rules, run, rfl, rfl, rfl, sessions, pdrs⟩ := run
  exact ⟨reports, rules, run, {
    sessions := fun a => by
      rw [sessions]
      by_cases same : a = session
      · subst same
        simp only [if_true, update_cells_self, live, map_some]
      · rw [if_neg same, update_cells_of_ne same]
    gone := by rw [pdrs, free_cells_self]
    pdrs := fun q ne => by rw [pdrs, free_cells_of_ne ne]
    byId := by rw [pdrs]
    fars := farsCounted
    urrs := urrsCounted
    urrEnds := urrEnds
    qers := ⟨l, chain, qersCells, qersById, qersDeleted⟩ }⟩

end

section

variable {sess : PfcpSession} {context session p : Nat} {now : UInt32} {ruleId : UInt16}
  {t : DataState} {s : RuleState} {reports : List UsageReport}

theorem findPdr_none {l : List Nat}
    (others : ∀ q ∈ l, ∃ info, s.pdrs.heap.cells q = some info ∧ info.ruleId ≠ ruleId) :
    findPdr ruleId s l = .ok none := by
  induction l with
  | nil => rfl
  | cons q l ih =>
    obtain ⟨⟨info, live, ne⟩, rest⟩ := forall_mem_cons.mp others
    rw [findPdr, live]
    simp only [if_neg ne]
    exact ih rest

theorem findPdr_some {l : List Nat} {info : PdrInfo}
    (live : ∀ q ∈ l, ∃ info, s.pdrs.heap.cells q = some info) (mem : p ∈ l)
    (cell : s.pdrs.heap.cells p = some info) (same : info.ruleId = ruleId) :
    ∃ q, findPdr ruleId s l = .ok (some q) := by
  induction l with
  | nil => cases mem
  | cons q l ih =>
    obtain ⟨⟨other, otherCell⟩, rest⟩ := forall_mem_cons.mp live
    rw [findPdr, otherCell]
    simp only
    by_cases here : other.ruleId = ruleId
    · exact ⟨q, if_pos here⟩
    · rw [if_neg here]
      refine ih rest ((mem_cons.mp mem).resolve_left ?_)
      rintro rfl
      rw [cell, some.injEq] at otherCell
      exact here (otherCell ▸ same)

def Quiet (ruleId : UInt16) (s : RuleState) (session : Nat) : Prop :=
  ∃ data, s.sessions.cells session = some data ∧ data.pdrs ≠ [] ∧
    ∀ q ∈ data.pdrs, ∃ info, s.pdrs.heap.cells q = some info ∧ info.ruleId ≠ ruleId

theorem visitSessions_skip {before cursor : List Nat} {uiFlag : Bool}
    (quiet : ∀ session ∈ before, Quiet ruleId t.rules session) (fuel : Nat) :
    visitSessions sess context now ruleId (before.length + fuel) (before ++ cursor) uiFlag reports t =
      visitSessions sess context now ruleId fuel cursor uiFlag reports t := by
  induction before with
  | nil => rw [length_nil, Nat.zero_add, nil_append]
  | cons session before ih =>
    obtain ⟨⟨data, live, filled, others⟩, rest⟩ := forall_mem_cons.mp quiet
    have passed : removeFromSession sess context now ruleId session t.rules = .ok (none, t.rules) := by
      simp only [removeFromSession, findInSession, live, findPdr_none others, except_ok_bind]
    have notEmpty : ((t.rules.sessions.cells session).any fun data => decide (data.pdrs = [])) =
        false := by
      rw [live]
      simpa using filled
    rw [length_cons, Nat.add_right_comm, cons_append, visitSessions, passed, except_ok_bind]
    simp only [isSome_none, Bool.or_false, getD_none, append_nil, notEmpty,
      Bool.and_false, Bool.false_eq_true, if_false]
    exact ih rest

theorem visitSessions_quiet {cursor : List Nat} {uiFlag : Bool} {fuel : Nat}
    (quiet : ∀ session ∈ cursor, Quiet ruleId t.rules session) (enough : cursor.length ≤ fuel) :
    visitSessions sess context now ruleId fuel cursor uiFlag reports t = .ok (reports, t) := by
  obtain ⟨more, rfl⟩ := Nat.exists_eq_add_of_le enough
  have skipped : visitSessions sess context now ruleId (cursor.length + more) (cursor ++ []) uiFlag
      reports t = visitSessions sess context now ruleId more [] uiFlag reports t :=
    visitSessions_skip quiet more
  rw [append_nil] at skipped
  rw [skipped]
  cases more <;> rfl

theorem RefInv.info_eq (inv : RefInv sess context t) {q : Nat} {info info' : PdrInfo}
    (mem : p ∈ livePdrs context t) (cell : t.rules.pdrs.heap.cells p = some info)
    (mem' : q ∈ livePdrs context t) (cell' : t.rules.pdrs.heap.cells q = some info')
    (same : info.ruleId = info'.ruleId) : p = q := by
  have known := (inv.pdr mem cell).1
  rw [same, (inv.pdr mem' cell').1, some.injEq] at known
  exact known.symm

theorem mem_pdrsOf {data : SessionData} (live : s.sessions.cells session = some data) :
    pdrsOf s session = data.pdrs := by
  rw [pdrsOf, live]
  rfl

theorem RefInv.quiet (inv : RefInv sess context t) (mem : session ∈ t.sessionsOf context)
    (others : ∀ q ∈ pdrsOf t.rules session, ∀ info, t.rules.pdrs.heap.cells q = some info →
      info.ruleId ≠ ruleId) : Quiet ruleId t.rules session := by
  obtain ⟨data, live, filled⟩ := inv.filled session mem
  refine ⟨data, live, filled, fun q onList => ?_⟩
  rw [← mem_pdrsOf live] at onList
  obtain ⟨info, cell, -⟩ := inv.pdrs q (mem_flatMap.mpr ⟨session, mem, onList⟩)
  exact ⟨info, cell, others q onList info cell⟩

theorem RefInv.remove_none (inv : RefInv sess context t) (now : UInt32)
    (others : ∀ q ∈ livePdrs context t, ∀ info, t.rules.pdrs.heap.cells q = some info →
      info.ruleId ≠ ruleId) {fuel : Nat} (enough : (t.sessionsOf context).length ≤ fuel) :
    visitSessions sess context now ruleId fuel (t.sessionsOf context) false [] t = .ok ([], t) :=
  visitSessions_quiet (fun _ mem => inv.quiet mem fun q onList =>
    others q (mem_flatMap.mpr ⟨_, mem, onList⟩)) enough

def trimmed (context session : Nat) (t : DataState) (rules : RuleState) : DataState :=
  if pdrsOf rules session = [] then
    { rules := { rules with sessions := rules.sessions.free session }
      sessionsOf := Function.update t.sessionsOf context ((t.sessionsOf context).erase session) }
  else { t with rules }

theorem trimmed_rules (context session : Nat) (t : DataState) (rules : RuleState) :
    (trimmed context session t rules).rules.pdrs = rules.pdrs ∧
      (trimmed context session t rules).rules.fars = rules.fars ∧
      (trimmed context session t rules).rules.qers = rules.qers ∧
      (trimmed context session t rules).rules.urrs = rules.urrs := by
  unfold trimmed
  split <;> exact ⟨rfl, rfl, rfl, rfl⟩

theorem livePdrs_trimmed (context session : Nat) (t : DataState) (rules : RuleState) :
    livePdrs context (trimmed context session t rules) = livePdrs context { t with rules } := by
  unfold trimmed
  split
  · next empty =>
      have same : ∀ a, pdrsOf { rules with sessions := rules.sessions.free session } a =
          pdrsOf rules a := by
        intro a
        by_cases here : a = session
        · subst here
          rw [empty, pdrsOf, free_cells_self]
          rfl
        · rw [pdrsOf, pdrsOf, free_cells_of_ne here]
      rw [livePdrs, livePdrs]
      simp only [update_self]
      rw [flatMap_erase (by rw [same, empty])]
      exact flatMap_congr fun a _ => same a
  · rfl

end

section

variable {sess : PfcpSession} {context session p : Nat} {now : UInt32} {ruleId : UInt16}
  {t : DataState} {info : PdrInfo} {rest : List PdrInfo} {rules : RuleState}

theorem Removed.pdrsOf_eq (removed : Removed sess session p info rest t.rules rules) (a : Nat) :
    pdrsOf rules a =
      if a = session then (pdrsOf t.rules a).erase p else pdrsOf t.rules a := by
  have cell := removed.sessions a
  rw [pdrsOf, cell]
  by_cases same : a = session
  · rw [if_pos same, if_pos same, pdrsOf]
    cases t.rules.sessions.cells a <;> rfl
  · rw [if_neg same, if_neg same, pdrsOf]

theorem RefInv.session_nodup (inv : RefInv sess context t) (mem : session ∈ t.sessionsOf context) :
    (pdrsOf t.rules session).Nodup :=
  (nodup_flatMap.mp inv.distinct).1 session mem

theorem RefInv.session_unique (inv : RefInv sess context t) {other : Nat}
    (mem : session ∈ t.sessionsOf context) (otherMember : other ∈ t.sessionsOf context)
    (onList : p ∈ pdrsOf t.rules session) (onOther : p ∈ pdrsOf t.rules other) : other = session := by
  by_contra ne
  have symm : Std.Symm (Function.onFun List.Disjoint (pdrsOf t.rules)) :=
    ⟨fun _ _ disjoint => List.Disjoint.symm disjoint⟩
  have apart := (nodup_flatMap.mp inv.distinct).2
  exact apart.forall otherMember mem ne onOther onList

theorem Removed.data {data : SessionData} (removed : Removed sess session p info rest t.rules rules)
    (live : t.rules.sessions.cells session = some data) :
    ∃ data', rules.sessions.cells session = some data' ∧ data'.pdrs = data.pdrs.erase p := by
  have after := removed.sessions session
  rwa [if_pos rfl, live, map_some, map_eq_some_iff] at after

section

variable (inv : RefInv sess context t) (isSession : session ∈ t.sessionsOf context)
  (onList : p ∈ pdrsOf t.rules session) (cell : t.rules.pdrs.heap.cells p = some info)
  (removed : Removed sess session p info rest t.rules rules)

include inv removed

theorem Removed.filled :
    ((trimmed context session t rules).sessionsOf context).Nodup ∧
      ∀ other ∈ (trimmed context session t rules).sessionsOf context,
        ∃ data, (trimmed context session t rules).rules.sessions.cells other = some data ∧
          data.pdrs ≠ [] := by
  have old : ∀ other ∈ t.sessionsOf context, other ≠ session →
      ∃ data, rules.sessions.cells other = some data ∧ data.pdrs ≠ [] := by
    intro other mem ne
    obtain ⟨data, live, filled⟩ := inv.filled other mem
    have cell := removed.sessions other
    rw [if_neg ne, live, map_some, map_eq_some_iff] at cell
    obtain ⟨data', live', pdrs⟩ := cell
    exact ⟨data', live', pdrs ▸ filled⟩
  unfold trimmed
  split
  · simp only [update_self]
    refine ⟨inv.sessions.erase _, fun other mem => ?_⟩
    obtain ⟨ne, isMember⟩ := inv.sessions.mem_erase_iff.mp mem
    rw [free_cells_of_ne ne]
    exact old other isMember ne
  · next notEmpty =>
      refine ⟨inv.sessions, fun other mem => ?_⟩
      by_cases same : other = session
      · subst same
        obtain ⟨data, live, -⟩ := inv.filled other mem
        obtain ⟨data', live', -⟩ := removed.data live
        rw [mem_pdrsOf live'] at notEmpty
        exact ⟨data', live', notEmpty⟩
      · exact old other mem same

include isSession onList

theorem Removed.livePdrs_perm :
    (livePdrs context t).Perm (p :: livePdrs context (trimmed context session t rules)) := by
  rw [livePdrs_trimmed]
  refine flatMap_perm_cons isSession inv.sessions ?_ fun other ne => ?_
  · rw [removed.pdrsOf_eq, if_pos rfl]
    exact perm_cons_erase onList
  · rw [removed.pdrsOf_eq, if_neg ne]

theorem Removed.remains {q : Nat} (isLive : q ∈ livePdrs context (trimmed context session t rules)) :
    q ∈ livePdrs context t ∧ q ≠ p ∧
      (trimmed context session t rules).rules.pdrs.heap.cells q = t.rules.pdrs.heap.cells q := by
  have perm := removed.livePdrs_perm inv isSession onList
  have nodup := nodup_cons.mp (perm.nodup_iff.mp inv.distinct)
  have ne : q ≠ p := fun same => nodup.1 (same ▸ isLive)
  refine ⟨perm.mem_iff.mpr (mem_cons_of_mem _ isLive), ne, ?_⟩
  rw [(trimmed_rules ..).1, removed.pdrs q ne]

include cell

theorem Removed.refInv (infosBefore : (liveInfos context t).Perm (info :: rest))
    (allowed : RemoveAllowed sess context info.ruleId t) :
    RefInv sess context (trimmed context session t rules) ∧
      QersKept context t (trimmed context session t rules) := by
  have mem : p ∈ livePdrs context t := mem_flatMap.mpr ⟨session, isSession, onList⟩
  have perm := removed.livePdrs_perm inv isSession onList
  have infos : (liveInfos context t).Perm
      (info :: liveInfos context (trimmed context session t rules)) :=
    liveInfos_perm perm cell fun q isLive => (removed.remains inv isSession onList isLive).2.2.symm
  have rest := (perm_cons info).mp (infosBefore.symm.trans infos)
  obtain ⟨pdrs, fars, qers, urrs⟩ := trimmed_rules context session t rules
  obtain ⟨l, chain, kept, byId, deleted⟩ := removed.qers
  -- another PDR's list has no node of the list that was freed
  have unshared : ∀ other ∈ liveInfos context (trimmed context session t rules),
      ∀ l', t.rules.qers.heap.Chain other.quer l' →
      l.Disjoint l' ∧ ∀ a ∈ l, ∀ node, t.rules.qers.heap.cells a = some node →
        ∀ b ∈ l', t.rules.qers.byId (sess.ruleKey node.data.qerId) ≠ some b := by
    intro other isLive l' chain'
    obtain ⟨q, qLive, qCell⟩ := mem_filterMap.mp isLive
    obtain ⟨wasLive, ne, sameCell⟩ := removed.remains inv isSession onList qLive
    have apart := allowed.unshared p mem info cell rfl q wasLive ne other (sameCell ▸ qCell)
    simp only [querList, chain.addresses_eq chain.length_le,
      chain'.addresses_eq chain'.length_le] at apart
    exact ⟨fun a inList => (apart a inList).1, fun a inList => (apart a inList).2⟩
  have oldChain : ∀ other ∈ liveInfos context (trimmed context session t rules),
      ∃ l', t.rules.qers.heap.Chain other.quer l' ∧ rules.qers.heap.Chain other.quer l' := by
    intro other isLive
    obtain ⟨l', chain'⟩ := inv.qers other (infos.mem_iff.mpr (mem_cons_of_mem _ isLive))
    refine ⟨l', chain', chain'.frame fun b inOther => ?_⟩
    rw [kept b fun inList => (unshared other isLive l' chain').1 inList inOther]
  obtain ⟨sessions, filled⟩ := removed.filled inv
  refine ⟨⟨sessions, filled, (nodup_cons.mp (perm.nodup_iff.mp inv.distinct)).2, fun q qLive => ?_,
    fars ▸ Counts.perm removed.fars (rest.filterMap _), urrs ▸ Counts.perm removed.urrs (rest.filterMap _),
    urrs ▸ fun a isUrr => removed.urrEnds a ((rest.filterMap _).mem_iff.mpr isUrr),
    fun other isLive => ?_, fun id a knownA => ?_⟩, ?_⟩
  · obtain ⟨wasLive, ne, sameCell⟩ := removed.remains inv isSession onList qLive
    obtain ⟨other, qCell, qKnown, count⟩ := inv.pdrs q wasLive
    refine ⟨other, sameCell.trans qCell, ?_, count⟩
    rw [pdrs, removed.byId, Table.del_of_ne fun same => ?_]
    · exact qKnown
    · rw [same, (inv.pdr mem cell).1, some.injEq] at qKnown
      exact ne qKnown.symm
  · obtain ⟨l', -, chain'⟩ := oldChain other isLive
    exact ⟨l', qers ▸ chain'⟩
  · rw [qers] at knownA ⊢
    rcases byId (sess.ruleKey id) with same | ⟨none, -⟩
    · rw [same] at knownA
      obtain ⟨⟨other, wasLive, isHead⟩, node, live, sameId⟩ := inv.qersListed id a knownA
      rcases mem_cons.mp (infos.mem_iff.mp wasLive) with rfl | isLive
      · -- the head of the freed list is no longer in the hash
        have inList : a ∈ l := mem_of_mem_head? (chain.head_eq.symm.trans isHead)
        have gone := deleted a inList node live
        rw [sameId, same, knownA] at gone
        cases gone
      · refine ⟨⟨other, isLive, isHead⟩, node, ?_, sameId⟩
        obtain ⟨l', chain', -⟩ := oldChain other isLive
        have inOther : a ∈ l' := mem_of_mem_head? (chain'.head_eq.symm.trans isHead)
        rw [kept a fun inList => (unshared other isLive l' chain').1 inList inOther, live]
    · rw [none] at knownA
      cases knownA
  · intro other isLive l' chainAfter a inOther key knownA
    rw [qers] at chainAfter ⊢
    obtain ⟨l'', chainBefore, chain'⟩ := oldChain other isLive
    obtain rfl := chainAfter.unique chain'
    rcases byId key with same | ⟨-, b, inList, node, live, key_eq⟩
    · rw [same, knownA]
    · subst key_eq
      exact absurd knownA ((unshared other isLive l' chainBefore).2 b inList node live a inOther)

theorem Removed.others {q : Nat} {other : PdrInfo}
    (isLive : q ∈ livePdrs context (trimmed context session t rules))
    (qCell : (trimmed context session t rules).rules.pdrs.heap.cells q = some other) :
    other.ruleId ≠ info.ruleId := by
  intro same
  obtain ⟨wasLive, ne, sameCell⟩ := removed.remains inv isSession onList isLive
  exact ne (inv.info_eq wasLive (sameCell ▸ qCell) (mem_flatMap.mpr ⟨session, isSession, onList⟩) cell same)

end

theorem RefInv.remove_found (inv : RefInv sess context t) (now : UInt32)
    (allowed : RemoveAllowed sess context ruleId t) (mem : p ∈ livePdrs context t)
    (cell : t.rules.pdrs.heap.cells p = some info) (sameId : info.ruleId = ruleId) {fuel : Nat}
    (enough : 2 * (t.sessionsOf context).length ≤ fuel) :
    ∃ reports t', visitSessions sess context now ruleId fuel (t.sessionsOf context) false [] t =
        .ok (reports, t') ∧ RefInv sess context t' ∧ QersKept context t t' := by
  subst sameId
  obtain ⟨session, isSession, onList⟩ := mem_flatMap.mp mem
  obtain ⟨data, live, -⟩ := inv.filled session isSession
  have onData : p ∈ data.pdrs := mem_pdrsOf live ▸ onList
  have restPerm : (liveInfos context t).Perm
      (info :: ((livePdrs context t).erase p).filterMap t.rules.pdrs.heap.cells) := by
    rw [← filterMap_cons_some cell]
    exact (perm_cons_erase mem).filterMap _
  obtain ⟨reports, rules, run, removed⟩ := inv.removePdr now live onData
    (mem_pdrsOf live ▸ inv.session_nodup isSession) mem cell restPerm
  obtain ⟨inv', kept⟩ := removed.refInv inv isSession onList cell restPerm allowed
  refine ⟨reports, trimmed context session t rules, ?_, inv', kept⟩
  have quietAfter : ∀ other ∈ (trimmed context session t rules).sessionsOf context,
      Quiet info.ruleId (trimmed context session t rules).rules other :=
    fun other isMember => inv'.quiet isMember fun q qOnList _ =>
      removed.others inv isSession onList cell (mem_flatMap.mpr ⟨other, isMember, qOnList⟩)
  obtain ⟨before, after, split⟩ := append_of_mem isSession
  have quietBefore : ∀ other ∈ before, Quiet info.ruleId t.rules other := by
    intro other isBefore
    have isMember : other ∈ t.sessionsOf context := split ▸ mem_append_left _ isBefore
    refine inv.quiet isMember fun q qOnList other' qCell same => ?_
    have isP := inv.info_eq (mem_flatMap.mpr ⟨other, isMember, qOnList⟩) qCell mem cell same
    have isSame := inv.session_unique isSession isMember onList (isP ▸ qOnList)
    have distinctSessions := inv.sessions
    rw [split, nodup_append] at distinctSessions
    exact distinctSessions.2.2 other isBefore session (mem_cons_self ..) isSame
  obtain ⟨data', live', pdrs⟩ := removed.data live
  have removal : removeFromSession sess context now info.ruleId session t.rules =
      .ok (some reports, rules) := by
    obtain ⟨q, firstFound⟩ : ∃ q, findPdr info.ruleId t.rules data.pdrs = .ok (some q) := by
      refine findPdr_some (fun q qOnList => ?_) onData cell rfl
      obtain ⟨other, qCell, -⟩ := inv.pdrs q
        (mem_flatMap.mpr ⟨session, isSession, mem_pdrsOf live ▸ qOnList⟩)
      exact ⟨other, qCell⟩
    have noSecond : findPdr info.ruleId rules data'.pdrs = .ok none := by
      refine findPdr_none fun q qOnList => ?_
      have isLive : q ∈ livePdrs context (trimmed context session t rules) := by
        rw [livePdrs_trimmed]
        exact mem_flatMap.mpr ⟨session, isSession, mem_pdrsOf live' ▸ qOnList⟩
      obtain ⟨other, qCell, -⟩ := inv'.pdrs q isLive
      exact ⟨other, (trimmed_rules ..).1 ▸ qCell, removed.others inv isSession onList cell isLive qCell⟩
    simp only [removeFromSession, findInSession, live, firstFound, except_ok_bind, (inv.pdr mem cell).1,
      run, live', noSecond]
  have count := congrArg List.length split
  rw [length_append, length_cons] at count
  obtain ⟨more, rfl⟩ : ∃ more, fuel = before.length + (more + 1) :=
    ⟨fuel - before.length - 1, by omega⟩
  rw [split, visitSessions_skip quietBefore (more + 1), visitSessions, removal, except_ok_bind]
  simp only [isSome_some, Bool.or_true, Bool.true_and, getD_some, nil_append,
    live', any_some, decide_eq_true_eq]
  by_cases empty : data'.pdrs = []
  · have isEmpty : pdrsOf rules session = [] := (mem_pdrsOf live').trans empty
    have trimmed_eq : trimmed context session t rules =
        { rules := { rules with sessions := rules.sessions.free session }
          sessionsOf := Function.update t.sessionsOf context
            ((t.sessionsOf context).erase session) } := by
      rw [trimmed, if_pos isEmpty]
    have sessions_eq : (trimmed context session t rules).sessionsOf context =
        (t.sessionsOf context).erase session := by
      rw [trimmed_eq]
      exact update_self ..
    have notLast : (t.sessionsOf context).erase session ≠ [] := by
      intro noSession
      obtain ⟨q, qLive, ne⟩ := allowed.others p mem info cell rfl
      have perm := removed.livePdrs_perm inv isSession onList
      have isLive := (mem_cons.mp (perm.mem_iff.mp qLive)).resolve_left ne
      rw [livePdrs, sessions_eq, noSession] at isLive
      cases isLive
    rw [if_pos empty, if_neg notLast, ← trimmed_eq, ← sessions_eq]
    refine visitSessions_quiet quietAfter ?_
    have fewer := length_erase_le (a := session) (l := t.sessionsOf context)
    rw [sessions_eq]
    omega
  · have trimmed_eq : trimmed context session t rules = { t with rules } := by
      rw [trimmed, if_neg (mem_pdrsOf live' ▸ empty)]
    rw [if_neg empty, trimmed_eq]
    rw [trimmed_eq] at quietAfter
    refine visitSessions_quiet (fun other isAfter => quietAfter other ?_) (by omega)
    rw [split]
    exact mem_append_right _ (mem_cons_of_mem _ isAfter)

end

section

open Run

variable {t : SessionTable} {upSeid : UInt64} {sess : PfcpSession} {context : Nat} {s : DataState}

theorem RefInv.remove {ruleId : UInt16} (inv : RefInv sess context s) (now : UInt32)
    (found : t.bySessId upSeid = some context) (cell : t.contexts.cells context = some sess)
    (allowed : RemoveAllowed sess context ruleId s) :
    ∃ reports s', processRemovePdrSess t upSeid now ruleId s = .ok (reports, s') ∧
      RefInv sess context s' ∧ QersKept context s s' := by
  simp only [processRemovePdrSess, found, cell]
  have fuel : 2 * (s.sessionsOf context).length ≤
      ((s.sessionsOf context).length + 1) * ((s.sessionsOf context).length + 1) := by
    nlinarith
  by_cases named : ∃ p ∈ livePdrs context s, ∃ info, s.rules.pdrs.heap.cells p = some info ∧
      info.ruleId = ruleId
  · obtain ⟨p, mem, info, live, sameId⟩ := named
    exact inv.remove_found now allowed mem live sameId fuel
  · push Not at named
    exact ⟨[], s, inv.remove_none now named (by omega), inv, fun _ _ _ _ _ _ _ known => known⟩

theorem RefInv.step (inv : RefInv sess context s) (found : t.bySessId upSeid = some context)
    (cell : t.contexts.cells context = some sess) {op : PdrOp}
    (ok : PdrOp.ok t upSeid sess context s op) :
    op.exec t upSeid sess context s = .ok (PdrOp.step t upSeid sess context s op) ∧
      RefInv sess context (PdrOp.step t upSeid sess context s op) ∧
      QersKept context s (PdrOp.step t upSeid sess context s op) := by
  obtain ⟨accepted, allowed⟩ := ok
  obtain ⟨s', run, inv', kept⟩ : ∃ s', op.exec t upSeid sess context s = .ok s' ∧
      RefInv sess context s' ∧ QersKept context s s' := by
    cases op with
    | create pdr => exact inv.create allowed accepted
    | remove now ruleId =>
      obtain ⟨reports, s', run, rest⟩ := inv.remove now found cell allowed
      exact ⟨s', by rw [PdrOp.exec, run]; rfl, rest⟩
  rw [PdrOp.step, run]
  exact ⟨rfl, inv', kept⟩

/-- From a session without rules, in every run of creations and removals that are allowed and not
turned down, each succeeds, leaves the counts right, and takes no QER from the hash that a PDR still
refers to. -/
theorem refCounts_run (found : t.bySessId upSeid = some context)
    (cell : t.contexts.cells context = some sess) (noData : s.sessionsOf context = [])
    (fresh : FreshRules sess s.rules) {ops : List PdrOp}
    (guarded : Guarded (PdrOp.step t upSeid sess context) (PdrOp.ok t upSeid sess context) s ops)
    (before : List PdrOp) (op : PdrOp) (isPrefix : before ++ [op] <+: ops) :
    op.exec t upSeid sess context (run (PdrOp.step t upSeid sess context) s before) =
        .ok (run (PdrOp.step t upSeid sess context) s (before ++ [op])) ∧
      RefCounts sess context (run (PdrOp.step t upSeid sess context) s (before ++ [op])) ∧
      QersKept context (run (PdrOp.step t upSeid sess context) s before)
        (run (PdrOp.step t upSeid sess context) s (before ++ [op])) := by
  obtain ⟨inv, ok⟩ := guarded.inv_at isPrefix (RefInv sess context) (refInv_start noData fresh)
    fun _ _ inv ok => (inv.step found cell ok).2.1
  obtain ⟨exec, inv', kept⟩ := inv.step found cell ok
  rw [run_append]
  exact ⟨exec, inv'.refCounts, kept⟩

def openedTable : SessionTable := (openSession {} (uplinkRequest []).head).2.2

def openedSession : PfcpSession := (uplinkRequest []).session {}

def DataState.initial : DataState where
  rules := UpState.initial.rules
  sessionsOf := fun _ => []

def uplinkPdr (pdrId : UInt16) (qerId : UInt32) : CreatePdr where
  pdrId := pdrId
  precedence := none
  localFteid := some ⟨true, false, false, false, pdrId.toUInt32⟩
  ueIpAddress := none
  outerHdrRemoval := none
  farId := some 1
  qerIds := [qerId]
  urrIds := [1]
  actvtPredefRules := []

def openedRun (ops : List PdrOp) : DataState :=
  run (PdrOp.step openedTable openedSession.upSeid openedSession 0) DataState.initial ops

/-- Two PDRs share FAR and URR and have their own QERs; the first is removed. -/
theorem refCounts_ownQers :
    let ops := [.create (uplinkPdr 1 1), .create (uplinkPdr 2 2), .remove 0 1]
    RefCounts openedSession 0 (openedRun ops) ∧ livePdrs 0 (openedRun ops) = [1] := by
  refine ⟨?_, by decide +kernel⟩
  exact (refCounts_run (t := openedTable) rfl rfl rfl (freshRules_initial openedSession)
    (by decide +kernel) [.create (uplinkPdr 1 1), .create (uplinkPdr 2 2)] (.remove 0 1)
    (prefix_refl _)).2.1

/-- Two PDRs share a QER, the first is removed: the second is left with a freed QER. -/
theorem sharedQer_deleted :
    let ops := [.create (uplinkPdr 1 1), .create (uplinkPdr 2 1), .remove 0 1]
    Guarded (PdrOp.step openedTable openedSession.upSeid openedSession 0)
        (fun s op => (op.exec openedTable openedSession.upSeid openedSession 0 s).isOk = true)
        DataState.initial ops ∧
      ¬ RefCounts openedSession 0 (openedRun ops) := by
  intro ops
  have quers : (liveInfos 0 (openedRun ops)).map (·.quer) = [some 0] := by decide +kernel
  have freed : ((openedRun ops).rules.qers.heap.cells 0).isNone = true := by decide +kernel
  refine ⟨by decide +kernel, fun counts => ?_⟩
  have refers : some 0 ∈ (liveInfos 0 (openedRun ops)).map (·.quer) := by
    exact mem_singleton_self _
  obtain ⟨info, member, quer⟩ := mem_map.mp refers
  obtain ⟨l, chain⟩ := counts.qers info member
  rw [quer] at chain
  cases chain with
  | cons live _ =>
    rw [live] at freed
    cases freed

end

end Epc.Up
