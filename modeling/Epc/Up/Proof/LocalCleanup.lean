import Epc.Up.LocalCleanup

/-! What the failure of local CSIDs leaves of the entries of the peers' CSIDs. -/

namespace Epc.Up.Cleanup

open Epc.Lib List Function Table
open Option hiding filter_filter mem_map or_assoc

def Role.hash : Role → PeerHash
  | .mme | .sgwc | .pgwc => .sgwcsid
  | .wb => .mmecsid
  | .eb => .pgwcsid

theorem peerHash_iface (role : Role) : peerHash role.iface = some role.hash := by
  cases role <;> rfl

theorem mem_roles (role : Role) : role ∈ roles := by
  cases role <;> decide

section

attribute [ext] LocalCsids

variable {csids : List UInt16} {entry entry' : LocalCsids}

theorem removeCsid_of_nodup (csid : UInt16) (nodup : csids.Nodup) :
    removeCsid csid csids = csids.filter (· ≠ csid) := by
  induction csids using removeCsid.induct csid with
  | case1 => rfl
  | case2 => simp [removeCsid]
  | case3 y rest ih =>
    obtain ⟨fresh, nodup⟩ := nodup_cons.mp nodup
    have other : y ≠ csid := fun same => fresh (by rw [same]; exact mem_cons_self)
    rw [removeCsid_same, ih (nodup_cons.mp nodup).2]
    simp [other]
  | case4 x rest other ih =>
    rw [removeCsid_other other, ih (nodup_cons.mp nodup).2]
    simp [other]

theorem removeAll_csids (csids : List UInt16) (entry : LocalCsids) :
    (csids.foldl LocalCsids.remove entry).csids = entry.csids.filter (· ∉ csids) := by
  induction csids generalizing entry with
  | nil => simp
  | cons csid csids ih =>
    have removed : (entry.remove csid).csids = entry.csids.filter (· ≠ csid) :=
      removeCsid_of_nodup csid entry.distinct
    rw [foldl_cons, ih, removed, filter_filter]
    refine filter_congr fun x _ => ?_
    simp [Bool.and_comm]

theorem LocalCsids.cleaned_eq_none_iff (csids : List UInt16) (entry : LocalCsids) :
    entry.cleaned csids = none ↔ ∀ x ∈ entry.csids, x ∈ csids := by
  simp only [LocalCsids.cleaned, ite_eq_left_iff, reduceCtorEq, imp_false, not_not, removeAll_csids,
    filter_eq_nil_iff, decide_not, Bool.not_eq_true', decide_eq_false_iff_not]

theorem LocalCsids.cleaned_csids
    (left : entry.cleaned csids = some entry') : entry'.csids = entry.csids.filter (· ∉ csids) := by
  simp only [LocalCsids.cleaned, ite_none_left_eq_some, some.injEq] at left
  rw [← left.2, removeAll_csids]

theorem LocalCsids.cleaned_again
    (left : entry.cleaned csids = some entry') : entry'.cleaned csids = some entry' := by
  have filtered := LocalCsids.cleaned_csids left
  have same : csids.foldl LocalCsids.remove entry' = entry' := by
    apply LocalCsids.ext
    rw [removeAll_csids, filtered, filter_filter]
    refine filter_congr fun x _ => ?_
    rw [Bool.and_self]
  have some : entry'.csids ≠ [] := by
    simp only [LocalCsids.cleaned, ite_none_left_eq_some, some.injEq] at left
    rw [← left.2]
    exact left.1
  simp only [LocalCsids.cleaned, same, if_neg some]

end

def FqCsid.keys (hash : PeerHash) (peer : FqCsid) : List (PeerHash × CsidKey) :=
  peer.localCsid.map fun csid => (hash, ⟨csid, peer.nodeAddr⟩)

section

def Cleans (csids : List UInt16) (keys : List (PeerHash × CsidKey))
    (tables tables' : PeerHash → Table CsidKey LocalCsids) : Prop :=
  ∀ hash key, tables' hash key =
    if (hash, key) ∈ keys then (tables hash key).bind (LocalCsids.cleaned csids) else tables hash key

variable {csids : List UInt16} {keys keys' : List (PeerHash × CsidKey)}
  {tables tables' tables'' : PeerHash → Table CsidKey LocalCsids}

theorem Cleans.append (first : Cleans csids keys tables tables')
    (second : Cleans csids keys' tables' tables'') : Cleans csids (keys ++ keys') tables tables'' := by
  intro hash key
  rw [second hash key, first hash key]
  by_cases before : (hash, key) ∈ keys <;> by_cases after : (hash, key) ∈ keys'
  · rw [if_pos after, if_pos before, if_pos (mem_append_left _ before)]
    cases held : tables hash key with
    | none => rfl
    | some entry =>
      rw [bind_some]
      cases left : entry.cleaned csids with
      | none => rfl
      | some entry' => exact LocalCsids.cleaned_again left
  · rw [if_neg after, if_pos before, if_pos (mem_append_left _ before)]
  · rw [if_pos after, if_neg before, if_pos (mem_append_right _ after)]
  · rw [if_neg after, if_neg before, if_neg (by simp [before, after])]

theorem cleans_cleanupEntry (csids : List UInt16) (hash : PeerHash) (key : CsidKey)
    (tables : PeerHash → Table CsidKey LocalCsids) :
    Cleans csids [(hash, key)] tables (cleanupEntry csids hash key tables) := by
  intro h k
  by_cases here : h = hash ∧ k = key
  · obtain ⟨rfl, rfl⟩ := here
    rw [if_pos (mem_singleton_self _)]
    cases held : tables h k with
    | none =>
      simp only [cleanupEntry, held]
      rfl
    | some entry =>
      simp only [cleanupEntry, held, update_self, bind_some]
      cases left : entry.cleaned csids with
      | none => exact del_self _ _
      | some entry' => exact add_self ..
  · have other : (h, k) ∉ [(hash, key)] := by simpa using here
    rw [if_neg other]
    cases held : tables hash key with
    | none => simp only [cleanupEntry, held]
    | some entry =>
      simp only [cleanupEntry, held]
      by_cases sameHash : h = hash
      · have otherKey : k ≠ key := fun same => here ⟨sameHash, same⟩
        subst sameHash
        rw [update_self]
        cases entry.cleaned csids with
        | none => exact del_of_ne otherKey
        | some entry' => exact add_of_ne otherKey
      · rw [update_of_ne sameHash]

theorem cleans_cleanupCsidByCsidEntry (csids : List UInt16) (peer : FqCsid) {iface : UInt8}
    {hash : PeerHash} (isHash : peerHash iface = some hash)
    (tables : PeerHash → Table CsidKey LocalCsids) :
    Cleans csids (peer.keys hash) tables (cleanupCsidByCsidEntry peer csids iface tables) := by
  rw [cleanupCsidByCsidEntry, isHash, FqCsid.keys]
  generalize peer.localCsid = known
  induction known generalizing tables with
  | nil => exact fun _ _ => rfl
  | cons csid known ih =>
    exact (cleans_cleanupEntry csids hash ⟨csid, peer.nodeAddr⟩ tables).append (ih _)

theorem cleans_roles (csids : List UInt16) (merged : Merged) (roles : List Role)
    (tables : PeerHash → Table CsidKey LocalCsids) :
    Cleans csids (roles.flatMap fun role => (merged role).keys role.hash) tables
      (roles.foldl (fun tables role => cleanupCsidByCsidEntry (merged role) csids role.iface tables)
        tables) := by
  induction roles generalizing tables with
  | nil => exact fun _ _ => rfl
  | cons role roles ih =>
    exact (cleans_cleanupCsidByCsidEntry csids (merged role) (peerHash_iface role) tables).append (ih _)

end

section

structure Collected (peers : List FqCsid) (merged : FqCsid) : Prop where
  members : ∀ csid, csid ∈ merged.localCsid ↔ ∃ peer ∈ peers, csid ∈ peer.localCsid
  node : ∀ peer, peers.getLast? = some peer → merged.nodeAddr = peer.nodeAddr

theorem collected_zero (role : Role) : Collected [] (Merged.zero role) :=
  ⟨by simp [Merged.zero], nofun⟩

theorem mem_addCsids {csids known known' : List UInt16} (done : csids.foldlM addCsid known = some known')
    (csid : UInt16) : csid ∈ known' ↔ csid ∈ known ∨ csid ∈ csids := by
  induction csids generalizing known with
  | nil =>
    cases done
    simp
  | cons first csids ih =>
    rw [foldlM_cons, bind_eq_bind, bind_eq_some_iff] at done
    obtain ⟨next, added, rest⟩ := done
    have mem_next : csid ∈ next ↔ csid ∈ known ∨ csid = first := by
      rw [addCsid] at added
      split at added
      · rename_i mem
        cases added
        exact ⟨.inl, fun either => either.elim id fun same => same ▸ mem⟩
      · simp only [ite_none_right_eq_some, some.injEq] at added
        rw [← added.2, mem_append, mem_singleton]
    rw [ih rest, mem_next, mem_cons, or_assoc]

theorem Collected.merge {peers : List FqCsid} {merged merged' peer : FqCsid}
    (collected : Collected peers merged) (done : getPeerAssocCsids peer merged = some merged') :
    Collected (peers ++ [peer]) merged' := by
  rw [getPeerAssocCsids, map_eq_some_iff] at done
  obtain ⟨csids, added, rfl⟩ := done
  refine ⟨fun csid => ?_, fun last here => ?_⟩
  · rw [mem_addCsids added, collected.members]
    simp only [mem_append, mem_singleton]
    constructor
    · rintro (⟨other, mem, has⟩ | has)
      · exact ⟨other, .inl mem, has⟩
      · exact ⟨peer, .inr rfl, has⟩
    · rintro ⟨other, mem | rfl, has⟩
      · exact .inl ⟨other, mem, has⟩
      · exact .inr has
  · rw [getLast?_append, getLast?_singleton, some_or, some.injEq] at here
    rw [here]

theorem mergeRoles_role {session : Session} {todo : List Role} (nodup : todo.Nodup)
    {merged merged' : Merged} (done : todo.foldlM (mergeRole session) merged = some merged') (role : Role) :
    if role ∈ todo then
      match session.fqcsid role with
      | none => merged' role = merged role
      | some peer => getPeerAssocCsids peer (merged role) = some (merged' role)
    else merged' role = merged role := by
  induction todo generalizing merged with
  | nil =>
    cases done
    rfl
  | cons first todo ih =>
    obtain ⟨fresh, nodup⟩ := nodup_cons.mp nodup
    rw [foldlM_cons, bind_eq_bind, bind_eq_some_iff] at done
    obtain ⟨next, step, rest⟩ := done
    have later := ih nodup rest
    by_cases here : role = first
    · subst here
      rw [if_neg fresh] at later
      rw [if_pos mem_cons_self, later]
      rw [mergeRole] at step
      cases known : session.fqcsid role with
      | none =>
        rw [known] at step
        cases step
        rfl
      | some peer =>
        simp only [known, map_eq_some_iff] at step
        obtain ⟨f, got, rfl⟩ := step
        rw [update_self]
        exact got
    · have same : next role = merged role := by
        rw [mergeRole] at step
        cases known : session.fqcsid first with
        | none =>
          rw [known] at step
          cases step
          rfl
        | some peer =>
          simp only [known, map_eq_some_iff] at step
          obtain ⟨f, -, rfl⟩ := step
          rw [update_of_ne here]
      rw [same] at later
      simpa only [mem_cons, here, false_or] using later

theorem Collected.mergeSession {session : Session} {merged merged' : Merged}
    (done : mergeSession session merged = some merged') {role : Role} {peers : List FqCsid}
    (collected : Collected peers (merged role)) :
    Collected (peers ++ (session.fqcsid role).toList) (merged' role) := by
  have step := mergeRoles_role (by decide : roles.Nodup) done role
  rw [if_pos (mem_roles role)] at step
  cases known : session.fqcsid role with
  | none =>
    rw [known] at step
    rw [step, toList_none, append_nil]
    exact collected
  | some peer =>
    rw [known] at step
    exact collected.merge step

end

section

def cleared : List UInt64 → Table UInt64 Session → List (UInt64 × Session) × Table UInt64 Session
  | [], sessions => ([], sessions)
  | seid :: rest, sessions =>
    match sessions seid with
    | none => cleared rest sessions
    | some session =>
      ((seid, session) :: (cleared rest (sessions.del seid)).1, (cleared rest (sessions.del seid)).2)

def deletedSessions : List UInt16 → CsidState → List (UInt64 × Session)
  | [], _ => []
  | csid :: rest, s =>
    match s.walked csid with
    | none => deletedSessions rest s
    | some seids =>
      (cleared seids s.sessions).1 ++ deletedSessions rest
        { s with sessions := (cleared seids s.sessions).2, seidsByCsid := s.seidsByCsid.add csid [] }

def peersOf (role : Role) (sessions : List (UInt64 × Session)) : List FqCsid :=
  sessions.filterMap fun session => session.2.fqcsid role

theorem peersOf_cons (role : Role) (session : UInt64 × Session) (rest : List (UInt64 × Session)) :
    peersOf role (session :: rest) = (session.2.fqcsid role).toList ++ peersOf role rest := by
  rw [peersOf, peersOf, filterMap_cons]
  cases session.2.fqcsid role <;> rfl

theorem peersOf_append (role : Role) (first second : List (UInt64 × Session)) :
    peersOf role (first ++ second) = peersOf role first ++ peersOf role second :=
  filterMap_append

variable {seids : List UInt64} {merged merged' : Merged}

theorem cleanupList_eq {sessions sessions' : Table UInt64 Session}
    (done : cleanupList seids (sessions, merged) = some (sessions', merged')) :
    sessions' = (cleared seids sessions).2 ∧
      ∀ role peers, Collected peers (merged role) →
        Collected (peers ++ peersOf role (cleared seids sessions).1) (merged' role) := by
  induction seids generalizing sessions merged with
  | nil =>
    cases done
    exact ⟨rfl, fun role peers collected => by simpa [cleared, peersOf] using collected⟩
  | cons seid seids ih =>
    cases known : sessions seid with
    | none =>
      simp only [cleanupList, known] at done
      simp only [cleared, known]
      exact ih done
    | some session =>
      simp only [cleanupList, known, bind_eq_bind, bind_eq_some_iff] at done
      obtain ⟨next, step, rest⟩ := done
      obtain ⟨left, all⟩ := ih rest
      simp only [cleared, known]
      refine ⟨left, fun role peers collected => ?_⟩
      rw [peersOf_cons, ← append_assoc]
      exact all role _ (collected.mergeSession step)

theorem cleared_spec (seids : List UInt64) (sessions : Table UInt64 Session) (seid : UInt64) :
    (∀ session, (seid, session) ∈ (cleared seids sessions).1 →
      seid ∈ seids ∧ sessions seid = some session ∧ (cleared seids sessions).2 seid = none) ∧
    ((∀ session, (seid, session) ∉ (cleared seids sessions).1) →
      (cleared seids sessions).2 seid = sessions seid) := by
  induction seids generalizing sessions with
  | nil => exact ⟨nofun, fun _ => rfl⟩
  | cons first seids ih =>
    cases known : sessions first with
    | none =>
      simp only [cleared, known]
      obtain ⟨gone, stays⟩ := ih sessions
      exact ⟨fun session mem => ⟨mem_cons_of_mem _ (gone session mem).1, (gone session mem).2⟩,
        stays⟩
    | some found =>
      simp only [cleared, known]
      obtain ⟨gone, stays⟩ := ih (sessions.del first)
      by_cases here : seid = first
      · subst here
        have later : ∀ session, (seid, session) ∉ (cleared seids (sessions.del seid)).1 := by
          intro session mem
          have := (gone session mem).2.1
          rw [del_self] at this
          cases this
        have left := (stays later).trans (del_self _ _)
        refine ⟨fun session mem => ?_, fun absent => absurd mem_cons_self (absent found)⟩
        rcases mem_cons.mp mem with same | mem
        · cases same
          exact ⟨mem_cons_self, known, left⟩
        · exact absurd mem (later session)
      · rw [del_of_ne here] at gone stays
        refine ⟨fun session mem => ?_, fun absent => stays fun session mem =>
          absent session (mem_cons_of_mem _ mem)⟩
        rcases mem_cons.mp mem with same | mem
        · exact absurd (congrArg Prod.fst same) here
        · obtain ⟨listed, was, left⟩ := gone session mem
          exact ⟨mem_cons_of_mem _ listed, was, left⟩

theorem cleared_live {sessions : Table UInt64 Session} {seid : UInt64} {session : Session}
    (left : (cleared seids sessions).2 seid = some session) : sessions seid = some session := by
  obtain ⟨gone, stays⟩ := cleared_spec seids sessions seid
  by_cases deleted : ∃ session, (seid, session) ∈ (cleared seids sessions).1
  · obtain ⟨session', mem⟩ := deleted
    rw [(gone session' mem).2.2] at left
    cases left
  · rw [← stays fun session' mem => deleted ⟨session', mem⟩, left]

theorem walked_listed {s : CsidState} {csid : UInt16}
    (walked : s.walked csid = some seids) : s.seidsByCsid csid = some seids := by
  rw [CsidState.walked] at walked
  split at walked
  · cases walked
  · rename_i listed
    simp only [ite_none_left_eq_some, some.injEq] at walked
    rw [listed, walked.2]

theorem deletedSessions_listed {csids : List UInt16} {s : CsidState} {seid : UInt64} {session : Session}
    (deleted : (seid, session) ∈ deletedSessions csids s) :
    s.sessions seid = some session ∧
      ∃ csid ∈ csids, ∃ seids, s.seidsByCsid csid = some seids ∧ seid ∈ seids := by
  induction csids generalizing s with
  | nil => cases deleted
  | cons csid csids ih =>
    cases walked : s.walked csid with
    | none =>
      simp only [deletedSessions, walked] at deleted
      obtain ⟨was, other, mem, listed⟩ := ih deleted
      exact ⟨was, other, mem_cons_of_mem _ mem, listed⟩
    | some seids =>
      simp only [deletedSessions, walked, mem_append] at deleted
      rcases deleted with now | later
      · obtain ⟨listed, was, -⟩ := (cleared_spec seids s.sessions seid).1 session now
        exact ⟨was, csid, mem_cons_self, seids, walked_listed walked, listed⟩
      · obtain ⟨left, other, mem, list, listed, member⟩ := ih later
        refine ⟨cleared_live left, other, mem_cons_of_mem _ mem, list, ?_, member⟩
        change (s.seidsByCsid.add csid []) other = some list at listed
        rcases add_eq_some listed with ⟨-, rfl⟩ | ⟨-, old⟩
        · cases member
        · exact old

theorem cleanupCsids_eq {csids : List UInt16} {s s' : CsidState}
    (done : csids.foldlM cleanupCsid (s, merged) = some (s', merged')) :
    s'.localCsids = s.localCsids ∧
      (∀ role peers, Collected peers (merged role) →
        Collected (peers ++ peersOf role (deletedSessions csids s)) (merged' role)) ∧
      ∀ seid, ((∃ session, (seid, session) ∈ deletedSessions csids s) → s'.sessions seid = none) ∧
        ((∀ session, (seid, session) ∉ deletedSessions csids s) → s'.sessions seid = s.sessions seid) := by
  induction csids generalizing s merged with
  | nil =>
    cases done
    refine ⟨rfl, fun role peers collected => by simpa [deletedSessions, peersOf] using collected,
      fun seid => ⟨?_, fun _ => rfl⟩⟩
    rintro ⟨session, mem⟩
    cases mem
  | cons csid csids ih =>
    rw [foldlM_cons, bind_eq_bind, bind_eq_some_iff] at done
    obtain ⟨⟨next, nextMerged⟩, step, rest⟩ := done
    obtain ⟨tables, all, left⟩ := ih rest
    cases walked : s.walked csid with
    | none =>
      simp only [cleanupCsid, walked, some.injEq, Prod.mk.injEq] at step
      obtain ⟨rfl, rfl⟩ := step
      simp only [deletedSessions, walked]
      exact ⟨tables, all, left⟩
    | some seids =>
      simp only [cleanupCsid, walked, bind_eq_bind, bind_eq_some_iff] at step
      obtain ⟨⟨sessions, merged₁⟩, walk, same⟩ := step
      cases same
      obtain ⟨rfl, collect⟩ := cleanupList_eq walk
      simp only [deletedSessions, walked]
      refine ⟨tables, fun role peers collected => ?_, fun seid => ⟨?_, fun absent => ?_⟩⟩
      · rw [peersOf_append, ← append_assoc]
        exact all role _ (collect role peers collected)
      · rintro ⟨session, mem⟩
        rcases mem_append.mp mem with now | later
        · obtain ⟨-, -, gone⟩ := (cleared_spec seids s.sessions seid).1 session now
          by_cases again : ∃ session, (seid, session) ∈ deletedSessions csids
              { s with
                sessions := (cleared seids s.sessions).2
                seidsByCsid := s.seidsByCsid.add csid [] }
          · exact (left seid).1 again
          · rw [(left seid).2 fun session mem => again ⟨session, mem⟩]
            exact gone
        · exact (left seid).1 ⟨session, later⟩
      · rw [(left seid).2 fun session mem => absent session (mem_append_right _ mem)]
        exact (cleared_spec seids s.sessions seid).2 fun session mem =>
          absent session (mem_append_left _ mem)

end

/-- A session listed under a local CSID has an entry with it for each of its peers' CSIDs. -/
def Linked (s : CsidState) : Prop :=
  ∀ csid seids seid session, s.seidsByCsid csid = some seids → seid ∈ seids →
    s.sessions seid = some session → ∀ role peer, session.fqcsid role = some peer →
      ∀ k ∈ peer.localCsid, ∃ entry, s.localCsids role.hash ⟨k, peer.nodeAddr⟩ = some entry ∧
        csid ∈ entry.csids

def Deleted (s s' : CsidState) (seid : UInt64) (session : Session) : Prop :=
  s.sessions seid = some session ∧ s'.sessions seid = none

def CsidState.csidsAt (s : CsidState) (hash : PeerHash) (key : CsidKey) : List UInt16 :=
  match s.localCsids hash key with
  | none => []
  | some entry => entry.csids

/-- The entries of the deleted sessions' peers have none of the CSIDs, and are gone exactly if
nothing else was there; all other local CSIDs stay, in order. -/
structure PeersCleaned (csids : List UInt16) (s s' : CsidState) : Prop where
  gone : ∀ seid session, Deleted s s' seid session → ∀ role peer, session.fqcsid role = some peer →
    ∀ k ∈ peer.localCsid, ∀ csid ∈ csids, csid ∉ s'.csidsAt role.hash ⟨k, peer.nodeAddr⟩
  kept : ∀ hash key, (s'.csidsAt hash key).filter (· ∉ csids) = (s.csidsAt hash key).filter (· ∉ csids)
  emptied : ∀ seid session, Deleted s s' seid session → ∀ role peer, session.fqcsid role = some peer →
    ∀ k ∈ peer.localCsid, (s'.localCsids role.hash ⟨k, peer.nodeAddr⟩ = none ↔
      ∀ csid ∈ s.csidsAt role.hash ⟨k, peer.nodeAddr⟩, csid ∈ csids)

/-- For each CSID of a deleted session's peer a role with the same table has a deleted session with
this CSID, and the last deleted session has this peer's address. -/
def LastNode (csids : List UInt16) (s : CsidState) : Prop :=
  ∀ seid session, (seid, session) ∈ deletedSessions csids s → ∀ role peer,
    session.fqcsid role = some peer → ∀ k ∈ peer.localCsid, ∃ other last, other.hash = role.hash ∧
      (∃ merged ∈ peersOf other (deletedSessions csids s), k ∈ merged.localCsid) ∧
      (peersOf other (deletedSessions csids s)).getLast? = some last ∧ last.nodeAddr = peer.nodeAddr

section

variable {csids : List UInt16} {s s' : CsidState}

def Merged.keys (merged : Merged) : List (PeerHash × CsidKey) :=
  roles.flatMap fun role => (merged role).keys role.hash

theorem mem_keys {merged : Merged} {hash : PeerHash} {key : CsidKey} :
    (hash, key) ∈ merged.keys ↔ ∃ role, Role.hash role = hash ∧ key.localCsid ∈ (merged role).localCsid ∧
      (merged role).nodeAddr = key.nodeAddr := by
  simp only [Merged.keys, FqCsid.keys, mem_flatMap, mem_map, Prod.mk.injEq]
  constructor
  · rintro ⟨role, -, csid, mem, same, rfl⟩
    exact ⟨role, same, mem, rfl⟩
  · rintro ⟨role, same, mem, node⟩
    exact ⟨role, mem_roles role, key.localCsid, mem, same, by rw [node]⟩

theorem cleanup_spec (done : cleanupSessByCsidEntry csids s = some s') :
    ∃ merged : Merged, (∀ role, Collected (peersOf role (deletedSessions csids s)) (merged role)) ∧
      Cleans csids merged.keys s.localCsids s'.localCsids ∧
      ∀ seid session, Deleted s s' seid session ↔ (seid, session) ∈ deletedSessions csids s := by
  rw [cleanupSessByCsidEntry, bind_eq_bind, bind_eq_some_iff] at done
  obtain ⟨⟨s₁, merged⟩, walk, same⟩ := done
  cases same
  obtain ⟨tables, collected, sessions⟩ := cleanupCsids_eq walk
  refine ⟨merged, fun role => ?_, ?_, fun seid session => ⟨fun deleted => ?_, fun mem => ?_⟩⟩
  · simpa using collected role [] (collected_zero role)
  · rw [← tables]
    exact cleans_roles csids merged roles s₁.localCsids
  · by_contra absent
    have stays : ∀ other, (seid, other) ∉ deletedSessions csids s := by
      intro other mem
      have was := (deletedSessions_listed mem).1
      rw [deleted.1, some.injEq] at was
      rw [was] at absent
      exact absent mem
    have left := (sessions seid).2 stays
    have gone : s₁.sessions seid = none := deleted.2
    rw [left, deleted.1] at gone
    cases gone
  · exact ⟨(deletedSessions_listed mem).1, (sessions seid).1 ⟨session, mem⟩⟩

theorem csidsAt_of_cleans {keys : List (PeerHash × CsidKey)}
    (cleans : Cleans csids keys s.localCsids s'.localCsids) (hash : PeerHash) (key : CsidKey) :
    s'.csidsAt hash key =
      if (hash, key) ∈ keys then (s.csidsAt hash key).filter (· ∉ csids) else s.csidsAt hash key := by
  have entry := cleans hash key
  by_cases member : (hash, key) ∈ keys
  · rw [if_pos member] at entry ⊢
    cases held : s.localCsids hash key with
    | none => simp only [CsidState.csidsAt, entry, held, bind_none, filter_nil]
    | some found =>
      rw [held, bind_some] at entry
      cases left : found.cleaned csids with
      | none =>
        rw [left] at entry
        have all := (LocalCsids.cleaned_eq_none_iff csids found).mp left
        have empty : found.csids.filter (· ∉ csids) = [] := by
          rw [filter_eq_nil_iff]
          intro x mem
          simpa using all x mem
        simp only [CsidState.csidsAt, entry, held, empty]
      | some rest =>
        rw [left] at entry
        simp only [CsidState.csidsAt, entry, held, LocalCsids.cleaned_csids left]
  · rw [if_neg member] at entry ⊢
    simp only [CsidState.csidsAt, entry]

/-- The entries are cleaned up exactly if every peer of the deleted sessions is reached by the
address that its role's merge ends with. -/
theorem peersCleaned_iff_lastNode (linked : Linked s) (done : cleanupSessByCsidEntry csids s = some s') :
    PeersCleaned csids s s' ↔ LastNode csids s := by
  obtain ⟨merged, collected, cleans, deletedIff⟩ := cleanup_spec done
  have reached : ∀ hash k node, (hash, ⟨k, node⟩) ∈ merged.keys ↔ ∃ other last, Role.hash other = hash ∧
      (∃ peer ∈ peersOf other (deletedSessions csids s), k ∈ peer.localCsid) ∧
      (peersOf other (deletedSessions csids s)).getLast? = some last ∧ last.nodeAddr = node := by
    intro hash k node
    rw [mem_keys]
    constructor
    · rintro ⟨role, same, member, address⟩
      obtain ⟨peer, mem, has⟩ := ((collected role).members k).mp member
      cases final : (peersOf role (deletedSessions csids s)).getLast? with
      | none =>
        rw [getLast?_eq_none_iff.mp final] at mem
        cases mem
      | some last =>
        exact ⟨role, last, same, ⟨peer, mem, has⟩, final, by rw [← (collected role).node last final, address]⟩
    · rintro ⟨role, last, same, has, final, address⟩
      exact ⟨role, same, ((collected role).members k).mpr has,
        ((collected role).node last final).trans address⟩
  constructor
  · intro cleaned seid session deleted role peer known k member
    rw [← reached]
    by_contra missed
    -- the entry that is not reached still has the session's local CSID
    obtain ⟨was, csid, mem, seids, listed, here⟩ := deletedSessions_listed deleted
    obtain ⟨entry, held, has⟩ := linked csid seids seid session listed here was role peer known k member
    refine cleaned.gone seid session ((deletedIff seid session).mpr deleted) role peer known k member csid mem ?_
    rw [csidsAt_of_cleans cleans, if_neg missed]
    simpa only [CsidState.csidsAt, held] using has
  · intro last
    have inKeys : ∀ seid session, Deleted s s' seid session → ∀ role peer, session.fqcsid role = some peer →
        ∀ k ∈ peer.localCsid, (role.hash, ⟨k, peer.nodeAddr⟩) ∈ merged.keys :=
      fun seid session deleted role peer known k member =>
        (reached _ _ _).mpr (last seid session ((deletedIff seid session).mp deleted) role peer known k member)
    refine ⟨fun seid session deleted role peer known k member csid mem has => ?_, fun hash key => ?_,
      fun seid session deleted role peer known k member => ?_⟩
    · rw [csidsAt_of_cleans cleans, if_pos (inKeys seid session deleted role peer known k member)] at has
      have other := (mem_filter.mp has).2
      simp only [mem, not_true_eq_false, decide_false, Bool.false_eq_true] at other
    · rw [csidsAt_of_cleans cleans]
      split
      · rw [filter_filter]
        exact filter_congr fun x _ => Bool.and_self _
      · rfl
    · obtain ⟨was, csid, mem, seids, listed, here⟩ :=
        deletedSessions_listed ((deletedIff seid session).mp deleted)
      obtain ⟨entry, held, -⟩ := linked csid seids seid session listed here was role peer known k member
      rw [cleans, if_pos (inKeys seid session deleted role peer known k member), held, bind_some,
        LocalCsids.cleaned_eq_none_iff]
      simp only [CsidState.csidsAt, held]

end

def sgwcSession (node : UInt32) : Session where
  fqcsid
    | .sgwc => some { localCsid := [5], nodeAddr := .v4 node }
    | _ => none

def twoPeers (first second : UInt32) : CsidState where
  sessions := (Table.empty.add 11 (sgwcSession first)).add 12 (sgwcSession second)
  seidsByCsid := Table.empty.add 1 [11, 12]
  localCsids
    | .sgwcsid => (Table.empty.add ⟨5, .v4 first⟩ ⟨[1, 2], by decide⟩).add ⟨5, .v4 second⟩ ⟨[1, 2], by decide⟩
    | _ => Table.empty

theorem twoPeers_linked (first second : UInt32) : Linked (twoPeers first second) := by
  intro csid seids seid session listed mem live role peer known k has
  simp only [twoPeers, Table.add, Table.empty, ite_none_right_eq_some, some.injEq] at listed
  obtain ⟨rfl, rfl⟩ := listed
  have which : session = sgwcSession first ∨ session = sgwcSession second := by
    simp only [mem_cons, not_mem_nil, or_false] at mem
    rcases mem with rfl | rfl
    · exact .inl (some.inj live).symm
    · exact .inr (some.inj live).symm
  rcases which with rfl | rfl <;> cases role <;> cases known <;>
    obtain rfl := mem_singleton.mp has
  · by_cases same : first = second
    · subst same
      exact ⟨_, add_self .., by decide⟩
    · refine ⟨⟨[1, 2], by decide⟩, ?_, by decide⟩
      exact (add_of_ne (by simpa [NodeAddress.v4] using same)).trans (add_self ..)
  · exact ⟨_, add_self .., by decide⟩

theorem peersCleaned_onePeer :
    PeersCleaned [1] (twoPeers 7 7) ((cleanupSessByCsidEntry [1] (twoPeers 7 7)).get rfl) := by
  refine (peersCleaned_iff_lastNode (twoPeers_linked 7 7) (some_get _).symm).mpr ?_
  intro seid session deleted role peer known k has
  have which : session = sgwcSession 7 := by
    change (seid, session) ∈ [((11 : UInt64), sgwcSession 7), (12, sgwcSession 7)] at deleted
    simp only [mem_cons, Prod.mk.injEq, not_mem_nil, or_false] at deleted
    rcases deleted with ⟨-, same⟩ | ⟨-, same⟩ <;> exact same
  subst which
  cases role <;> cases known
  obtain rfl := mem_singleton.mp has
  exact ⟨.sgwc, _, rfl, ⟨_, mem_cons_self, mem_singleton_self _⟩, rfl, rfl⟩

/-- The entry of the first session's peer keeps the local CSID that failed. -/
theorem first_peer_not_cleaned :
    Linked (twoPeers 7 8) ∧
      ¬ PeersCleaned [1] (twoPeers 7 8) ((cleanupSessByCsidEntry [1] (twoPeers 7 8)).get rfl) := by
  refine ⟨twoPeers_linked 7 8, fun cleaned => ?_⟩
  exact cleaned.gone 11 (sgwcSession 7) ⟨rfl, rfl⟩ .sgwc _ rfl 5 (by decide) 1 (by decide) (by decide)

end Epc.Up.Cleanup
