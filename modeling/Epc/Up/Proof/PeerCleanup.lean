import Epc.Lib.Lists
import Epc.Up.PeerCleanup

/-! Which failures of a peer's CSIDs are cleaned up on the user plane: the sessions that are listed under the
CSIDs go, and the lists of all other keys lose those sessions and keep the others. -/

namespace Epc.Up.PeerCleanup

open Epc.Lib Epc.PeerCsid List Table PeerState
open Option hiding any_eq_true filter_filter mem_map
open Epc.Up.Cleanup (FqCsid sxPortId)

section

/-- The keys that `link_dp_sess_with_peer_csid` lists a session under: each first CSID. -/
def ownKey (fqcsid : Option FqCsid) : Option PeerCsidKey :=
  fqcsid.bind fun peer => peer.localCsid.head?.map fun csid => ⟨sxPortId, csid, peer.nodeAddr⟩

def PeerSession.keys (session : PeerSession) : List PeerCsidKey :=
  [session.mme, session.pgw, session.sgw].filterMap ownKey

def PeerSession.otherKeys (nodeAddr : NodeAddress) (session : PeerSession) : List PeerCsidKey :=
  [session.mme, session.pgw, session.sgw].filterMap (otherKey nodeAddr)

def nodesOf : Option Entry → List Seids
  | some (.list nodes) => nodes
  | _ => []

def PeerState.listed (s : PeerState) (key : PeerCsidKey) : List Seids :=
  nodesOf (s.seidByPeerCsid key)

/-- Every live session is in the lists of its keys, where no other node is taken for it. -/
structure Listed (s : PeerState) : Prop where
  once : ∀ seid session, s.sessions seid = some session → ∀ key ∈ session.keys,
    ∃ node, (s.listed key).filter (isNodeOf seid) = [node] ∧ node.upSeid = seid
  nonzero : s.sessions 0 = none

def failed (peerCsids : FqCsid) (iface : UInt8) : List PeerCsidKey :=
  peerCsids.localCsid.map fun csid => ⟨iface, csid, peerCsids.nodeAddr⟩

def PeerState.hit (s : PeerState) (keys : List PeerCsidKey) (seid : UInt64) : Bool :=
  keys.any fun key => (s.listed key).any fun node => node.upSeid = seid

def PeerState.deleted (s : PeerState) (keys : List PeerCsidKey) (seid : UInt64) : Bool :=
  (s.sessions seid).isSome && s.hit keys seid

/-- The sessions listed under the keys are gone, the lists of the other keys lose them and nothing
else, and the sessions left are found under their keys. -/
structure PeersCleared (keys : List PeerCsidKey) (s s' : PeerState) : Prop where
  sessions : ∀ seid, s'.sessions seid = if s.hit keys seid then none else s.sessions seid
  lists : ∀ key ∉ keys,
    s'.listed key = (s.listed key).filter fun node => !s.deleted keys node.upSeid
  found : ∀ seid session, s'.sessions seid = some session → ∀ key ∈ session.keys,
    ∃ node ∈ s'.listed key, node.upSeid = seid

def walkedSessions : List Seids → Table UInt64 PeerSession → List (UInt64 × PeerSession)
  | [], _ => []
  | node :: rest, sessions =>
    match sessions node.upSeid with
    | none => walkedSessions rest sessions
    | some session => (node.upSeid, session) :: walkedSessions rest (sessions.del node.upSeid)

def removals (nodeAddr : NodeAddress) (nodes : List Seids) (sessions : Table UInt64 PeerSession) :
    List (UInt64 × PeerCsidKey) :=
  (walkedSessions nodes sessions).flatMap fun walked =>
    (walked.2.otherKeys nodeAddr).map fun key => (walked.1, key)

def PeerState.without (s : PeerState) (keys : List PeerCsidKey) : Table UInt64 PeerSession :=
  fun seid => if s.hit keys seid then none else s.sessions seid

/-- The last removal in the walk over one of the keys is from the list of `key`. -/
def EndsWith (nodeAddr : NodeAddress) (s : PeerState) (keys : List PeerCsidKey) (key : PeerCsidKey) : Prop :=
  ∃ before walked after, keys = before ++ walked :: after ∧ ∃ seid,
    (removals nodeAddr (s.listed walked) (s.without before)).getLast? = some (seid, key)

/-- Where a walk ends with a key, its list has only deleted sessions; elsewhere those have the key
among the ones of another address. -/
structure Confined (nodeAddr : NodeAddress) (keys : List PeerCsidKey) (s : PeerState) : Prop where
  ended : ∀ key ∉ keys, EndsWith nodeAddr s keys key → ∀ node ∈ s.listed key, s.deleted keys node.upSeid
  passed : ∀ key ∉ keys, ¬ EndsWith nodeAddr s keys key → ∀ node ∈ s.listed key,
    s.deleted keys node.upSeid → ∃ session, s.sessions node.upSeid = some session ∧
      key ∈ session.otherKeys nodeAddr

end

section

variable {key : PeerCsidKey} {nodeAddr : NodeAddress} {nodes all : List Seids}

theorem otherKey_eq_some {fqcsid : Option FqCsid} :
    otherKey nodeAddr fqcsid = some key ↔ ownKey fqcsid = some key ∧ key.peerNodeAddr ≠ nodeAddr := by
  rcases fqcsid with _ | ⟨_ | ⟨csid, csids⟩, address⟩
  · simp [otherKey, ownKey]
  · simp [otherKey, ownKey]
  · simp only [otherKey, ownKey, ite_none_left_eq_some, some.injEq, bind_some, head?_cons, map_some]
    constructor
    · rintro ⟨ne, rfl⟩
      exact ⟨rfl, ne⟩
    · rintro ⟨rfl, ne⟩
      exact ⟨ne, rfl⟩

theorem mem_otherKeys {session : PeerSession} :
    key ∈ session.otherKeys nodeAddr ↔ key ∈ session.keys ∧ key.peerNodeAddr ≠ nodeAddr := by
  simp only [PeerSession.otherKeys, PeerSession.keys, mem_filterMap, otherKey_eq_some]
  constructor
  · rintro ⟨fqcsid, among, own, ne⟩
    exact ⟨⟨fqcsid, among, own⟩, ne⟩
  · rintro ⟨⟨fqcsid, among, own⟩, ne⟩
    exact ⟨fqcsid, among, own, ne⟩

theorem PeerState.hit_iff {s : PeerState} {keys : List PeerCsidKey} {seid : UInt64} :
    s.hit keys seid = true ↔ ∃ key ∈ keys, ∃ node ∈ s.listed key, node.upSeid = seid := by
  simp [hit]

def takenOut (events : List (UInt64 × PeerCsidKey)) (key : PeerCsidKey) (nodes : List Seids) : List Seids :=
  (events.filter fun event => event.2 = key).foldl
    (fun nodes event => removeSessCsidDataNode event.1 nodes) nodes

theorem takenOut_append (events events' : List (UInt64 × PeerCsidKey)) (key : PeerCsidKey)
    (nodes : List Seids) :
    takenOut (events ++ events') key nodes = takenOut events' key (takenOut events key nodes) := by
  rw [takenOut, filter_append, foldl_append, takenOut, takenOut]

theorem takenOut_nil (events : List (UInt64 × PeerCsidKey)) (key : PeerCsidKey) :
    takenOut events key [] = [] := by
  rw [takenOut]
  generalize events.filter (fun event => event.2 = key) = chosen
  induction chosen with
  | nil => rfl
  | cons event rest ih => exact ih

theorem removeSessCsidDataNode_eq {seid : UInt64} {own : Seids}
    (sub : nodes.Sublist all) (once : all.filter (isNodeOf seid) = [own]) (named : own.upSeid = seid) :
    removeSessCsidDataNode seid nodes = nodes.filter fun node => node.upSeid ≠ seid := by
  have few : (nodes.filter (isNodeOf seid)).Sublist [own] := once ▸ sub.filter _
  have same : ∀ node ∈ nodes, isNodeOf seid node = true ↔ node.upSeid = seid := by
    intro node mem
    constructor
    · intro taken
      have isOwn := few.subset (mem_filter.mpr ⟨mem, taken⟩)
      rw [mem_singleton.mp isOwn, named]
    · intro upSeid
      simp [isNodeOf, upSeid]
  rw [removeSessCsidDataNode, eraseP_eq_filter (few.length_le)]
  refine filter_congr fun node mem => ?_
  rw [Bool.eq_iff_iff, Bool.not_eq_true', ← Bool.not_eq_true, same node mem, decide_eq_true_iff]

theorem takenOut_eq {events : List (UInt64 × PeerCsidKey)}
    (sub : nodes.Sublist all) (once : ∀ seid, (seid, key) ∈ events →
      ∃ own, all.filter (isNodeOf seid) = [own] ∧ own.upSeid = seid) :
    takenOut events key nodes = nodes.filter fun node => (node.upSeid, key) ∉ events := by
  induction events generalizing nodes with
  | nil => simp [takenOut]
  | cons event events ih =>
    obtain ⟨seid, other⟩ := event
    have rest := fun {left : List Seids} (sub : left.Sublist all) =>
      ih sub fun seid mem => once seid (mem_cons_of_mem _ mem)
    rw [← singleton_append, takenOut_append]
    by_cases here : other = key
    · subst here
      obtain ⟨own, alone, named⟩ := once seid mem_cons_self
      have first : takenOut [(seid, other)] other nodes = nodes.filter fun node => node.upSeid ≠ seid := by
        rw [takenOut, filter_cons_of_pos (by simp)]
        exact removeSessCsidDataNode_eq sub alone named
      rw [first, rest (filter_sublist.trans sub), filter_filter]
      refine filter_congr fun node _ => ?_
      simp [Bool.and_comm]
    · have first : takenOut [(seid, other)] key nodes = nodes := by
        rw [takenOut, filter_cons_of_neg (by simpa using here)]
        rfl
      rw [first, rest sub]
      refine filter_congr fun node _ => ?_
      simp [Ne.symm here]

end

section

variable {nodeAddr : NodeAddress} {w w' w'' : Walk} {sessions : Table UInt64 PeerSession}
  {session : PeerSession}

/-- The removals `events` lead from `w` to `w'`: the variable has the key of the last one. -/
structure Removed (events : List (UInt64 × PeerCsidKey)) (w w' : Walk) : Prop where
  key : w'.key = (events.getLast?.map Prod.snd).getD w.key
  same : ∀ key, (∀ event ∈ events, event.2 ≠ key) →
    w'.state.seidByPeerCsid key = w.state.seidByPeerCsid key
  listed : ∀ key, w'.state.listed key = takenOut events key (w.state.listed key)

theorem Removed.refl (w : Walk) : Removed [] w w :=
  ⟨rfl, fun _ _ => rfl, fun _ => rfl⟩

theorem Removed.trans {events events' : List (UInt64 × PeerCsidKey)} (first : Removed events w w')
    (second : Removed events' w' w'') : Removed (events ++ events') w w'' where
  key := by
    rw [second.key, first.key, getLast?_append]
    cases events'.getLast? <;> rfl
  same key none := by
    rw [second.same key fun event mem => none event (mem_append_right _ mem),
      first.same key fun event mem => none event (mem_append_left _ mem)]
  listed key := by rw [second.listed, first.listed, takenOut_append]

variable {seid : UInt64}

theorem removeSessEntry_spec {key : PeerCsidKey} {lists lists' : Table PeerCsidKey Entry}
    (done : removeSessEntry seid key lists = .ok lists') :
    (∀ other ≠ key, lists' other = lists other) ∧
      nodesOf (lists' key) = removeSessCsidDataNode seid (nodesOf (lists key)) := by
  rw [removeSessEntry] at done
  cases entry : lists key with
  | none =>
    simp only [entry] at done
    cases done
    exact ⟨fun _ _ => rfl, by rw [entry]; rfl⟩
  | some stored =>
    cases stored with
    | freed =>
      simp only [entry] at done
      cases done
    | list nodes =>
      simp only [entry] at done
      cases left : removeSessCsidDataNode seid nodes with
      | nil =>
        simp only [left] at done
        cases done
        refine ⟨fun other ne => del_of_ne ne, ?_⟩
        rw [del_self]
        exact left.symm
      | cons node rest =>
        simp only [left] at done
        cases done
        refine ⟨fun other ne => add_of_ne ne, ?_⟩
        rw [add_self]
        exact left.symm

theorem removeFrom_spec {fqcsid : Option FqCsid} (done : removeFrom nodeAddr seid fqcsid w = .ok w') :
    Removed ((otherKey nodeAddr fqcsid).toList.map fun key => (seid, key)) w w' ∧
      w'.state.sessions = w.state.sessions := by
  rw [removeFrom] at done
  cases other : otherKey nodeAddr fqcsid with
  | none =>
    simp only [other] at done
    cases done
    exact ⟨Removed.refl w, rfl⟩
  | some key =>
    simp only [other] at done
    obtain ⟨lists, removed, done⟩ := except_bind_ok done
    cases done
    obtain ⟨others, own⟩ := removeSessEntry_spec removed
    refine ⟨⟨rfl, fun k ne => ?_, fun k => ?_⟩, rfl⟩
    · exact others k (ne (seid, key) (mem_singleton_self _)).symm
    · by_cases here : key = k
      · subst here
        simpa [takenOut, listed] using own
      · simpa [takenOut, here, listed] using congrArg nodesOf (others k (Ne.symm here))

theorem cleanupSession_spec (done : cleanupSession nodeAddr seid session w = .ok w') :
    Removed ((session.otherKeys nodeAddr).map fun key => (seid, key)) w w' ∧
      w'.state.sessions = w.state.sessions.del seid := by
  obtain ⟨w₁, mme, done⟩ := except_bind_ok done
  obtain ⟨w₂, pgw, done⟩ := except_bind_ok done
  obtain ⟨w₃, sgw, done⟩ := except_bind_ok done
  obtain ⟨removed₁, same₁⟩ := removeFrom_spec mme
  obtain ⟨removed₂, same₂⟩ := removeFrom_spec pgw
  obtain ⟨removed₃, same₃⟩ := removeFrom_spec sgw
  have sessions : w₃.state.sessions = w.state.sessions := by rw [same₃, same₂, same₁]
  have removed := (removed₁.trans removed₂).trans removed₃
  have events : (session.otherKeys nodeAddr).map (fun key => (seid, key)) =
      ((otherKey nodeAddr session.mme).toList.map (fun key => (seid, key)) ++
        (otherKey nodeAddr session.pgw).toList.map (fun key => (seid, key))) ++
        (otherKey nodeAddr session.sgw).toList.map (fun key => (seid, key)) := by
    rw [PeerSession.otherKeys, filterMap_eq_flatMap_toList, ← map_append, ← map_append]
    simp
  rw [events]
  cases isUp : session.upFqcsid with
  | none =>
    simp only [isUp] at done
    cases done
  | some csids =>
    simp only [isUp] at done
    obtain ⟨seidsByCsid, -, done⟩ := except_bind_ok done
    cases done
    exact ⟨⟨removed.key, removed.same, removed.listed⟩, by rw [sessions]⟩

variable {nodes : List Seids}

theorem cleanupNodes_spec (done : cleanupNodes nodeAddr nodes w = .ok w') :
    Removed (removals nodeAddr nodes w.state.sessions) w w' ∧
      w'.state.sessions = fun seid =>
        if nodes.any fun node => node.upSeid = seid then none else w.state.sessions seid := by
  induction nodes generalizing w with
  | nil =>
    cases done
    exact ⟨Removed.refl _, rfl⟩
  | cons node rest ih =>
    rw [cleanupNodes] at done
    cases live : w.state.sessions node.upSeid with
    | none =>
      simp only [live] at done
      obtain ⟨removed, sessions⟩ := ih done
      simp only [removals, walkedSessions, live]
      refine ⟨removed, sessions.trans (funext fun seid => ?_)⟩
      by_cases here : node.upSeid = seid
      · subst here
        simp [live]
      · simp [here]
    | some session =>
      simp only [live] at done
      obtain ⟨w₁, first, done⟩ := except_bind_ok done
      obtain ⟨removedFirst, sessionsFirst⟩ := cleanupSession_spec first
      obtain ⟨removed, sessions⟩ := ih done
      rw [sessionsFirst] at removed sessions
      simp only [removals, walkedSessions, live, flatMap_cons]
      refine ⟨removedFirst.trans removed, sessions.trans (funext fun seid => ?_)⟩
      by_cases here : node.upSeid = seid
      · subst here
        simp
      · simp [here, del_of_ne (Ne.symm here)]

theorem mem_walkedSessions :
    (seid, session) ∈ walkedSessions nodes sessions ↔
      sessions seid = some session ∧ ∃ node ∈ nodes, node.upSeid = seid := by
  induction nodes generalizing sessions with
  | nil => simp [walkedSessions]
  | cons node rest ih =>
    rw [walkedSessions]
    cases live : sessions node.upSeid with
    | none =>
      simp only [ih, exists_mem_cons_iff]
      constructor
      · rintro ⟨known, listed⟩
        exact ⟨known, .inr listed⟩
      · rintro ⟨known, rfl | listed⟩
        · rw [live] at known
          cases known
        · exact ⟨known, listed⟩
    | some found =>
      simp only [mem_cons, Prod.mk.injEq, ih]
      by_cases here : node.upSeid = seid
      · subst here
        simp [live, eq_comm]
      · simp [here, Ne.symm here, del_of_ne (Ne.symm here)]

theorem mem_removals {key : PeerCsidKey} :
    (seid, key) ∈ removals nodeAddr nodes sessions ↔ (∃ node ∈ nodes, node.upSeid = seid) ∧
      ∃ session, sessions seid = some session ∧ key ∈ session.otherKeys nodeAddr := by
  simp only [removals, mem_flatMap, mem_map, Prod.mk.injEq, Prod.exists, mem_walkedSessions]
  constructor
  · rintro ⟨other, session, ⟨known, listed⟩, k, among, rfl, rfl⟩
    exact ⟨listed, session, known, among⟩
  · rintro ⟨listed, session, known, among⟩
    exact ⟨seid, session, ⟨known, listed⟩, key, among, rfl, rfl⟩

end

section

variable {nodeAddr : NodeAddress} {s s₁ s₂ s' : PeerState} {before : List PeerCsidKey} {key : PeerCsidKey}
  {events : List (UInt64 × PeerCsidKey)}

theorem endsWith_concat {walked : PeerCsidKey} :
    EndsWith nodeAddr s (before ++ [walked]) key ↔ EndsWith nodeAddr s before key ∨
      ∃ seid, (removals nodeAddr (s.listed walked) (s.without before)).getLast? = some (seid, key) := by
  constructor
  · rintro ⟨first, here, after, split, last⟩
    rcases eq_nil_or_concat after with rfl | ⟨rest, final, rfl⟩
    · obtain ⟨rfl, same⟩ := append_inj' split rfl
      cases same
      exact .inr last
    · rw [concat_eq_append, ← cons_append, ← append_assoc] at split
      obtain ⟨rfl, -⟩ := append_inj' split rfl
      exact .inl ⟨first, here, rest, rfl, last⟩
  · rintro (⟨first, here, after, rfl, last⟩ | last)
    · exact ⟨first, here, after ++ [walked], by simp, last⟩
    · exact ⟨before, walked, [], rfl, last⟩

theorem not_endsWith_nil : ¬ EndsWith nodeAddr s [] key := by
  rintro ⟨first, here, after, split, -⟩
  simp at split

theorem EndsWith.address (ends : EndsWith nodeAddr s before key) : key.peerNodeAddr ≠ nodeAddr := by
  obtain ⟨first, here, after, -, seid, last⟩ := ends
  obtain ⟨-, session, -, among⟩ := mem_removals.mp (mem_of_getLast? last)
  exact (mem_otherKeys.mp among).2

def PeerState.taken (nodeAddr : NodeAddress) (s : PeerState) (keys : List PeerCsidKey) (key : PeerCsidKey)
    (seid : UInt64) : Bool :=
  s.hit keys seid && (s.sessions seid).any fun session => key ∈ session.otherKeys nodeAddr

variable {keys : List PeerCsidKey}

theorem taken_iff {seid : UInt64} :
    s.taken nodeAddr keys key seid = true ↔ s.hit keys seid = true ∧
      ∃ session, s.sessions seid = some session ∧ key ∈ session.otherKeys nodeAddr := by
  rw [taken, Bool.and_eq_true, Option.any_eq_true]
  simp

/-- What the walks over the lists of `before` have done. -/
structure Swept (nodeAddr : NodeAddress) (s : PeerState) (before : List PeerCsidKey) (s₁ : PeerState) :
    Prop where
  sessions : s₁.sessions = s.without before
  walked : ∀ key ∈ before, s₁.listed key = [] ∨ ∃ node, s₁.listed key = [node] ∧ node.upSeid = 0
  same : ∀ key ∉ before, key.peerNodeAddr = nodeAddr → s₁.seidByPeerCsid key = s.seidByPeerCsid key
  ended : ∀ key, EndsWith nodeAddr s before key → s₁.listed key = []
  passed : ∀ key, key.peerNodeAddr ≠ nodeAddr → ¬ EndsWith nodeAddr s before key →
    s₁.listed key = (s.listed key).filter fun node => !s.taken nodeAddr before key node.upSeid

theorem swept_start : Swept nodeAddr s [] s where
  sessions := rfl
  walked _ mem := by cases mem
  same _ _ _ := rfl
  ended _ ends := absurd ends not_endsWith_nil
  passed key _ _ := by
    refine (filter_eq_self.mpr fun node _ => ?_).symm
    rw [taken, hit]
    rfl

theorem hit_concat {last : PeerCsidKey} {seid : UInt64} :
    s.hit (keys ++ [last]) seid = (s.hit keys seid || (s.listed last).any fun node => node.upSeid = seid) := by
  simp [hit]

theorem without_concat {last : PeerCsidKey} :
    s.without (keys ++ [last]) = fun seid =>
      if (s.listed last).any fun node => node.upSeid = seid then none else s.without keys seid := by
  funext seid
  rw [without, without, hit_concat]
  cases s.hit keys seid <;> cases (s.listed last).any fun node => node.upSeid = seid <;> rfl

theorem removals_nil {nodes : List Seids} {sessions : Table UInt64 PeerSession}
    (none : ∀ node ∈ nodes, sessions node.upSeid = none) : removals nodeAddr nodes sessions = [] := by
  refine eq_nil_iff_forall_not_mem.mpr fun ⟨seid, key⟩ mem => ?_
  obtain ⟨⟨node, listed, rfl⟩, session, live, -⟩ := mem_removals.mp mem
  rw [none node listed] at live
  cases live

theorem Swept.skip (inv : Swept nodeAddr s before s₁)
    (gone : ∀ node ∈ s.listed key, s.without before node.upSeid = none)
    (empty : s₁.listed key = [] ∨ ∃ node, s₁.listed key = [node] ∧ node.upSeid = 0) :
    Swept nodeAddr s (before ++ [key]) s₁ where
  sessions := by
    rw [inv.sessions, without_concat]
    funext seid
    split
    · rename_i listed
      obtain ⟨node, mem, same⟩ := any_eq_true.mp listed
      rw [← of_decide_eq_true same, gone node mem]
    · rfl
  walked other mem := by
    rcases mem_append.mp mem with earlier | last
    · exact inv.walked other earlier
    · rw [mem_singleton.mp last]
      exact empty
  same other absent address := inv.same other (fun mem => absent (mem_append_left _ mem)) address
  ended other ends := by
    rw [endsWith_concat, removals_nil gone] at ends
    rcases ends with earlier | ⟨_, last⟩
    · exact inv.ended other earlier
    · cases last
  passed other address notEnded := by
    rw [endsWith_concat, not_or] at notEnded
    rw [inv.passed other address notEnded.1]
    refine filter_congr fun node _ => ?_
    rw [taken, taken, hit_concat]
    by_cases listed : (s.listed key).any fun other => other.upSeid = node.upSeid
    · obtain ⟨same, mem, equal⟩ := any_eq_true.mp listed
      have none := gone same mem
      rw [of_decide_eq_true equal, without] at none
      cases hit : s.hit before node.upSeid with
      | true => rfl
      | false =>
        rw [hit, if_neg Bool.false_ne_true] at none
        rw [none]
        simp
    · rw [Bool.not_eq_true] at listed
      rw [listed, Bool.or_false]

theorem variable_eq_iff {variable' other : PeerCsidKey}
    (address : key.peerNodeAddr = nodeAddr) (isLast : variable' = (events.getLast?.map Prod.snd).getD key)
    (ne : other.peerNodeAddr ≠ nodeAddr) :
    other = variable' ↔ ∃ seid, events.getLast? = some (seid, other) := by
  cases last : events.getLast? with
  | none =>
    rw [last] at isLast
    constructor
    · rintro rfl
      rw [isLast] at ne
      exact absurd address ne
    · rintro ⟨_, same⟩
      cases same
  | some event =>
    rw [last] at isLast
    obtain ⟨seid, k⟩ := event
    simp [isLast, eq_comm]

theorem variable_eq {variable' : PeerCsidKey}
    (foreign : ∀ event ∈ events, event.2.peerNodeAddr ≠ nodeAddr)
    (isLast : variable' = (events.getLast?.map Prod.snd).getD key)
    (same : variable'.peerNodeAddr = nodeAddr) : variable' = key := by
  cases last : events.getLast? with
  | none =>
    rw [last] at isLast
    exact isLast
  | some event =>
    rw [last] at isLast
    rw [isLast] at same
    exact absurd same (foreign event (mem_of_getLast? last))

theorem Swept.walk (listed : Listed s) (inv : Swept nodeAddr s before s₁)
    (addresses : ∀ walked ∈ before, walked.peerNodeAddr = nodeAddr) (address : key.peerNodeAddr = nodeAddr)
    (absent : key ∉ before) {w : Walk} (done : cleanupNodes nodeAddr (s.listed key) ⟨key, s₁⟩ = .ok w)
    (left : s₂.sessions = w.state.sessions)
    (stored : s₂.seidByPeerCsid = (w.state.seidByPeerCsid.add key .freed).add w.key (.list [])) :
    Swept nodeAddr s (before ++ [key]) s₂ := by
  obtain ⟨removed, sessions⟩ := cleanupNodes_spec done
  have sameSessions : (⟨key, s₁⟩ : Walk).state.sessions = s.without before := inv.sessions
  rw [sameSessions] at removed sessions
  have foreign : ∀ event ∈ removals nodeAddr (s.listed key) (s.without before),
      event.2.peerNodeAddr ≠ nodeAddr := by
    rintro ⟨seid, other⟩ mem
    obtain ⟨-, session, -, among⟩ := mem_removals.mp mem
    exact (mem_otherKeys.mp among).2
  have same : ∀ other ≠ key, other.peerNodeAddr = nodeAddr →
      s₂.seidByPeerCsid other = s₁.seidByPeerCsid other := by
    intro other ne sameAddress
    have notVariable : other ≠ w.key := by
      rintro rfl
      exact ne (variable_eq foreign removed.key sameAddress)
    rw [stored, add_of_ne notVariable, add_of_ne ne, removed.same other]
    rintro event mem rfl
    exact foreign event mem sameAddress
  have others : ∀ other, other.peerNodeAddr ≠ nodeAddr → other ≠ w.key →
      s₂.listed other =
        takenOut (removals nodeAddr (s.listed key) (s.without before)) other (s₁.listed other) := by
    intro other ne notVariable
    have notKey : other ≠ key := by
      rintro rfl
      exact ne address
    rw [PeerState.listed, stored, add_of_ne notVariable, add_of_ne notKey]
    exact removed.listed other
  refine
    { sessions := (left.trans sessions).trans without_concat.symm
      walked := fun other mem => ?_
      same := fun other notIn sameAddress => ?_
      ended := fun other ends => ?_
      passed := fun other ne notEnded => ?_ }
  · rcases mem_append.mp mem with earlier | last
    · have ne : other ≠ key := by
        rintro rfl
        exact absent earlier
      rw [PeerState.listed, same other ne (addresses other earlier)]
      exact inv.walked other earlier
    · left
      rw [mem_singleton.mp last, PeerState.listed, stored]
      by_cases here : key = w.key
      · rw [← here, add_self]
        rfl
      · rw [add_of_ne here, add_self]
        rfl
  · rw [mem_append, mem_singleton, not_or] at notIn
    exact (same other notIn.2 sameAddress).trans (inv.same other notIn.1 sameAddress)
  · have ne := ends.address
    by_cases here : other = w.key
    · rw [PeerState.listed, stored, here, add_self]
      rfl
    · rw [endsWith_concat] at ends
      have earlier := ends.resolve_right fun last => here
        ((variable_eq_iff address removed.key ne).mpr last)
      rw [others other ne here, inv.ended other earlier]
      exact takenOut_nil _ _
  · rw [endsWith_concat, not_or] at notEnded
    have notVariable : other ≠ w.key := fun here =>
      notEnded.2 ((variable_eq_iff address removed.key ne).mp here)
    have once : ∀ seid, (seid, other) ∈ removals nodeAddr (s.listed key) (s.without before) →
        ∃ own, (s.listed other).filter (isNodeOf seid) = [own] ∧ own.upSeid = seid := by
      intro seid mem
      obtain ⟨-, session, live, among⟩ := mem_removals.mp mem
      rw [without, ite_none_left_eq_some] at live
      exact listed.once seid session live.2 other (mem_otherKeys.mp among).1
    rw [others other ne notVariable, inv.passed other ne notEnded.1,
      takenOut_eq filter_sublist once, filter_filter]
    refine filter_congr fun node _ => ?_
    rw [Bool.eq_iff_iff, Bool.and_eq_true, decide_eq_true_iff, Bool.not_eq_true', ← Bool.not_eq_true,
      Bool.not_eq_true', ← Bool.not_eq_true, ← not_or, not_iff_not, taken_iff, taken_iff, mem_removals, hit_concat,
      Bool.or_eq_true, any_eq_true]
    simp only [decide_eq_true_eq, without, ite_none_left_eq_some]
    constructor
    · rintro (⟨listedHere, session, ⟨-, live⟩, among⟩ | ⟨hit, session, live, among⟩)
      · exact ⟨.inr listedHere, session, live, among⟩
      · exact ⟨.inl hit, session, live, among⟩
    · rintro ⟨hit, session, live, among⟩
      by_cases earlier : s.hit before node.upSeid = true
      · exact .inr ⟨earlier, session, live, among⟩
      · exact .inl ⟨hit.resolve_left earlier, session, ⟨earlier, live⟩, among⟩

theorem Swept.gone (listed : Listed s) (inv : Swept nodeAddr s before s₁)
    (address : key.peerNodeAddr = nodeAddr)
    (empty : s₁.listed key = [] ∨ ∃ node, s₁.listed key = [node] ∧ node.upSeid = 0) :
    ∀ node ∈ s.listed key, s.without before node.upSeid = none := by
  intro node mem
  by_cases earlier : key ∈ before
  · rw [without, if_pos (hit_iff.mpr ⟨key, earlier, node, mem, rfl⟩)]
  · have same : s₁.listed key = s.listed key := congrArg nodesOf (inv.same key earlier address)
    rw [same] at empty
    rcases empty with none | ⟨only, alone, zero⟩
    · rw [none] at mem
      cases mem
    · rw [alone] at mem
      rw [mem_singleton.mp mem, zero, without, listed.nonzero, ite_self]

variable {iface : UInt8}

section

variable (listed : Listed s) (inv : Swept nodeAddr s before s₁)
  (addresses : ∀ walked ∈ before, walked.peerNodeAddr = nodeAddr)

include listed inv addresses

theorem Swept.step {csid : UInt16} (done : cleanupPeerCsid nodeAddr iface s₁ csid = .ok s₂) :
    Swept nodeAddr s (before ++ [⟨iface, csid, nodeAddr⟩]) s₂ := by
  have skip : ∀ (_ : s₂ = s₁) (_ : s₁.listed ⟨iface, csid, nodeAddr⟩ = [] ∨
      ∃ node, s₁.listed ⟨iface, csid, nodeAddr⟩ = [node] ∧ node.upSeid = 0),
      Swept nodeAddr s (before ++ [⟨iface, csid, nodeAddr⟩]) s₂ := by
    rintro rfl empty
    exact inv.skip (inv.gone listed rfl empty) empty
  rw [cleanupPeerCsid] at done
  cases entry : s₁.seidByPeerCsid ⟨iface, csid, nodeAddr⟩ with
  | none =>
    simp only [entry] at done
    cases done
    exact skip rfl (.inl (by rw [PeerState.listed, entry]; rfl))
  | some stored =>
    rcases stored with (_ | ⟨node, rest⟩) | _
    · simp only [entry] at done
      cases done
      exact skip rfl (.inl (by rw [PeerState.listed, entry]; rfl))
    · have nodes : s₁.listed ⟨iface, csid, nodeAddr⟩ = node :: rest := by
        rw [PeerState.listed, entry]
        rfl
      simp only [entry] at done
      split at done
      · rename_i alone
        cases done
        exact skip rfl (.inr ⟨node, by rw [nodes, alone.2], alone.1⟩)
      · rename_i several
        obtain ⟨w, walked, done⟩ := except_bind_ok done
        cases done
        -- a list that was walked before would be empty or have the one node
        have absent : (⟨iface, csid, nodeAddr⟩ : PeerCsidKey) ∉ before := by
          intro mem
          rcases inv.walked _ mem with none | ⟨only, alone, zero⟩
          · rw [nodes] at none
            cases none
          · rw [nodes] at alone
            cases alone
            exact several ⟨zero, rfl⟩
        have same : s.listed ⟨iface, csid, nodeAddr⟩ = node :: rest := by
          rw [← nodes]
          exact (congrArg nodesOf (inv.same _ absent rfl)).symm
        exact inv.walk listed addresses rfl absent (same ▸ walked) rfl rfl
    · simp only [entry] at done
      cases done

theorem Swept.all {csids : List UInt16}
    (done : csids.foldlM (cleanupPeerCsid nodeAddr iface) s₁ = .ok s₂) :
    Swept nodeAddr s (before ++ csids.map fun csid => ⟨iface, csid, nodeAddr⟩) s₂ := by
  induction csids generalizing before s₁ with
  | nil =>
    cases done
    rw [map_nil, append_nil]
    exact inv
  | cons csid csids ih =>
    obtain ⟨s₃, first, done⟩ := except_bind_ok done
    have rest := ih (inv.step listed addresses first) (by
      intro walked mem
      rcases mem_append.mp mem with earlier | last
      · exact addresses walked earlier
      · rw [mem_singleton.mp last]) done
    rwa [map_cons, ← singleton_append, ← append_assoc]

end

theorem delSessPeerCsidEntry_others {stale : Bool} {csids : List UInt16}
    {lists lists' : Table PeerCsidKey Entry}
    (done : csids.foldlM (fun lists csid => delSessPeerCsidEntry stale ⟨iface, csid, nodeAddr⟩ lists) lists =
      .ok lists') (absent : key ∉ csids.map fun csid => (⟨iface, csid, nodeAddr⟩ : PeerCsidKey)) :
    lists' key = lists key := by
  induction csids generalizing lists with
  | nil =>
    cases done
    rfl
  | cons csid csids ih =>
    rw [foldlM_cons] at done
    obtain ⟨lists₁, first, done⟩ := except_bind_ok done
    rw [map_cons, mem_cons, not_or] at absent
    rw [ih done absent.2]
    rw [delSessPeerCsidEntry] at first
    split at first
    · cases first
      rfl
    · cases first
      exact del_of_ne absent.1
    · split at first
      · cases first
      · cases first
        exact del_of_ne absent.1

end

section

variable {s s' : PeerState} {peerCsids : FqCsid} {iface : UInt8} {stale : Bool}
  {nodeAddr : NodeAddress}

structure Cleaned (nodeAddr : NodeAddress) (keys : List PeerCsidKey) (s s' : PeerState) : Prop where
  sessions : s'.sessions = s.without keys
  near : ∀ key ∉ keys, key.peerNodeAddr = nodeAddr → s'.listed key = s.listed key
  ended : ∀ key, key ∉ keys → EndsWith nodeAddr s keys key → s'.listed key = []
  passed : ∀ key, key ∉ keys → key.peerNodeAddr ≠ nodeAddr → ¬ EndsWith nodeAddr s keys key →
    s'.listed key = (s.listed key).filter fun node => !s.taken nodeAddr keys key node.upSeid

theorem cleanup_cleaned (listed : Listed s)
    (done : cleanupSessByPeerCsidEntry stale peerCsids iface s = .ok s') :
    Cleaned peerCsids.nodeAddr (failed peerCsids iface) s s' := by
  obtain ⟨s₁, walks, done⟩ := except_bind_ok done
  obtain ⟨lists, deletions, done⟩ := except_bind_ok done
  cases done
  have swept := swept_start.all listed (forall_mem_nil _) walks
  have others := fun {key : PeerCsidKey} absent =>
    congrArg nodesOf (@delSessPeerCsidEntry_others _ key _ _ _ _ _ deletions absent)
  exact
    { sessions := swept.sessions
      near := fun key absent address =>
        (others absent).trans (congrArg nodesOf (swept.same key absent address))
      ended := fun key absent ends => (others absent).trans (swept.ended key ends)
      passed := fun key absent address notEnded =>
        (others absent).trans (swept.passed key address notEnded) }

variable {keys : List PeerCsidKey}

theorem deleted_iff {seid : UInt64} :
    s.deleted keys seid = true ↔ s.hit keys seid = true ∧ ∃ session, s.sessions seid = some session := by
  rw [deleted, Bool.and_eq_true, isSome_iff_exists, and_comm]

theorem Listed.survivor (listed : Listed s) {seid : UInt64} {session : PeerSession}
    (left : s.without keys seid = some session) :
    s.sessions seid = some session ∧ ∀ key ∈ session.keys, key ∉ keys ∧
      ∃ node ∈ s.listed key, node.upSeid = seid := by
  rw [without, ite_none_left_eq_some] at left
  obtain ⟨notHit, live⟩ := left
  refine ⟨live, fun key mem => ?_⟩
  obtain ⟨node, alone, named⟩ := listed.once seid session live key mem
  have among : node ∈ s.listed key := by
    have inFilter : node ∈ (s.listed key).filter (isNodeOf seid) := alone ▸ mem_singleton_self node
    exact (mem_filter.mp inFilter).1
  exact ⟨fun isFailed => notHit (hit_iff.mpr ⟨key, isFailed, node, among, named⟩), node, among, named⟩

theorem Cleaned.confined (cleaned : Cleaned nodeAddr keys s s')
    (cleared : PeersCleared keys s s') : Confined nodeAddr keys s := by
  constructor
  · intro key absent ends node mem
    have none := (cleared.lists key absent).symm.trans (cleaned.ended key absent ends)
    simpa using filter_eq_nil_iff.mp none node mem
  · intro key absent notEnded node mem isDeleted
    have out : node ∉ s'.listed key := by
      rw [cleared.lists key absent, mem_filter, isDeleted]
      simp
    by_cases address : key.peerNodeAddr = nodeAddr
    · rw [cleaned.near key absent address] at out
      exact absurd mem out
    · rw [cleaned.passed key absent address notEnded, mem_filter] at out
      have taken : s.taken nodeAddr keys key node.upSeid = true := by
        by_contra kept
        exact out ⟨mem, by simpa using kept⟩
      exact (taken_iff.mp taken).2

theorem Cleaned.lists (cleaned : Cleaned nodeAddr keys s s')
    (confined : Confined nodeAddr keys s) {key : PeerCsidKey} (absent : key ∉ keys) :
    s'.listed key = (s.listed key).filter fun node => !s.deleted keys node.upSeid := by
  by_cases ends : EndsWith nodeAddr s keys key
  · rw [cleaned.ended key absent ends]
    refine (filter_eq_nil_iff.mpr fun node mem => ?_).symm
    simpa using confined.ended key absent ends node mem
  · have passed := confined.passed key absent ends
    by_cases address : key.peerNodeAddr = nodeAddr
    · rw [cleaned.near key absent address]
      refine (filter_eq_self.mpr fun node mem => ?_).symm
      rw [Bool.not_eq_true', ← Bool.not_eq_true]
      intro isDeleted
      obtain ⟨session, -, among⟩ := passed node mem isDeleted
      exact (mem_otherKeys.mp among).2 address
    · rw [cleaned.passed key absent address ends]
      refine filter_congr fun node mem => congrArg not (Bool.eq_iff_iff.mpr ?_)
      rw [taken_iff, deleted_iff]
      constructor
      · rintro ⟨hit, session, live, -⟩
        exact ⟨hit, session, live⟩
      · rintro ⟨hit, live⟩
        exact ⟨hit, passed node mem (deleted_iff.mpr ⟨hit, live⟩)⟩

/-- A cleanup that returns 0 clears the peers exactly if the deleted sessions are confined to the
keys that failed and to lists that it takes them from and does not drop. -/
theorem peersCleared_iff (listed : Listed s)
    (done : cleanupSessByPeerCsidEntry stale peerCsids iface s = .ok s') :
    PeersCleared (failed peerCsids iface) s s' ↔
      Confined peerCsids.nodeAddr (failed peerCsids iface) s := by
  have cleaned := cleanup_cleaned listed done
  refine ⟨cleaned.confined, fun confined => ⟨fun seid => ?_, fun key => cleaned.lists confined, ?_⟩⟩
  · rw [cleaned.sessions]
    rfl
  · intro seid session left key member
    rw [cleaned.sessions] at left
    obtain ⟨live, keys⟩ := listed.survivor left
    obtain ⟨absent, node, among, named⟩ := keys key member
    rw [without, ite_none_left_eq_some] at left
    refine ⟨node, ?_, named⟩
    rw [cleaned.lists confined absent, mem_filter]
    refine ⟨among, ?_⟩
    rw [Bool.not_eq_true', ← Bool.not_eq_true, deleted_iff, named]
    exact fun isDeleted => left.1 isDeleted.1

end

section

def mmePeer : FqCsid := { localCsid := [3], nodeAddr := .v4 7 }

def sgwPeer (sgw : UInt32) : FqCsid := { localCsid := [5], nodeAddr := .v4 sgw }

def sharedSession (sgw : UInt32) : PeerSession where
  mme := some mmePeer
  pgw := none
  sgw := some (sgwPeer sgw)
  upFqcsid := some [1]

def mmeKey : PeerCsidKey := ⟨sxPortId, 3, .v4 7⟩

def sgwKey (sgw : UInt32) : PeerCsidKey := ⟨sxPortId, 5, .v4 sgw⟩

def twoSgws : PeerState where
  sessions := (Table.empty.add 11 (sharedSession 1)).add 12 (sharedSession 2)
  seidByPeerCsid := ((Table.empty.add mmeKey (.list [⟨101, 11⟩, ⟨102, 12⟩])).add (sgwKey 1)
    (.list [⟨101, 11⟩])).add (sgwKey 2) (.list [⟨102, 12⟩])
  seidsByCsid := Table.empty.add 1 [⟨101, 11⟩, ⟨102, 12⟩]

theorem twoSgws_sessions {seid : UInt64} {session : PeerSession}
    (live : twoSgws.sessions seid = some session) :
    (seid = 12 ∧ session = sharedSession 2) ∨ (seid = 11 ∧ session = sharedSession 1) := by
  simp only [twoSgws, Table.add, Table.empty] at live
  split at live
  · rename_i here
    exact .inl ⟨here, (some.inj live).symm⟩
  · rw [ite_none_right_eq_some] at live
    exact .inr ⟨live.1, (some.inj live.2).symm⟩

theorem twoSgws_listed {key : PeerCsidKey} {node : Seids} (mem : node ∈ twoSgws.listed key) :
    key = sgwKey 2 ∧ node = ⟨102, 12⟩ ∨ key = sgwKey 1 ∧ node = ⟨101, 11⟩ ∨
      key = mmeKey ∧ (node = ⟨101, 11⟩ ∨ node = ⟨102, 12⟩) := by
  simp only [listed, twoSgws, Table.add, Table.empty] at mem
  split at mem
  · exact .inl ⟨‹_›, mem_singleton.mp mem⟩
  · split at mem
    · exact .inr (.inl ⟨‹_›, mem_singleton.mp mem⟩)
    · split at mem
      · exact .inr (.inr ⟨‹_›, by simpa [nodesOf] using mem⟩)
      · cases mem

theorem twoSgws_once : Listed twoSgws where
  once seid session live key mem := by
    rcases twoSgws_sessions live with ⟨rfl, rfl⟩ | ⟨rfl, rfl⟩
    · change key ∈ [mmeKey, sgwKey 2] at mem
      simp only [mem_cons, not_mem_nil, or_false] at mem
      rcases mem with rfl | rfl <;> exact ⟨⟨102, 12⟩, by decide, rfl⟩
    · change key ∈ [mmeKey, sgwKey 1] at mem
      simp only [mem_cons, not_mem_nil, or_false] at mem
      rcases mem with rfl | rfl <;> exact ⟨⟨101, 11⟩, by decide, rfl⟩
  nonzero := rfl

/-- The MME fails: both sessions go, and the walk ends with the key of the second SGW-C. -/
theorem peersCleared_mme :
    ∃ s', cleanupSessByPeerCsidEntry false mmePeer sxPortId twoSgws = .ok s' ∧
      PeersCleared (failed mmePeer sxPortId) twoSgws s' := by
  obtain ⟨s', done⟩ : ∃ s', cleanupSessByPeerCsidEntry false mmePeer sxPortId twoSgws = .ok s' := ⟨_, rfl⟩
  refine ⟨s', done, (peersCleared_iff twoSgws_once done).mpr ⟨?_, ?_⟩⟩
  · intro key _ _ node member
    rcases twoSgws_listed member with ⟨-, rfl⟩ | ⟨-, rfl⟩ | ⟨-, rfl | rfl⟩ <;> decide
  · intro key absent _ node member _
    rcases twoSgws_listed member with ⟨rfl, rfl⟩ | ⟨rfl, rfl⟩ | ⟨rfl, -⟩
    · exact ⟨sharedSession 2, rfl, by decide⟩
    · exact ⟨sharedSession 1, rfl, by decide⟩
    · exact absurd (mem_singleton_self _) absent

/-- The first SGW-C fails: the MME's list is dropped with the other SGW-C's session. -/
theorem other_session_dropped :
    Listed twoSgws ∧
      ∃ s', cleanupSessByPeerCsidEntry false (sgwPeer 1) sxPortId twoSgws = .ok s' ∧
        ¬ PeersCleared (failed (sgwPeer 1) sxPortId) twoSgws s' := by
  obtain ⟨s', done, lost⟩ : ∃ s', cleanupSessByPeerCsidEntry false (sgwPeer 1) sxPortId twoSgws = .ok s' ∧
      s'.listed mmeKey = [] := ⟨_, rfl, rfl⟩
  have left : ((twoSgws.listed mmeKey).filter fun node =>
      !twoSgws.deleted (failed (sgwPeer 1) sxPortId) node.upSeid) = [⟨102, 12⟩] := by decide
  refine ⟨twoSgws_once, s', done, fun cleared => ?_⟩
  have lists := cleared.lists mmeKey (by decide)
  rw [lost, left] at lists
  cases lists

end

end Epc.Up.PeerCleanup
