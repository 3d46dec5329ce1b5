import Epc.Cp.CsidCleanup

/-! `del_csid_entry_hash` (`pfcp_messages/csid_api.c`): local CSIDs are unlinked from the CSIDs of a peer, and
a CSID of the peer that is left without any is taken from the list of the peer's address. That list may be
the one that is gone through. -/

namespace Epc.CsidUnlink

open Epc.Lib Epc.Up.Cleanup List Function
open Option hiding mem_map
open Epc.Cp.Cleanup (LeavesDifference leavesDifference_cleaned)

/-- The hashes of the local CSIDs by peer CSID and `local_csids_by_node_addr_hash`. -/
structure CsidTables where
  localCsids : PeerHash → Table CsidKey LocalCsids
  peerAddrs : Table NodeAddress LocalCsids

def CsidTables.peerCsids (s : CsidTables) (node : NodeAddress) : List UInt16 :=
  (s.peerAddrs node).elim [] LocalCsids.csids

/-- The entry of a CSID is left without local CSIDs, and deleted. -/
def CsidTables.empties (s : CsidTables) (csids : List UInt16) (hash : PeerHash) (key : CsidKey) : Bool :=
  (s.localCsids hash key).any fun entry => (entry.cleaned csids).isNone

/-- The loop body over the peer's CSIDs: a CSID is taken out of the address's list, and an empty
list is deleted. -/
def unlinkCsid (csids : List UInt16) (hash : PeerHash) (node : NodeAddress) (s : CsidTables)
    (csid : UInt16) : CsidTables where
  localCsids := cleanupEntry csids hash ⟨csid, node⟩ s.localCsids
  peerAddrs :=
    if s.empties csids hash ⟨csid, node⟩ then
      Function.update s.peerAddrs node ((s.peerAddrs node).bind (LocalCsids.cleaned [csid]))
    else s.peerAddrs

/-- The loop from an index on where `peer_csids` is the list of the address: what moves to the place of a
CSID that is taken out is passed over. -/
def unlinkStored (csids : List UInt16) (hash : PeerHash) (node : NodeAddress) :
    List UInt16 → CsidTables → CsidTables
  | [], s => s
  | [csid], s => unlinkCsid csids hash node s csid
  | csid :: next :: rest, s =>
    if s.empties csids hash ⟨csid, node⟩ then
      unlinkStored csids hash node rest (unlinkCsid csids hash node s csid)
    else unlinkStored csids hash node (next :: rest) (unlinkCsid csids hash node s csid)

/-- `peer_csids`: an FQ-CSID of its own or, as `del_peer_node_sess` and its like on the user plane pass it,
the entry of the address. -/
inductive PeerCsids where
  | copied (peer : FqCsid)
  | stored (node : NodeAddress)

def PeerCsids.fqcsid (s : CsidTables) : PeerCsids → FqCsid
  | .copied peer => peer
  | .stored node => ⟨s.peerCsids node, node⟩

/-- `del_csid_entry_hash`; without a hash for the interface no entry is found. -/
def delCsidEntryHash (peer : PeerCsids) (csids : List UInt16) (iface : UInt8) (s : CsidTables) :
    CsidTables :=
  match peerHash iface, peer with
  | none, _ => s
  | some hash, .copied peer => peer.localCsid.foldl (unlinkCsid csids hash peer.nodeAddr) s
  | some hash, .stored node => unlinkStored csids hash node (s.peerCsids node) s

/-- The list of an address has the CSIDs that have an entry. -/
def CsidTables.Agree (hash : PeerHash) (s : CsidTables) : Prop :=
  ∀ node csid, csid ∈ s.peerCsids node ↔ (s.localCsids hash ⟨csid, node⟩).isSome

/-- What is unlinked from a peer, and what stays. -/
structure Unlinked (peer : FqCsid) (csids : List UInt16) (hash : PeerHash) (s s' : CsidTables) :
    Prop where
  agree : s'.Agree hash
  named : ∀ csid ∈ peer.localCsid, ∀ entry, s.localCsids hash ⟨csid, peer.nodeAddr⟩ = some entry →
    LeavesDifference entry csids (s'.localCsids hash ⟨csid, peer.nodeAddr⟩)
  others : ∀ h key, (h, key) ∉ peer.keys hash → s'.localCsids h key = s.localCsids h key
  emptied : ∀ entry, s'.peerAddrs peer.nodeAddr = some entry →
    s.peerAddrs peer.nodeAddr = some entry ∨ entry.csids ≠ []
  otherPeers : ∀ node ≠ peer.nodeAddr, s'.peerAddrs node = s.peerAddrs node

def CsidTables.Emptied (s : CsidTables) (csids : List UInt16) (hash : PeerHash) (key : CsidKey) : Prop :=
  ∃ entry, s.localCsids hash key = some entry ∧ ∀ c ∈ entry.csids, c ∈ csids

def CsidTables.Untouched (s : CsidTables) (csids : List UInt16) (hash : PeerHash) (key : CsidKey) : Prop :=
  ∀ entry, s.localCsids hash key = some entry → entry.csids ≠ [] ∧ ∀ c ∈ entry.csids, c ∉ csids

/-- In a stored list there is nothing to unlink from a CSID that stands behind one that is emptied. -/
def PeerCsids.Unharmed (s : CsidTables) (csids : List UInt16) (hash : PeerHash) : PeerCsids → Prop
  | .copied _ => True
  | .stored node => (s.peerCsids node).IsChain fun csid next =>
      s.Emptied csids hash ⟨csid, node⟩ → s.Untouched csids hash ⟨next, node⟩

variable {csids : List UInt16} {hash : PeerHash} {node : NodeAddress} {s : CsidTables}

theorem mem_dropped (known : Option LocalCsids) (csid c : UInt16) :
    c ∈ (known.bind (LocalCsids.cleaned [csid])).elim [] LocalCsids.csids ↔
      c ∈ known.elim [] LocalCsids.csids ∧ c ≠ csid := by
  cases known with
  | none => simp
  | some entry =>
    rw [bind_some, (leavesDifference_cleaned [csid] entry).1]
    simp

theorem unlinkCsid_peerAddrs (csid : UInt16) :
    (unlinkCsid csids hash node s csid).peerAddrs = s.peerAddrs ∨
      (unlinkCsid csids hash node s csid).peerAddrs =
        Function.update s.peerAddrs node ((s.peerAddrs node).bind (LocalCsids.cleaned [csid])) := by
  rw [unlinkCsid]
  split
  · exact .inr rfl
  · exact .inl rfl

theorem unlinkCsid_agree (agree : s.Agree hash) (csid : UInt16) :
    (unlinkCsid csids hash node s csid).Agree hash := by
  intro node' c
  have was := agree node' c
  have entries := cleans_cleanupEntry csids hash ⟨csid, node⟩ s.localCsids hash ⟨c, node'⟩
  by_cases here : c = csid ∧ node' = node
  · obtain ⟨rfl, rfl⟩ := here
    cases held : s.localCsids hash ⟨c, node'⟩ with
    | none => simpa [unlinkCsid, CsidTables.peerCsids, CsidTables.empties, entries, held] using was
    | some entry =>
      cases left : entry.cleaned csids with
      | none => simp [unlinkCsid, CsidTables.peerCsids, CsidTables.empties, entries, held, left, mem_dropped]
      | some entry' => simpa [unlinkCsid, CsidTables.peerCsids, CsidTables.empties, entries, held, left] using was
  · have other : (hash, CsidKey.mk c node') ∉ [(hash, CsidKey.mk csid node)] := by simpa using here
    rw [if_neg other] at entries
    refine Iff.trans ?_ (was.trans (by simp only [unlinkCsid, entries]))
    rw [CsidTables.peerCsids, CsidTables.peerCsids]
    rcases unlinkCsid_peerAddrs csid with same | dropped
    · rw [same]
    · rw [dropped]
      by_cases sameNode : node' = node
      · subst sameNode
        rw [update_self, mem_dropped, and_iff_left fun same => here ⟨same, rfl⟩]
      · rw [update_of_ne sameNode]

variable (csids node) in
theorem unlinkCsids_addrs (known : List UInt16) :
    ∀ {s : CsidTables}, s.Agree hash →
      (known.foldl (unlinkCsid csids hash node) s).Agree hash ∧
      (∀ entry, (known.foldl (unlinkCsid csids hash node) s).peerAddrs node = some entry →
        s.peerAddrs node = some entry ∨ entry.csids ≠ []) ∧
      ∀ node' ≠ node, (known.foldl (unlinkCsid csids hash node) s).peerAddrs node' = s.peerAddrs node' := by
  induction known with
  | nil => exact fun agree => ⟨agree, fun _ => .inl, fun _ _ => rfl⟩
  | cons csid known ih =>
    intro s agree
    obtain ⟨agree', emptied, others⟩ := ih (unlinkCsid_agree agree csid)
    refine ⟨agree', fun entry held => ?_, fun node' other => ?_⟩
    · refine (emptied entry held).elim (fun was => ?_) .inr
      rcases unlinkCsid_peerAddrs csid with same | dropped
      · exact .inl (same ▸ was)
      · rw [dropped, update_self, bind_eq_some_iff] at was
        obtain ⟨old, -, left⟩ := was
        simp only [LocalCsids.cleaned, ite_none_left_eq_some, some.injEq] at left
        exact .inr (left.2 ▸ left.1)
    · rw [foldl_cons, others node' other]
      rcases unlinkCsid_peerAddrs csid with same | dropped
      · rw [same]
      · rw [dropped, update_of_ne other]

variable (csids hash node) in
theorem cleans_unlinkCsids (known : List UInt16) (s : CsidTables) :
    Cleans csids ((FqCsid.mk known node).keys hash) s.localCsids
      (known.foldl (unlinkCsid csids hash node) s).localCsids := by
  induction known generalizing s with
  | nil => exact fun _ _ => rfl
  | cons csid known ih => exact (cleans_cleanupEntry csids hash ⟨csid, node⟩ s.localCsids).append (ih _)

theorem leavesDifference_self_iff {entry : LocalCsids} :
    LeavesDifference entry csids (some entry) ↔ entry.csids ≠ [] ∧ ∀ c ∈ entry.csids, c ∉ csids := by
  have all : entry.csids = entry.csids.filter (· ∉ csids) ↔ ∀ c ∈ entry.csids, c ∉ csids := by
    rw [eq_comm, filter_eq_self]
    simp
  constructor
  · rintro ⟨same, gone⟩
    exact ⟨fun empty => absurd (gone.mpr (same.symm.trans empty)) (some_ne_none entry), all.mp same⟩
  · rintro ⟨nonempty, untouched⟩
    have same := all.mpr untouched
    exact ⟨same, iff_of_false (some_ne_none entry) (same ▸ nonempty)⟩

/-- Where some of a peer's CSIDs are gone through, it is unlinked if there is nothing to do for the
others. -/
theorem unlinked_iff_passed {peer : FqCsid} {known : List UInt16} (agree : s.Agree hash)
    (part : known ⊆ peer.localCsid) :
    Unlinked peer csids hash s (known.foldl (unlinkCsid csids hash peer.nodeAddr) s) ↔
      ∀ csid ∈ peer.localCsid, csid ∉ known → s.Untouched csids hash ⟨csid, peer.nodeAddr⟩ := by
  obtain ⟨agree', emptied, otherPeers⟩ := unlinkCsids_addrs csids peer.nodeAddr known agree
  have cleans := cleans_unlinkCsids csids hash peer.nodeAddr known s
  have named (csid : UInt16) :
      (hash, CsidKey.mk csid peer.nodeAddr) ∈ (FqCsid.mk known peer.nodeAddr).keys hash ↔ csid ∈ known := by
    simp [FqCsid.keys]
  constructor
  · intro unlinked csid member outside entry held
    have left := unlinked.named csid member entry held
    rwa [cleans, if_neg (mt (named csid).mp outside), held, leavesDifference_self_iff] at left
  · intro untouched
    refine ⟨agree', fun csid member entry held => ?_, fun h key other => ?_, emptied, otherPeers⟩
    · by_cases visited : csid ∈ known
      · rw [cleans, if_pos ((named csid).mpr visited), held]
        exact leavesDifference_cleaned csids entry
      · rw [cleans, if_neg (mt (named csid).mp visited), held, leavesDifference_self_iff]
        exact untouched csid member visited entry held
    · rw [cleans, if_neg]
      exact fun inside => other (map_subset _ part inside)

theorem empties_iff {key : CsidKey} : s.empties csids hash key = true ↔ s.Emptied csids hash key := by
  rw [CsidTables.empties, Option.any_eq_true]
  refine exists_congr fun entry => and_congr_right fun _ => ?_
  rw [isNone_iff_eq_none, (leavesDifference_cleaned csids entry).2, filter_eq_nil_iff]
  simp

theorem unlinkCsid_empties {csid c : UInt16} (ne : c ≠ csid) :
    (unlinkCsid csids hash node s csid).empties csids hash ⟨c, node⟩ = s.empties csids hash ⟨c, node⟩ := by
  have entry := cleans_cleanupEntry csids hash ⟨csid, node⟩ s.localCsids hash ⟨c, node⟩
  rw [if_neg (by simpa using ne)] at entry
  simp only [CsidTables.empties, unlinkCsid, entry]

/-- The loop goes through some of the CSIDs, and those it passes over are untouched exactly if there is
none to be touched behind an emptied one. -/
theorem unlinkStored_visits {emptied untouched : UInt16 → Prop} (apart : ∀ c, emptied c → ¬ untouched c)
    {list : List UInt16} (nodup : list.Nodup)
    (same : ∀ c ∈ list, s.empties csids hash ⟨c, node⟩ = true ↔ emptied c) :
    ∃ known ⊆ list,
      unlinkStored csids hash node list s = known.foldl (unlinkCsid csids hash node) s ∧
        ((∀ c ∈ list, c ∉ known → untouched c) ↔ list.IsChain fun c next => emptied c → untouched next) := by
  have others {csid : UInt16} {rest known : List UInt16} (ne : ∀ c ∈ rest, c ≠ csid) :
      (∀ c ∈ rest, c ∉ csid :: known → untouched c) ↔ ∀ c ∈ rest, c ∉ known → untouched c :=
    forall₂_congr fun c member => by rw [mem_cons, or_iff_right (ne c member)]
  fun_induction unlinkStored csids hash node list s with
  | case1 s => exact ⟨[], Subset.refl _, rfl, by simp⟩
  | case2 csid s => exact ⟨[csid], Subset.refl _, rfl, by simp⟩
  | case3 csid next rest s empties ih =>
    obtain ⟨fresh, nodup⟩ := nodup_cons.mp nodup
    obtain ⟨fresh', nodup⟩ := nodup_cons.mp nodup
    have ne : ∀ c ∈ next :: rest, c ≠ csid := fun c member same => fresh (same ▸ member)
    obtain ⟨known, part, run, iff⟩ := ih nodup fun c member => by
      rw [unlinkCsid_empties (ne c (mem_cons_of_mem next member))]
      exact same c (mem_cons_of_mem _ (mem_cons_of_mem _ member))
    refine ⟨csid :: known, cons_subset_cons csid (subset_cons_of_subset next part), run, ?_⟩
    have passed : next ∉ csid :: known := by
      rw [mem_cons, not_or]
      exact ⟨ne next mem_cons_self, fun member => fresh' (part member)⟩
    have emptied := (same csid mem_cons_self).mp empties
    rw [forall_mem_cons, forall_mem_cons, others (forall_mem_cons.mp ne).2, iff, isChain_cons_cons, isChain_cons]
    constructor
    · rintro ⟨-, atNext, later⟩
      have done := atNext passed
      exact ⟨fun _ => done, fun c _ again => absurd done (apart next again), later⟩
    · rintro ⟨first, -, later⟩
      exact ⟨fun outside => absurd mem_cons_self outside, fun _ => first emptied, later⟩
  | case4 csid next rest s left ih =>
    obtain ⟨fresh, nodup⟩ := nodup_cons.mp nodup
    have ne : ∀ c ∈ next :: rest, c ≠ csid := fun c member same => fresh (same ▸ member)
    obtain ⟨known, part, run, iff⟩ := ih nodup fun c member => by
      rw [unlinkCsid_empties (ne c member)]
      exact same c (mem_cons_of_mem _ member)
    refine ⟨csid :: known, cons_subset_cons csid part, run, ?_⟩
    rw [forall_mem_cons, others ne, iff, isChain_cons_cons]
    exact and_congr_left fun _ => iff_of_true (fun outside => absurd mem_cons_self outside)
      fun again => absurd ((same csid mem_cons_self).mpr again) left

theorem CsidTables.Emptied.not_untouched {key : CsidKey} (emptied : s.Emptied csids hash key) :
    ¬ s.Untouched csids hash key := by
  obtain ⟨entry, held, all⟩ := emptied
  intro untouched
  obtain ⟨nonempty, none⟩ := untouched entry held
  obtain ⟨c, member⟩ := exists_mem_of_ne_nil _ nonempty
  exact none c member (all c member)

/-- Unlinking takes the local CSIDs from all of the peer's entries exactly if no entry that has some is
passed over in a stored list. -/
theorem delCsidEntryHash_unlinks_iff {iface : UInt8} (isHash : peerHash iface = some hash)
    (agree : s.Agree hash) (peer : PeerCsids) :
    Unlinked (peer.fqcsid s) csids hash s (delCsidEntryHash peer csids iface s) ↔
      peer.Unharmed s csids hash := by
  cases peer with
  | copied peer =>
    simp only [delCsidEntryHash, isHash, PeerCsids.fqcsid]
    rw [unlinked_iff_passed agree (Subset.refl _)]
    exact iff_of_true (fun csid member outside => absurd member outside) trivial
  | stored node =>
    have nodup : (s.peerCsids node).Nodup := by
      rw [CsidTables.peerCsids]
      cases s.peerAddrs node with
      | none => exact nodup_nil
      | some entry => exact entry.distinct
    have apart : ∀ c, s.Emptied csids hash ⟨c, node⟩ → ¬ s.Untouched csids hash ⟨c, node⟩ :=
      fun _ => CsidTables.Emptied.not_untouched
    obtain ⟨known, part, run, iff⟩ := unlinkStored_visits apart nodup fun _ _ => empties_iff
    simp only [delCsidEntryHash, isHash, PeerCsids.fqcsid, run]
    exact (unlinked_iff_passed agree part).trans iff

theorem one_two : ([1, 2] : List UInt16).Nodup := by decide

def linkedMme (first : LocalCsids) : CsidTables where
  localCsids hash key :=
    if hash = .mmecsid ∧ key = ⟨1, .v4 1⟩ then some first
    else if hash = .mmecsid ∧ key = ⟨2, .v4 1⟩ then some ⟨[6], nodup_singleton 6⟩ else none
  peerAddrs node := if node = .v4 1 then some ⟨[1, 2], one_two⟩ else none

theorem linkedMme_agree (first : LocalCsids) : (linkedMme first).Agree .mmecsid := by
  intro node csid
  by_cases mme : node = .v4 1
  · by_cases one : csid = 1
    · simp [linkedMme, CsidTables.peerCsids, mme, one]
    · by_cases two : csid = 2
      · simp [linkedMme, CsidTables.peerCsids, mme, two]
      · simp [linkedMme, CsidTables.peerCsids, mme, one, two]
  · simp [linkedMme, CsidTables.peerCsids, mme]

theorem delCsidEntryHash_unlinks_mme :
    Unlinked ⟨[1, 2], .v4 1⟩ [6] .mmecsid (linkedMme ⟨[5, 6], by decide⟩)
      (delCsidEntryHash (.stored (.v4 1)) [6] s11SgwPortId (linkedMme ⟨[5, 6], by decide⟩)) := by
  refine (delCsidEntryHash_unlinks_iff rfl (linkedMme_agree _) (.stored (.v4 1))).mpr ?_
  refine isChain_pair.mpr fun emptied => ?_
  rw [← empties_iff] at emptied
  exact absurd emptied (by decide)

/-- CSID 1 is emptied and taken from the list; CSID 2 moves to its place and keeps its entry. -/
theorem delCsidEntryHash_passes_over :
    (linkedMme ⟨[6], nodup_singleton 6⟩).Agree .mmecsid ∧
      ¬ Unlinked ⟨[1, 2], .v4 1⟩ [6] .mmecsid (linkedMme ⟨[6], nodup_singleton 6⟩)
        (delCsidEntryHash (.stored (.v4 1)) [6] s11SgwPortId (linkedMme ⟨[6], nodup_singleton 6⟩)) ∧
      ((delCsidEntryHash (.stored (.v4 1)) [6] s11SgwPortId
        (linkedMme ⟨[6], nodup_singleton 6⟩)).localCsids .mmecsid ⟨2, .v4 1⟩).map LocalCsids.csids =
          some [6] := by
  refine ⟨linkedMme_agree _, fun unlinked => ?_, by decide⟩
  obtain ⟨members, -⟩ := unlinked.named 2 (by decide) ⟨[6], nodup_singleton 6⟩ rfl
  exact absurd members (by decide)

end Epc.CsidUnlink
