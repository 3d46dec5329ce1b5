import Epc.Up.Proof.LocalCleanup

/-! The removal of local CSIDs from the entries of the peers' CSIDs on the control plane,
`cleanup_csid_by_csid_entry` of `pfcp_messages/csid_cp_cleanup.c`, beside that on the user plane. -/

namespace Epc.Cp.Cleanup

open Epc.Lib List Function
open Epc.Up.Cleanup (CsidKey FqCsid LocalCsids PeerHash peerHash)

/-- The loops over an entry's members and, inside, over the local CSIDs, of which `left` are still
to be compared. What moves to the place of a removed member is compared with the following CSIDs
only. -/
def clearMembers (csids : List UInt16) : List UInt16 → List UInt16 → List UInt16
  | _, [] => []
  | left, x :: rest =>
    if x ∈ left then clearMembers csids (left.dropWhile (· ≠ x)).tail rest
    else x :: clearMembers csids csids rest

theorem clearMembers_sublist (csids left members : List UInt16) :
    (clearMembers csids left members).Sublist members := by
  induction members generalizing left with
  | nil => exact List.Sublist.slnil
  | cons x rest ih =>
    rw [clearMembers]
    split
    · exact (ih _).cons x
    · exact (ih _).cons_cons x

/-- What becomes of an entry: none if it is deleted. -/
def clearEntry (csids : List UInt16) (entry : LocalCsids) : Option LocalCsids :=
  if clearMembers csids csids entry.csids = [] then none
  else some ⟨clearMembers csids csids entry.csids,
    (clearMembers_sublist csids csids entry.csids).nodup entry.distinct⟩

/-- The body of the loop over the peer's CSIDs; none where there is no entry. -/
def cleanupEntry (csids : List UInt16) (hash : PeerHash) (tables : PeerHash → Table CsidKey LocalCsids)
    (key : CsidKey) : Option (PeerHash → Table CsidKey LocalCsids) :=
  (tables hash key).map fun entry =>
    Function.update tables hash (Function.update (tables hash) key (clearEntry csids entry))

/-- `cleanup_csid_by_csid_entry`; none where it returns -1. -/
def cleanupCsidByCsidEntry (peer : List CsidKey) (csids : List UInt16) (iface : UInt8)
    (tables : PeerHash → Table CsidKey LocalCsids) : Option (PeerHash → Table CsidKey LocalCsids) :=
  match peerHash iface with
  | none => if peer = [] then some tables else none
  | some hash => peer.foldlM (cleanupEntry csids hash) tables

/-- The entry keeps the members not among the CSIDs, and is deleted if there is none. -/
def LeavesDifference (entry : LocalCsids) (csids : List UInt16) (left : Option LocalCsids) : Prop :=
  left.elim [] LocalCsids.csids = entry.csids.filter (· ∉ csids) ∧
    (left = none ↔ entry.csids.filter (· ∉ csids) = [])

/-- Neighbouring members that are both to be removed stand in the order of the CSIDs. -/
def InOrder (csids : List UInt16) : List UInt16 → Prop :=
  List.IsChain fun x y => x ∈ csids → y ∈ csids → csids.idxOf x < csids.idxOf y

instance (csids members : List UInt16) : Decidable (InOrder csids members) :=
  inferInstanceAs (Decidable (List.IsChain _ members))

section

variable {csids left members : List UInt16} {entry : LocalCsids}

theorem idxOf_lt_iff {before after : List UInt16} {x y : UInt16}
    (nodup : (before ++ x :: after).Nodup) (member : y ∈ before ++ x :: after) :
    (before ++ x :: after).idxOf x < (before ++ x :: after).idxOf y ↔ y ∈ after := by
  simp only [nodup_append, nodup_cons] at nodup
  obtain ⟨-, ⟨notAfter, -⟩, apart⟩ := nodup
  have notBefore : x ∉ before := fun mem => apart x mem x (mem_cons_self ..) rfl
  rw [idxOf_append_of_notMem notBefore, idxOf_cons_self]
  rcases mem_append.mp member with inBefore | inRest
  · have first := idxOf_lt_length_of_mem inBefore
    have outside : y ∉ after := fun mem => apart y inBefore y (mem_cons_of_mem _ mem) rfl
    rw [idxOf_append_of_mem inBefore]
    exact iff_of_false (by omega) outside
  · have outside : y ∉ before := fun mem => apart y mem y inRest rfl
    rw [idxOf_append_of_notMem outside]
    rcases mem_cons.mp inRest with rfl | inAfter
    · exact iff_of_false (by simp) notAfter
    · have other : x ≠ y := fun same => notAfter (same ▸ inAfter)
      rw [idxOf_cons_ne _ other]
      exact iff_of_true (by omega) inAfter

theorem clearMembers_eq_filter_iff (nodup : csids.Nodup) {passed : List UInt16}
    (split : csids = passed ++ left) :
    clearMembers csids left members = members.filter (· ∉ csids) ↔
      InOrder csids members ∧ ∀ x, members.head? = some x → x ∈ csids → x ∈ left := by
  induction members generalizing passed left with
  | nil => simp [clearMembers, InOrder]
  | cons x rest ih =>
    by_cases inLeft : x ∈ left
    · obtain ⟨before, after, rfl⟩ := append_of_mem inLeft
      have apart : csids = (passed ++ before) ++ x :: after := by rw [split, append_assoc]
      have notBefore : x ∉ before := by
        intro again
        rw [apart, nodup_append] at nodup
        exact nodup.2.2 x (mem_append_right _ again) x (mem_cons_self ..) rfl
      have after_eq : ((before ++ x :: after).dropWhile (· ≠ x)).tail = after := by
        rw [dropWhile_append_of_pos (fun a mem => by simpa using ne_of_mem_of_not_mem mem notBefore)]
        simp
      have member : x ∈ csids := by simp [apart]
      have dropped : (x :: rest).filter (· ∉ csids) = rest.filter (· ∉ csids) := by simp [member]
      rw [clearMembers, if_pos inLeft, after_eq, dropped,
        ih (show csids = (passed ++ before ++ [x]) ++ after by simp [apart])]
      cases rest with
      | nil => simp [InOrder]
      | cons y rest =>
        have next : y ∈ csids → (csids.idxOf x < csids.idxOf y ↔ y ∈ after) := by
          intro inCsids
          rw [apart] at nodup inCsids ⊢
          exact idxOf_lt_iff nodup inCsids
        simp only [InOrder, isChain_cons_cons, head?_cons, Option.some.injEq, forall_eq',
          member, forall_const, inLeft, and_true]
        rw [and_comm]
        exact and_congr_left fun _ => forall_congr' fun inCsids => (next inCsids).symm
    · rw [clearMembers, if_neg inLeft]
      by_cases member : x ∈ csids
      · refine iff_of_false (fun same => ?_) fun claimed => inLeft (claimed.2 x rfl member)
        have kept : x ∈ (x :: rest).filter (· ∉ csids) := same ▸ mem_cons_self ..
        simp [member] at kept
      · have kept : (x :: rest).filter (· ∉ csids) = x :: rest.filter (· ∉ csids) := by simp [member]
        have alone : InOrder csids (x :: rest) ↔ InOrder csids rest := by
          cases rest <;> simp [InOrder, member]
        rw [kept, List.cons.injEq, and_iff_right rfl, ih (show csids = [] ++ csids from rfl), alone]
        simp [member]

theorem leavesDifference_clearEntry_iff (nodup : csids.Nodup) :
    LeavesDifference entry csids (clearEntry csids entry) ↔ InOrder csids entry.csids := by
  have cleared : clearMembers csids csids entry.csids = entry.csids.filter (· ∉ csids) ↔
      InOrder csids entry.csids := by
    rw [clearMembers_eq_filter_iff nodup (show csids = [] ++ csids from rfl)]
    simp
  have members : (clearEntry csids entry).elim [] LocalCsids.csids =
      clearMembers csids csids entry.csids := by
    rw [clearEntry]
    split
    · next empty => exact empty.symm
    · rfl
  have deleted : clearEntry csids entry = none ↔ clearMembers csids csids entry.csids = [] := by
    rw [clearEntry]
    split <;> simp_all
  rw [← cleared, LeavesDifference, members, deleted]
  exact ⟨And.left, fun same => ⟨same, by rw [same]⟩⟩

theorem LeavesDifference.again {left : LocalCsids} (nodup : csids.Nodup)
    (difference : LeavesDifference entry csids (some left)) :
    LeavesDifference entry csids (clearEntry csids left) := by
  obtain ⟨members, deleted⟩ := difference
  have members : left.csids = entry.csids.filter (· ∉ csids) := members
  have filtered : left.csids.filter (· ∉ csids) = left.csids := by
    rw [members, filter_filter]
    simp
  have inOrder : InOrder csids left.csids := by
    refine List.Pairwise.isChain (pairwise_of_forall_mem_list fun x mem y _ inCsids => ?_)
    rw [← filtered] at mem
    simp [inCsids] at mem
  have same : LeavesDifference left csids (clearEntry csids left) :=
    (leavesDifference_clearEntry_iff nodup).mpr inOrder
  rwa [LeavesDifference, filtered, members] at same

theorem leavesDifference_cleaned (csids : List UInt16) (entry : LocalCsids) :
    LeavesDifference entry csids (entry.cleaned csids) := by
  rw [LocalCsids.cleaned, LeavesDifference, ← Up.Cleanup.removeAll_csids]
  split <;> simp_all

end

section

variable {csids : List UInt16} {entry : LocalCsids} {iface : UInt8} {hash : PeerHash} {key : CsidKey}
  {tables tables' : PeerHash → Table CsidKey LocalCsids}

theorem cleanup_difference (nodup : csids.Nodup)
    (inOrder : InOrder csids entry.csids) {peer : List CsidKey}
    (state : tables hash key = some entry ∧ key ∈ peer ∨
      LeavesDifference entry csids (tables hash key))
    (done : peer.foldlM (cleanupEntry csids hash) tables = some tables') :
    LeavesDifference entry csids (tables' hash key) := by
  induction peer generalizing tables with
  | nil =>
    cases done
    exact state.resolve_left fun named => nomatch named.2
  | cons first rest ih =>
    simp only [foldlM_cons, cleanupEntry, Option.bind_eq_bind, Option.bind_eq_some_iff,
      Option.map_eq_some_iff] at done
    obtain ⟨_, ⟨entry₁, held₁, rfl⟩, done⟩ := done
    refine ih ?_ done
    rw [update_self]
    by_cases here : key = first
    · subst here
      rw [update_self]
      rw [held₁] at state
      rcases state with ⟨same, -⟩ | before
      · cases same
        exact .inr ((leavesDifference_clearEntry_iff nodup).mpr inOrder)
      · exact .inr (before.again nodup)
    · rw [update_of_ne here]
      exact state.imp_left fun named => ⟨named.1, (mem_cons.mp named.2).resolve_left here⟩

/-- Both cleanups leave the difference in every entry exactly if neighbouring members to be removed
are in the order of the CSIDs. -/
theorem cleanups_difference_iff (distinct : csids.Nodup) (isHash : peerHash iface = some hash)
    (held : tables hash key = some entry) :
    ((∀ peer : FqCsid, key.nodeAddr = peer.nodeAddr → key.localCsid ∈ peer.localCsid →
        LeavesDifference entry csids
          (Up.Cleanup.cleanupCsidByCsidEntry peer csids iface tables hash key)) ∧
      ∀ peer tables', key ∈ peer → cleanupCsidByCsidEntry peer csids iface tables = some tables' →
        LeavesDifference entry csids (tables' hash key)) ↔
      InOrder csids entry.csids := by
  simp only [cleanupCsidByCsidEntry, isHash]
  constructor
  · rintro ⟨-, control⟩
    have alone := control [key] _ (mem_singleton_self key)
      (by simp only [foldlM_cons, cleanupEntry, held]; rfl)
    dsimp only at alone
    rwa [update_self, update_self, leavesDifference_clearEntry_iff distinct] at alone
  · refine fun inOrder => ⟨fun peer node member => ?_, fun peer tables' named done =>
      cleanup_difference distinct inOrder (.inl ⟨held, named⟩) done⟩
    have cleaned := Up.Cleanup.cleans_cleanupCsidByCsidEntry csids peer isHash tables hash key
    have named : (hash, key) ∈ peer.keys hash :=
      mem_map.mpr ⟨key.localCsid, member, by rw [← node]⟩
    rw [cleaned, if_pos named, held, Option.bind_some]
    exact leavesDifference_cleaned csids entry

end

def pgwEntry (members : List UInt16) (distinct : members.Nodup) :
    PeerHash → Table CsidKey LocalCsids :=
  fun hash key => if hash = .pgwcsid ∧ key = ⟨1, .v4 1⟩ then some ⟨members, distinct⟩ else none

theorem cleanups_difference_two :
    InOrder [1, 2] [1, 2, 3] ∧ ∀ tables',
      cleanupCsidByCsidEntry [⟨1, .v4 1⟩] [1, 2] 1 (pgwEntry [1, 2, 3] (by decide)) = some tables' →
        LeavesDifference ⟨[1, 2, 3], by decide⟩ [1, 2] (tables' .pgwcsid ⟨1, .v4 1⟩) :=
  ⟨by decide, fun tables' => ((cleanups_difference_iff (by decide)
    (show peerHash 1 = some .pgwcsid by decide) (show pgwEntry [1, 2, 3] (by decide) .pgwcsid ⟨1, .v4 1⟩ =
      some ⟨[1, 2, 3], by decide⟩ from rfl)).mpr (by decide)).2 _ tables' (mem_singleton_self _)⟩

/-- The entry has the two CSIDs in the other order: one of them stays. -/
theorem reversed_csid_stays :
    ∃ tables',
      cleanupCsidByCsidEntry [⟨1, .v4 1⟩] [1, 2] 1 (pgwEntry [2, 1] (by decide)) = some tables' ∧
        ((tables' .pgwcsid ⟨1, .v4 1⟩).map LocalCsids.csids) = some [1] := by
  refine ⟨_, rfl, ?_⟩
  decide

end Epc.Cp.Cleanup
