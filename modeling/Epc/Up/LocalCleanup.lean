import Epc.Lib.Table
import Epc.Node

/-! Failure of a local CSID on the user plane: `cleanup_sess_by_csid_entry`, `get_peer_assoc_csids` and
`cleanup_csid_by_csid_entry` (`pfcp_messages/csid_up_cleanup.c`), with `get_peer_csid_entry` and
`del_peer_csid_entry` (`pfcp_messages/csid_peer_init.c`).  The sessions of the local CSIDs are deleted,
and the CSIDs of their peers are told. -/

namespace Epc.Up.Cleanup

open Epc.Lib

def maxCsid : Nat := 15

structure FqCsid where
  localCsid : List UInt16
  nodeAddr : NodeAddress
  deriving DecidableEq, Repr

/-- The FQ-CSIDs of its peers that a session keeps. -/
inductive Role where
  | mme
  | sgwc
  | pgwc
  | wb
  | eb
  deriving DecidableEq, Repr

def roles : List Role := [.mme, .sgwc, .pgwc, .wb, .eb]

structure Session where
  fqcsid : Role → Option FqCsid

/-- The hashes of the local CSIDs by peer CSID, `local_csids_by_*_hash`. -/
inductive PeerHash where
  | mmecsid
  | sgwcsid
  | pgwcsid
  deriving DecidableEq, Repr

def s1uPortId : UInt8 := 0
def sgiPortId : UInt8 := 1
def s11SgwPortId : UInt8 := 0
def s5s8SgwcPortId : UInt8 := 1
def sxPortId : UInt8 := 2
def s5s8PgwcPortId : UInt8 := 3

/-- The hash of `get_peer_csid_entry` and `del_peer_csid_entry` for an interface. -/
def peerHash (iface : UInt8) : Option PeerHash :=
  if iface = s11SgwPortId then some .mmecsid
  else if iface = sxPortId then some .sgwcsid
  else if iface = s5s8SgwcPortId then some .pgwcsid
  else if iface = s5s8PgwcPortId then some .pgwcsid
  else none

/-- The interface that the cleanup of a role is called with. -/
def Role.iface : Role → UInt8
  | .mme | .sgwc | .pgwc => sxPortId
  | .wb => s1uPortId
  | .eb => sgiPortId

structure CsidKey where
  localCsid : UInt16
  nodeAddr : NodeAddress
  deriving DecidableEq, Repr

/-- The inner loop of the removal: what moves to the removed place is not looked at. -/
def removeCsid (csid : UInt16) : List UInt16 → List UInt16
  | [] => []
  | x :: rest =>
    if x = csid then
      match rest with
      | [] => []
      | y :: rest => y :: removeCsid csid rest
    else x :: removeCsid csid rest

theorem removeCsid_same (csid y : UInt16) (rest : List UInt16) :
    removeCsid csid (csid :: y :: rest) = y :: removeCsid csid rest := by
  simp [removeCsid]

theorem removeCsid_other {csid x : UInt16} (other : x ≠ csid) (rest : List UInt16) :
    removeCsid csid (x :: rest) = x :: removeCsid csid rest := by
  cases rest <;> simp [removeCsid, other]

theorem removeCsid_sublist (csid : UInt16) (csids : List UInt16) : (removeCsid csid csids).Sublist csids := by
  induction csids using removeCsid.induct csid with
  | case1 => exact List.Sublist.slnil
  | case2 => simp [removeCsid]
  | case3 y rest ih =>
    rw [removeCsid_same]
    exact (ih.cons_cons y).cons _
  | case4 x rest other ih =>
    rw [removeCsid_other other]
    exact ih.cons_cons x

/-- The local CSIDs of a peer CSID, `csid_t`. -/
structure LocalCsids where
  csids : List UInt16
  distinct : csids.Nodup

def LocalCsids.remove (entry : LocalCsids) (csid : UInt16) : LocalCsids :=
  ⟨removeCsid csid entry.csids, (removeCsid_sublist csid entry.csids).nodup entry.distinct⟩

/-- The tables; a list of `seids_by_csid_hash` by its SEIDs, NULL as none. -/
structure CsidState where
  sessions : Table UInt64 Session
  seidsByCsid : Table UInt16 (List UInt64)
  localCsids : PeerHash → Table CsidKey LocalCsids

/-- One CSID into the array of the merged ones; none where the array is full. -/
def addCsid (known : List UInt16) (csid : UInt16) : Option (List UInt16) :=
  if csid ∈ known then some known
  else if known.length < maxCsid then some (known ++ [csid])
  else none

def getPeerAssocCsids (peer merged : FqCsid) : Option FqCsid :=
  (peer.localCsid.foldlM addCsid merged.localCsid).map fun csids =>
    { localCsid := csids, nodeAddr := peer.nodeAddr }

/-- The FQ-CSIDs of the deleted sessions, merged by role. -/
abbrev Merged := Role → FqCsid

def Merged.zero : Merged := fun _ => { localCsid := [], nodeAddr := .zero }

def mergeRole (session : Session) (merged : Merged) (role : Role) : Option Merged :=
  match session.fqcsid role with
  | none => some merged
  | some peer => (getPeerAssocCsids peer (merged role)).map (Function.update merged role)

def mergeSession (session : Session) (merged : Merged) : Option Merged :=
  roles.foldlM (mergeRole session) merged

/-- The walk over a local CSID's list: `up_delete_session_entry` removes the session. -/
def cleanupList : List UInt64 → Table UInt64 Session × Merged → Option (Table UInt64 Session × Merged)
  | [], s => some s
  | seid :: rest, (sessions, merged) =>
    match sessions seid with
    | none => cleanupList rest (sessions, merged)
    | some session => do cleanupList rest (sessions.del seid, ← mergeSession session merged)

/-- The list that is walked for a CSID; one node with SEID 0 is passed over. -/
def CsidState.walked (s : CsidState) (csid : UInt16) : Option (List UInt64) :=
  match s.seidsByCsid csid with
  | none => none
  | some seids => if seids = [] ∨ seids = [0] then none else some seids

def cleanupCsid (s : CsidState × Merged) (csid : UInt16) : Option (CsidState × Merged) :=
  match s.1.walked csid with
  | none => some s
  | some seids => do
      let (sessions, merged) ← cleanupList seids (s.1.sessions, s.2)
      some ({ s.1 with sessions, seidsByCsid := s.1.seidsByCsid.add csid [] }, merged)

/-- What becomes of an entry: none if it is empty in the end. -/
def LocalCsids.cleaned (csids : List UInt16) (entry : LocalCsids) : Option LocalCsids :=
  let entry := csids.foldl LocalCsids.remove entry
  if entry.csids = [] then none else some entry

/-- The loop body of `cleanup_csid_by_csid_entry`. -/
def cleanupEntry (csids : List UInt16) (hash : PeerHash) (key : CsidKey)
    (tables : PeerHash → Table CsidKey LocalCsids) : PeerHash → Table CsidKey LocalCsids :=
  match tables hash key with
  | none => tables
  | some entry =>
    Function.update tables hash
      (match entry.cleaned csids with
      | none => (tables hash).del key
      | some entry => (tables hash).add key entry)

def cleanupCsidByCsidEntry (peer : FqCsid) (csids : List UInt16) (iface : UInt8)
    (tables : PeerHash → Table CsidKey LocalCsids) : PeerHash → Table CsidKey LocalCsids :=
  match peerHash iface with
  | none => tables
  | some hash =>
    peer.localCsid.foldl (fun tables csid => cleanupEntry csids hash ⟨csid, peer.nodeAddr⟩ tables) tables

/-- `cleanup_sess_by_csid_entry`: the state in which it returns 0. -/
def cleanupSessByCsidEntry (csids : List UInt16) (s : CsidState) : Option CsidState := do
  let (s, merged) ← csids.foldlM cleanupCsid (s, Merged.zero)
  some { s with
    localCsids := roles.foldl
      (fun tables role => cleanupCsidByCsidEntry (merged role) csids role.iface tables) s.localCsids }

end Epc.Up.Cleanup
