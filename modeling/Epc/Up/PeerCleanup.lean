import Epc.PeerCsid
import Epc.Up.LocalCleanup
import Epc.Up.Rules

/-! Failure of a peer's CSIDs on the user plane: `cleanup_sess_by_peer_csid_entry` and `remove_sess_entry`
(`pfcp_messages/csid_up_cleanup.c`) with `remove_sess_csid_data_node` (`pfcp_messages/seid_llist.c`) and
`del_sess_peer_csid_entry` (`pfcp_messages/csid_init.c`). -/

namespace Epc.Up.PeerCleanup

open Epc.Lib Epc.PeerCsid
open Epc.Up.Cleanup (FqCsid sxPortId)

/-- The FQ-CSIDs of a `pfcp_session_t`; the local CSIDs of `up_fqcsid`, none if NULL. -/
structure PeerSession where
  mme : Option FqCsid
  pgw : Option FqCsid
  sgw : Option FqCsid
  upFqcsid : Option (List UInt16)
  deriving DecidableEq, Repr

/-- An entry of `seid_by_peer_csid_hash`: a list, NULL if empty, or a freed node. -/
inductive Entry where
  | list (nodes : List Seids)
  | freed
  deriving DecidableEq, Repr

structure PeerState where
  sessions : Table UInt64 PeerSession
  seidByPeerCsid : Table PeerCsidKey Entry
  seidsByCsid : Table UInt16 (List Seids)

/-- How the lists tell that a node is one of a session. -/
def isNodeOf (seid : UInt64) (node : Seids) : Bool :=
  node.cpSeid = seid ∨ node.upSeid = seid

def removeSessCsidDataNode (seid : UInt64) (nodes : List Seids) : List Seids :=
  nodes.eraseP (isNodeOf seid)

/-- `remove_sess_entry` with the head that `get_sess_peer_csid_entry` finds. -/
def removeSessEntry (seid : UInt64) (key : PeerCsidKey) (lists : Table PeerCsidKey Entry) :
    Except Fault (Table PeerCsidKey Entry) :=
  match lists key with
  | some .freed => .error .undefined
  | none => .ok lists
  | some (.list nodes) =>
    match removeSessCsidDataNode seid nodes with
    | [] => .ok (lists.del key)
    | node :: rest => .ok (lists.add key (.list (node :: rest)))

/-- The variable `key` of `cleanup_sess_by_peer_csid_entry`, and the tables. -/
structure Walk where
  key : PeerCsidKey
  state : PeerState

/-- The key that the session is taken from for one of its FQ-CSIDs. -/
def otherKey (nodeAddr : NodeAddress) (fqcsid : Option FqCsid) : Option PeerCsidKey :=
  match fqcsid with
  | none => none
  | some peer =>
    match peer.localCsid with
    | [] => none
    | csid :: _ => if peer.nodeAddr = nodeAddr then none else some ⟨sxPortId, csid, peer.nodeAddr⟩

/-- The removal of a session from the list of its MME, PGW-C or SGW-C. -/
def removeFrom (nodeAddr : NodeAddress) (seid : UInt64) (fqcsid : Option FqCsid) (w : Walk) :
    Except Fault Walk :=
  match otherKey nodeAddr fqcsid with
  | none => .ok w
  | some key => do
      let lists ← removeSessEntry seid key w.state.seidByPeerCsid
      .ok { key, state := { w.state with seidByPeerCsid := lists } }

/-- The loop over a session's local CSIDs, `left` to come: one without sessions is taken off their
number, too. -/
def removeFromLocal (seid : UInt64) : List UInt16 → Nat → Table UInt16 (List Seids) →
    Except Fault (Table UInt16 (List Seids))
  | csid :: rest, left + 1, lists =>
    match lists csid with
    | none | some [] => .error .rejected
    | some nodes =>
      match removeSessCsidDataNode seid nodes with
      | [] => removeFromLocal seid rest (left - 1) (lists.del csid)
      | node :: nodes => removeFromLocal seid rest left (lists.add csid (node :: nodes))
  | _, _, lists => .ok lists

/-- The loop body over the sessions of a peer CSID, for a live session. -/
def cleanupSession (nodeAddr : NodeAddress) (seid : UInt64) (session : PeerSession) (w : Walk) :
    Except Fault Walk := do
  let w ← removeFrom nodeAddr seid session.mme w
  let w ← removeFrom nodeAddr seid session.pgw w
  let w ← removeFrom nodeAddr seid session.sgw w
  match session.upFqcsid with
  | none => .error .undefined
  | some csids =>
    let seidsByCsid ← removeFromLocal seid csids csids.length w.state.seidsByCsid
    .ok { w with state := { w.state with seidsByCsid, sessions := w.state.sessions.del seid } }

/-- The loop over the sessions of a peer CSID, which frees the nodes. -/
def cleanupNodes (nodeAddr : NodeAddress) : List Seids → Walk → Except Fault Walk
  | [], w => .ok w
  | node :: rest, w =>
    match w.state.sessions node.upSeid with
    | none => cleanupNodes nodeAddr rest w
    | some session => do cleanupNodes nodeAddr rest (← cleanupSession nodeAddr node.upSeid session w)

/-- The loop body over the peer CSIDs. The final NULL is stored under what `key` is then; the walked
entry has the freed node unless it is the same. -/
def cleanupPeerCsid (nodeAddr : NodeAddress) (iface : UInt8) (s : PeerState) (csid : UInt16) :
    Except Fault PeerState :=
  let key : PeerCsidKey := ⟨iface, csid, nodeAddr⟩
  match s.seidByPeerCsid key with
  | none | some (.list []) => .ok s
  | some .freed => .error .undefined
  | some (.list (node :: rest)) =>
    if node.upSeid = 0 ∧ rest = [] then .ok s
    else do
      let w ← cleanupNodes nodeAddr (node :: rest) { key, state := s }
      .ok { w.state with
        seidByPeerCsid := (w.state.seidByPeerCsid.add key .freed).add w.key (.list []) }

/-- `del_sess_peer_csid_entry`; `stale` is whether a freed node is freed again. -/
def delSessPeerCsidEntry (stale : Bool) (key : PeerCsidKey) (lists : Table PeerCsidKey Entry) :
    Except Fault (Table PeerCsidKey Entry) :=
  match lists key with
  | none => .ok lists
  | some (.list _) => .ok (lists.del key)
  | some .freed => if stale then .error .undefined else .ok (lists.del key)

/-- `cleanup_sess_by_peer_csid_entry`: the state in which it returns 0. -/
def cleanupSessByPeerCsidEntry (stale : Bool) (peerCsids : FqCsid) (iface : UInt8) (s : PeerState) :
    Except Fault PeerState := do
  let s ← peerCsids.localCsid.foldlM (cleanupPeerCsid peerCsids.nodeAddr iface) s
  let seidByPeerCsid ← peerCsids.localCsid.foldlM
    (fun lists csid => delSessPeerCsidEntry stale ⟨iface, csid, peerCsids.nodeAddr⟩ lists)
    s.seidByPeerCsid
  .ok { s with seidByPeerCsid }

end Epc.Up.PeerCleanup
