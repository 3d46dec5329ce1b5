import Epc.Lib.Chain
import Epc.Lib.Run
import Epc.Node

/-! The sessions of a peer CSID: `link_sess_with_peer_csid` and `link_dp_sess_with_peer_csid`
(`pfcp_messages/csid_api.c`) with `get_sess_peer_csid_entry` (`pfcp_messages/csid_init.c`) and
`add_peer_csid_sess_data_node` (`pfcp_messages/seid_llist.c`). -/

namespace Epc.PeerCsid

open Epc.Lib Epc.Lib.Run List Option Heap

structure PeerCsidKey where
  iface : UInt8
  peerLocalCsid : UInt16
  peerNodeAddr : NodeAddress
  deriving DecidableEq, Repr

/-- The first two octets of the packed key, which a table with such keys reads. -/
def PeerCsidKey.firstOctets (key : PeerCsidKey) : UInt16 :=
  key.iface.toUInt16 + key.peerLocalCsid <<< 8

/-- The identifiers that a node of `sess_csid` has, and those of a session. -/
structure Seids where
  cpSeid : UInt64
  upSeid : UInt64
  deriving DecidableEq, Repr

inductive Plane where
  | control
  | user
  deriving DecidableEq, Repr

/-- The identifier that the sessions of a plane are told apart by. -/
def Seids.of (plane : Plane) (seids : Seids) : UInt64 :=
  match plane with
  | .control => seids.cpSeid
  | .user => seids.upSeid

/-- The list nodes, `seid_by_peer_csid_hash` and `seids_by_csid_hash`; an entry may be NULL. -/
structure CsidLists where
  nodes : Heap (Lib.Node Seids)
  seidByPeerCsid : Table PeerCsidKey (Option Nat)
  seidsByCsid : Table UInt16 (Option Nat)

/-- `get_sess_peer_csid_entry` with `ADD_NODE`: the list's head, a zero node if there was none. -/
def getSessPeerCsidEntry (key : PeerCsidKey) (s : CsidLists) : Nat × CsidLists :=
  match (s.seidByPeerCsid key).join with
  | some head => (head, s)
  | none =>
    (s.nodes.next,
      { s with
        nodes := s.nodes.alloc { data := { cpSeid := 0, upSeid := 0 }, next := none }
        seidByPeerCsid := s.seidByPeerCsid.add key (some s.nodes.next) })

/-- `add_peer_csid_sess_data_node` and what is stored in the node: the wrong table is told of the
new head. -/
def addPeerCsidSessDataNode (head : Nat) (key : PeerCsidKey) (session : Seids) (s : CsidLists) :
    CsidLists :=
  { s with
    nodes := s.nodes.alloc { data := session, next := some head }
    seidsByCsid := s.seidsByCsid.add key.firstOctets (some s.nodes.next) }

/-- `link_sess_with_peer_csid` and `link_dp_sess_with_peer_csid`; none for a freed node. -/
def linkSessWithPeerCsid (plane : Plane) (key : PeerCsidKey) (session : Seids) (s : CsidLists) :
    Option CsidLists :=
  let (head, s) := getSessPeerCsidEntry key s
  (s.nodes.cells head).map fun node =>
    if node.data.of plane ≠ session.of plane ∧ node.data.of plane ≠ 0 then
      addPeerCsidSessDataNode head key session s
    else { s with nodes := s.nodes.update head fun _ => { data := session, next := none } }

structure Link where
  key : PeerCsidKey
  session : Seids
  deriving DecidableEq, Repr

def Link.step (plane : Plane) (s : CsidLists) (link : Link) : CsidLists :=
  (linkSessWithPeerCsid plane link.key link.session s).getD s

def CsidLists.listed (s : CsidLists) (key : PeerCsidKey) : List Seids :=
  (s.nodes.addresses s.nodes.next (s.seidByPeerCsid key).join).filterMap fun a =>
    (s.nodes.cells a).map Node.data

/-- The lists are the links made so far, each session once, and the local table is unchanged. -/
structure Linked (plane : Plane) (start : CsidLists) (links : List Link) (s : CsidLists) : Prop where
  once : ∀ key, ((s.listed key).map (Seids.of plane)).Nodup
  exactly : ∀ key seid, seid ∈ (s.listed key).map (Seids.of plane) ↔
    ∃ link ∈ links, link.key = key ∧ link.session.of plane = seid
  untouched : s.seidsByCsid = start.seidsByCsid

/-- The list of the key has no other session. -/
def NoOther (plane : Plane) (s : CsidLists) (link : Link) : Prop :=
  ∀ seids ∈ s.listed link.key, seids.of plane = link.session.of plane

instance (plane : Plane) (s : CsidLists) (link : Link) : Decidable (NoOther plane s link) :=
  inferInstanceAs (Decidable (∀ seids ∈ s.listed link.key, seids.of plane = link.session.of plane))

/-- Each key has at most one session, in a node of its own. -/
structure Single (plane : Plane) (start : CsidLists) (links : List Link) (s : CsidLists) : Prop where
  absent : ∀ key, (s.seidByPeerCsid key).join = none → ∀ link ∈ links, link.key ≠ key
  present : ∀ key a, (s.seidByPeerCsid key).join = some a → ∃ session,
    s.nodes.cells a = some { data := session, next := none } ∧
      (∃ link ∈ links, link.key = key) ∧
      ∀ link ∈ links, link.key = key → link.session.of plane = session.of plane
  own : ∀ k₁ k₂ a, (s.seidByPeerCsid k₁).join = some a → (s.seidByPeerCsid k₂).join = some a → k₁ = k₂
  untouched : s.seidsByCsid = start.seidsByCsid

section

variable {plane : Plane} {start s : CsidLists} {links : List Link}

theorem listed_absent {key : PeerCsidKey} (absent : (s.seidByPeerCsid key).join = none) :
    s.listed key = [] := by
  rw [CsidLists.listed, absent]
  cases s.nodes.next <;> rfl

theorem listed_single {key : PeerCsidKey} {a : Nat} {session : Seids}
    (entry : (s.seidByPeerCsid key).join = some a)
    (live : s.nodes.cells a = some { data := session, next := none }) : s.listed key = [session] := by
  have chain : Heap.Chain s.nodes (some a) [a] := .cons live .nil
  rw [CsidLists.listed, entry, chain.addresses_eq chain.length_le]
  simp [live]

theorem Single.linked (single : Single plane start links s) : Linked plane start links s := by
  refine ⟨fun key => ?_, fun key seid => ?_, single.untouched⟩
  · cases entry : (s.seidByPeerCsid key).join with
    | none => rw [listed_absent entry]; exact nodup_nil
    | some a =>
      obtain ⟨session, live, -⟩ := single.present key a entry
      rw [listed_single entry live]
      exact nodup_singleton _
  · cases entry : (s.seidByPeerCsid key).join with
    | none =>
      rw [listed_absent entry]
      refine ⟨nofun, ?_⟩
      rintro ⟨link, mem, same, -⟩
      exact absurd same (single.absent key entry link mem)
    | some a =>
      obtain ⟨session, live, ⟨link, mem, same⟩, all⟩ := single.present key a entry
      rw [listed_single entry live, map_singleton, mem_singleton]
      constructor
      · rintro rfl
        exact ⟨link, mem, same, all link mem same⟩
      · rintro ⟨other, otherMem, otherKey, rfl⟩
        exact all other otherMem otherKey

end

section

variable {plane : Plane} {start s : CsidLists} {links : List Link} {link : Link}

theorem step_absent (absent : (s.seidByPeerCsid link.key).join = none) :
    link.step plane s =
      { s with
        nodes := (s.nodes.alloc { data := { cpSeid := 0, upSeid := 0 }, next := none }).update
          s.nodes.next fun _ => { data := link.session, next := none }
        seidByPeerCsid := s.seidByPeerCsid.add link.key (some s.nodes.next) } := by
  have zero : ({ cpSeid := 0, upSeid := 0 } : Seids).of plane = 0 := by cases plane <;> rfl
  have entry : getSessPeerCsidEntry link.key s = (s.nodes.next,
      { s with
        nodes := s.nodes.alloc { data := { cpSeid := 0, upSeid := 0 }, next := none }
        seidByPeerCsid := s.seidByPeerCsid.add link.key (some s.nodes.next) }) := by
    rw [getSessPeerCsidEntry, absent]
  simp only [Link.step, linkSessWithPeerCsid, entry, alloc_cells_next, map_some, zero,
    ne_eq, not_true_eq_false, and_false, if_false, getD_some]

theorem step_present {a : Nat} {node : Node Seids} (entry : (s.seidByPeerCsid link.key).join = some a)
    (live : s.nodes.cells a = some node) (same : node.data.of plane = link.session.of plane) :
    link.step plane s =
      { s with nodes := s.nodes.update a fun _ => { data := link.session, next := none } } := by
  have found : getSessPeerCsidEntry link.key s = (a, s) := by rw [getSessPeerCsidEntry, entry]
  simp only [Link.step, linkSessWithPeerCsid, found, live, map_some, same, ne_eq,
    not_true_eq_false, false_and, if_false, getD_some]

theorem Single.step_absent (single : Single plane start links s)
    (absent : (s.seidByPeerCsid link.key).join = none) :
    Single plane start (links ++ [link]) (link.step plane s) := by
  rw [PeerCsid.step_absent absent]
  have fresh : ∀ key a, (s.seidByPeerCsid key).join = some a → a ≠ s.nodes.next := by
    rintro key a entry rfl
    obtain ⟨session, live, -⟩ := single.present key _ entry
    exact absurd (live_lt live) (Nat.lt_irrefl _)
  have join_self : ((s.seidByPeerCsid.add link.key (some s.nodes.next)) link.key).join =
      some s.nodes.next := by rw [Table.add_self]; rfl
  have join_other : ∀ key, key ≠ link.key →
      ((s.seidByPeerCsid.add link.key (some s.nodes.next)) key).join = (s.seidByPeerCsid key).join :=
    fun key other => by rw [Table.add_of_ne other]
  refine ⟨fun key missing => ?_, fun key a entry => ?_, fun k₁ k₂ a h₁ h₂ => ?_, single.untouched⟩
  · have other : key ≠ link.key := by
      rintro rfl
      simp only [join_self] at missing
      cases missing
    simp only [join_other key other] at missing
    intro l mem
    rcases mem_append.mp mem with old | new
    · exact single.absent key missing l old
    · rw [mem_singleton.mp new]
      exact other.symm
  · by_cases own : key = link.key
    · subst own
      simp only [join_self, some.injEq] at entry
      subst entry
      refine ⟨link.session, by simp, ⟨link, by simp, rfl⟩, fun l mem same => ?_⟩
      rcases mem_append.mp mem with old | new
      · exact absurd same (single.absent link.key absent l old)
      · rw [mem_singleton.mp new]
    · simp only [join_other key own] at entry
      obtain ⟨session, live, ⟨l, mem, same⟩, all⟩ := single.present key a entry
      refine ⟨session, ?_, ⟨l, mem_append_left _ mem, same⟩, fun l' mem' same' => ?_⟩
      · rw [update_cells_of_ne (fresh key a entry), alloc_cells_of_ne (fresh key a entry), live]
      · rcases mem_append.mp mem' with old | new
        · exact all l' old same'
        · rw [mem_singleton.mp new] at same'
          exact absurd same'.symm own
  · by_cases own₁ : k₁ = link.key <;> by_cases own₂ : k₂ = link.key
    · rw [own₁, own₂]
    · simp only [own₁, join_self, some.injEq] at h₁
      simp only [join_other k₂ own₂] at h₂
      exact absurd h₁.symm (fresh k₂ a h₂)
    · simp only [own₂, join_self, some.injEq] at h₂
      simp only [join_other k₁ own₁] at h₁
      exact absurd h₂.symm (fresh k₁ a h₁)
    · simp only [join_other k₁ own₁] at h₁
      simp only [join_other k₂ own₂] at h₂
      exact single.own k₁ k₂ a h₁ h₂

theorem Single.step_present (single : Single plane start links s) {a : Nat}
    (entry : (s.seidByPeerCsid link.key).join = some a) (noOther : NoOther plane s link) :
    Single plane start (links ++ [link]) (link.step plane s) := by
  obtain ⟨session, live, ⟨first, mem, same⟩, all⟩ := single.present link.key a entry
  have again : session.of plane = link.session.of plane := by
    apply noOther
    rw [listed_single entry live]
    exact mem_singleton_self _
  rw [PeerCsid.step_present entry live again]
  refine ⟨fun key missing l member => ?_, fun key b here => ?_, single.own, single.untouched⟩
  · rcases mem_append.mp member with old | new
    · exact single.absent key missing l old
    · rw [mem_singleton.mp new]
      rintro rfl
      rw [entry] at missing
      cases missing
  · change (s.seidByPeerCsid key).join = some b at here
    by_cases own : key = link.key
    · subst own
      rw [entry, some.injEq] at here
      subst here
      refine ⟨link.session, by simp [live], ⟨link, by simp, rfl⟩, fun l member sameKey => ?_⟩
      rcases mem_append.mp member with old | new
      · rw [all l old sameKey, again]
      · rw [mem_singleton.mp new]
    · obtain ⟨other, otherLive, ⟨l, member, sameKey⟩, others⟩ := single.present key b here
      have apart : b ≠ a := by
        rintro rfl
        exact own (single.own key link.key b here entry)
      refine ⟨other, ?_, ⟨l, mem_append_left _ member, sameKey⟩, fun l' member' sameKey' => ?_⟩
      · rw [update_cells_of_ne apart, otherLive]
      · rcases mem_append.mp member' with old | new
        · exact others l' old sameKey'
        · rw [mem_singleton.mp new] at sameKey'
          exact absurd sameKey'.symm own

end

theorem Single.initial (plane : Plane) {start : CsidLists}
    (empty : ∀ key, (start.seidByPeerCsid key).join = none) : Single plane start [] start := by
  refine ⟨fun _ _ => nofun, fun key a entry => ?_, fun key _ a entry _ => ?_, rfl⟩
  all_goals
    rw [empty key] at entry
    cases entry

/-- From empty lists, in a run that links no session under a key that has another one, the lists are
what was linked. -/
theorem linkRun_linked (plane : Plane) (start : CsidLists)
    (empty : ∀ key, (start.seidByPeerCsid key).join = none) (links : List Link)
    (guarded : Guarded (Link.step plane) (NoOther plane) start links) :
    Linked plane start links (run (Link.step plane) start links) := by
  apply Single.linked
  induction links using List.reverseRecOn with
  | nil => exact Single.initial plane empty
  | append_singleton links link ih =>
    rw [guarded_append] at guarded
    have single := ih guarded.1
    rw [run_append, run_cons, run_nil]
    cases entry : ((run (Link.step plane) start links).seidByPeerCsid link.key).join with
    | none => exact single.step_absent entry
    | some a => exact single.step_present entry guarded.2.1

def CsidLists.none : CsidLists where
  nodes := .empty
  seidByPeerCsid := .empty
  seidsByCsid := .empty

def peerKey (csid : UInt16) : PeerCsidKey := { iface := 2, peerLocalCsid := csid, peerNodeAddr := .v4 1 }

def relinked : List Link :=
  [⟨peerKey 1, ⟨1, 11⟩⟩, ⟨peerKey 2, ⟨2, 12⟩⟩, ⟨peerKey 1, ⟨1, 11⟩⟩, ⟨peerKey 2, ⟨2, 12⟩⟩]

theorem linkRun_linked_relinked : Linked .user .none relinked (run (Link.step .user) .none relinked) :=
  linkRun_linked .user .none (fun _ => rfl) relinked (by decide)

/-- The second session under a key is not in its list. -/
theorem second_session_not_listed :
    ¬ Linked .user .none [⟨peerKey 1, ⟨1, 11⟩⟩, ⟨peerKey 1, ⟨2, 12⟩⟩]
      (run (Link.step .user) .none [⟨peerKey 1, ⟨1, 11⟩⟩, ⟨peerKey 1, ⟨2, 12⟩⟩]) := by
  intro linked
  have listed := (linked.exactly (peerKey 1) 12).mpr ⟨⟨peerKey 1, ⟨2, 12⟩⟩, by decide, rfl, rfl⟩
  exact absurd listed (by decide)

end Epc.PeerCsid
