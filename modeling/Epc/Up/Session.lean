import Epc.Lib.Table
import Epc.Node

/-! User-plane session contexts: their identifiers, the session table, and the head of
`process_up_session_estab_req` (`dp/pfcp_up_init.c`, `pfcp_messages/pfcp_up_sess.c`). When the requests
of different sessions are kept apart. -/

namespace Epc.Up

open Epc.Lib List Option Table

structure Fseid where
  seid : UInt64
  v4 : Bool
  v6 : Bool
  ipv4Address : UInt32
  ipv6Address : Ipv6Address
  deriving DecidableEq, Repr

inductive NodeId where
  | ipv4 (address : UInt32)
  | ipv6 (address : Ipv6Address)
  | fqdn (name : List UInt8)
  deriving DecidableEq, Repr

/-- What is read of a request before its rules: the header's SEID, the decoded IMSI, the CP's F-SEID
and node id, and the sender's port. -/
structure SessionRequest where
  s : Bool
  seid : UInt64
  imsi : Option UInt64
  cpFseid : Fseid
  nodeId : NodeId
  peerPort : UInt16
  deriving DecidableEq, Repr

structure PeerAddr where
  type : UInt8 := 0
  port : UInt16 := 0
  ipv4 : UInt32 := 0
  ipv6 : Ipv6Address := NodeAddress.zeroIpv6
  deriving DecidableEq, Repr

/-- The identity of a `pfcp_session_t`. -/
structure PfcpSession where
  cpSeid : UInt64 := 0
  upSeid : UInt64 := 0
  imsi : UInt64 := 0
  cpIp : PeerAddr := {}
  cpNodeAddr : NodeAddress := NodeAddress.zero
  deriving DecidableEq, Repr

/-- `sess_ctx_by_sessid_hash` and the contexts it refers to. -/
structure SessionTable where
  contexts : Heap PfcpSession := Heap.empty
  bySessId : Table UInt64 Nat := Table.empty

def genUpSessId (cpSessId : UInt64) : UInt64 :=
  (((cpSessId >>> 32) + 1) <<< 32) ||| (cpSessId &&& 0xfffffff)

/-- `get_sess_info_entry` with `SESS_CREATE`; allocation and insertion succeed. -/
def getSessInfoEntry (t : SessionTable) (upSessId : UInt64) : Nat × SessionTable :=
  match t.bySessId upSessId with
  | some context => (context, t)
  | none =>
    (t.contexts.next,
      { contexts := t.contexts.alloc { upSeid := upSessId }
        bySessId := t.bySessId.add upSessId t.contexts.next })

/-- The identifier the establishment request is given. -/
def upSessId (r : SessionRequest) : UInt64 :=
  if r.s then
    if r.seid ≠ 0 then r.seid else genUpSessId r.cpFseid.seid
  else genUpSessId 0

def getCpNodeAddr (fseid : Fseid) : NodeAddress :=
  let v4 := if fseid.v4 then
      { NodeAddress.zero with ipType := pdnTypeIpv4, ipv4Addr := fseid.ipv4Address }
    else NodeAddress.zero
  if fseid.v6 then { v4 with ipType := pdnTypeIpv6, ipv6Addr := fseid.ipv6Address } else v4

/-- The stores into the context, up to the test of the node id. -/
def PfcpSession.identify (r : SessionRequest) (session : PfcpSession) : PfcpSession :=
  { session with
    imsi := r.imsi.getD session.imsi
    cpNodeAddr := getCpNodeAddr r.cpFseid
    cpSeid := r.cpFseid.seid
    cpIp :=
      match r.nodeId with
      | .ipv4 address =>
        { session.cpIp with type := pdnTypeIpv4, port := r.peerPort, ipv4 := address }
      | .ipv6 address =>
        { session.cpIp with type := pdnTypeIpv6, port := r.peerPort, ipv6 := address }
      | .fqdn _ => session.cpIp }

/-- The head of `process_up_session_estab_req`: the context, and whether the node id lets it go on.
-/
def openSession (t : SessionTable) (r : SessionRequest) : Nat × Bool × SessionTable :=
  let (context, t) := getSessInfoEntry t (upSessId r)
  let accepted := match r.nodeId with
    | .fqdn _ => false
    | _ => true
  (context, accepted, { t with contexts := t.contexts.update context (PfcpSession.identify r) })

def openSessions (t : SessionTable) : List SessionRequest → List (SessionRequest × Nat)
  | [] => []
  | r :: rs => (r, (openSession t r).1) :: openSessions (openSession t r).2.2 rs

def SessionRequest.owner (r : SessionRequest) : NodeId × UInt64 :=
  (r.nodeId, r.cpFseid.seid)

/-- Where a UP SEID comes from. -/
inductive SeidSource where
  | header (seid : UInt64)
  | cp (seid : UInt64)

/-- Without a SEID in its header a request counts as one of CP SEID zero. -/
def SessionRequest.source (r : SessionRequest) : SeidSource :=
  if r.s then
    if r.seid ≠ 0 then .header r.seid else .cp r.cpFseid.seid
  else .cp 0

/-- `h` is `c` with one more in the high word and the bits 28 to 31 cleared. -/
def Mistaken (h c : UInt64) : Prop :=
  h.toNat / 2 ^ 32 = (c.toNat / 2 ^ 32 + 1) % 2 ^ 32 ∧ h.toNat % 2 ^ 32 = c.toNat % 2 ^ 28

/-- SEIDs of headers are confused if they are equal, CP SEIDs if they differ in the bits 28 to 31 at
most. -/
def SeidSource.Confused : SeidSource → SeidSource → Prop
  | .header h, .header h' => h = h'
  | .cp c, .cp c' =>
    c.toNat / 2 ^ 32 = c'.toNat / 2 ^ 32 ∧ c.toNat % 2 ^ 28 = c'.toNat % 2 ^ 28
  | .header h, .cp c => Mistaken h c
  | .cp c, .header h => Mistaken h c

theorem toNat_genUpSessId (x : UInt64) :
    (genUpSessId x).toNat = 2 ^ 32 * ((x.toNat / 2 ^ 32 + 1) % 2 ^ 32) + x.toNat % 2 ^ 28 := by
  have high : (((x >>> 32) + 1) <<< 32).toNat = 2 ^ 32 * ((x.toNat / 2 ^ 32 + 1) % 2 ^ 32) := by
    simp
    omega
  have low : (x &&& 0xfffffff).toNat = x.toNat % 2 ^ 28 := by
    exact Nat.and_two_pow_sub_one_eq_mod x.toNat 28
  rw [genUpSessId, UInt64.toNat_or, high, low, Nat.two_pow_add_eq_or_of_lt (by omega)]

def SeidSource.upSessId : SeidSource → UInt64
  | .header h => h
  | .cp c => genUpSessId c

theorem upSessId_eq_source (r : SessionRequest) : upSessId r = r.source.upSessId := by
  unfold Up.upSessId SessionRequest.source
  split
  · split <;> rfl
  · rfl

theorem header_eq_genUpSessId_iff (h c : UInt64) : h = genUpSessId c ↔ Mistaken h c := by
  rw [← UInt64.toNat_inj, toNat_genUpSessId, Mistaken]
  omega

theorem SeidSource.upSessId_eq_iff (a b : SeidSource) : a.upSessId = b.upSessId ↔ a.Confused b := by
  cases a with
  | header h =>
    cases b with
    | header h' => exact Iff.rfl
    | cp c => exact header_eq_genUpSessId_iff h c
  | cp c =>
    cases b with
    | header h => exact eq_comm.trans (header_eq_genUpSessId_iff h c)
    | cp c' =>
      -- The high word plus one wraps, but determines the high word.
      have bounds := And.intro c.toNat_lt c'.toNat_lt
      rw [upSessId, upSessId, ← UInt64.toNat_inj, toNat_genUpSessId, toNat_genUpSessId, Confused]
      omega

theorem upSessId_eq_iff (a b : SessionRequest) :
    upSessId a = upSessId b ↔ a.source.Confused b.source := by
  rw [upSessId_eq_source, upSessId_eq_source, SeidSource.upSessId_eq_iff]

def SessionTable.Injective (t : SessionTable) : Prop :=
  (∀ k l context, t.bySessId k = some context → t.bySessId l = some context → k = l) ∧
    ∀ k context, t.bySessId k = some context → context < t.contexts.next

theorem SessionTable.Injective.openSession {t : SessionTable} (injective : t.Injective)
    (r : SessionRequest) :
    (openSession t r).2.2.Injective ∧
      (openSession t r).2.2.bySessId (upSessId r) = some (openSession t r).1 ∧
      ∀ k context, t.bySessId k = some context →
        (openSession t r).2.2.bySessId k = some context := by
  cases found : t.bySessId (upSessId r) with
  | some context =>
    have same : getSessInfoEntry t (upSessId r) = (context, t) := by
      simp [getSessInfoEntry, found]
    simp only [Up.openSession, same]
    exact ⟨injective, found, fun _ _ held => held⟩
  | none =>
    simp only [Up.openSession, getSessInfoEntry, found]
    refine ⟨⟨?_, ?_⟩, add_self .., ?_⟩
    · intro k l context atK atL
      rcases add_eq_some atK with ⟨rfl, rfl⟩ | ⟨-, oldK⟩ <;>
        rcases add_eq_some atL with ⟨rfl, same⟩ | ⟨-, oldL⟩
      · rfl
      · exact absurd (injective.2 l _ oldL) (lt_irrefl _)
      · exact absurd (injective.2 k context oldK) (same ▸ lt_irrefl _)
      · exact injective.1 k l context oldK oldL
    · intro k context held
      rcases add_eq_some held with ⟨-, rfl⟩ | ⟨-, old⟩
      · exact Nat.lt_succ_self _
      · exact (injective.2 k context old).trans (Nat.lt_succ_self _)
    · intro k context held
      have old : k ≠ upSessId r := by
        rintro rfl
        rw [found] at held
        cases held
      rw [add_of_ne old]
      exact held

theorem openSessions_found {t : SessionTable} (injective : t.Injective) (rs : List SessionRequest) :
    ∃ t' : SessionTable, t'.Injective ∧
      (∀ k context, t.bySessId k = some context → t'.bySessId k = some context) ∧
      ∀ given ∈ openSessions t rs, t'.bySessId (upSessId given.1) = some given.2 := by
  induction rs generalizing t with
  | nil => exact ⟨t, injective, fun _ _ held => held, by simp [openSessions]⟩
  | cons r rs ih =>
    obtain ⟨injective', own, kept⟩ := injective.openSession r
    obtain ⟨t', final, later, found⟩ := ih injective'
    refine ⟨t', final, fun k context held => later k context (kept k context held), ?_⟩
    intro given mem
    rcases mem_cons.mp mem with rfl | rest
    · exact later _ _ own
    · exact found given rest

theorem initial_injective : SessionTable.Injective {} := by
  constructor <;> simp [Table.empty]

theorem openSessions_map_fst (t : SessionTable) (rs : List SessionRequest) :
    (openSessions t rs).map Prod.fst = rs := by
  induction rs generalizing t with
  | nil => rfl
  | cons r rs ih => simp [openSessions, ih]

/-- Requests of different owners get different identifiers and contexts. -/
def SetApart (a b : SessionRequest × Nat) : Prop :=
  a.1.owner ≠ b.1.owner → upSessId a.1 ≠ upSessId b.1 ∧ a.2 ≠ b.2

/-- Over any sequence of establishment requests, those of different CP nodes or with different CP
SEIDs get identifiers and contexts of their own exactly when no two of them are confused. -/
theorem openSessions_setApart_iff (rs : List SessionRequest) :
    (openSessions {} rs).Pairwise SetApart ↔
      rs.Pairwise fun a b => a.owner ≠ b.owner → ¬ a.source.Confused b.source := by
  obtain ⟨t, injective, -, found⟩ := openSessions_found initial_injective rs
  have agree : ∀ a ∈ openSessions {} rs, ∀ b ∈ openSessions {} rs,
      (SetApart a b ↔ (a.1.owner ≠ b.1.owner → ¬ a.1.source.Confused b.1.source)) := by
    intro a memberA b memberB
    have contexts : a.2 = b.2 → upSessId a.1 = upSessId b.1 := by
      intro same
      have atB := found b memberB
      rw [← same] at atB
      exact injective.1 _ _ a.2 (found a memberA) atB
    refine forall_congr' fun _ => ?_
    rw [ne_eq, ne_eq, upSessId_eq_iff] at *
    exact ⟨fun both => both.1, fun apart => ⟨apart, fun same => apart (contexts same)⟩⟩
  conv_rhs => rw [← openSessions_map_fst {} rs, pairwise_map]
  constructor
  · exact fun apart => apart.imp_of_mem fun memberA memberB => (agree _ memberA _ memberB).mp
  · exact fun apart => apart.imp_of_mem fun memberA memberB => (agree _ memberA _ memberB).mpr

def requestOf (node : UInt32) (cpSeid : UInt64) : SessionRequest where
  s := true
  seid := 0
  imsi := none
  cpFseid :=
    { seid := cpSeid
      v4 := true
      v6 := false
      ipv4Address := node
      ipv6Address := NodeAddress.zeroIpv6 }
  nodeId := .ipv4 node
  peerPort := 8805

/-- Two SEIDs of one node that differ in bit 28, and one SEID used by two nodes. -/
theorem openSessions_merged :
    ¬ (openSessions {} [requestOf 1 0x10000001, requestOf 1 1]).Pairwise SetApart ∧
      ¬ (openSessions {} [requestOf 1 1, requestOf 2 1]).Pairwise SetApart := by
  have merged : ∀ a b : SessionRequest, a.owner ≠ b.owner → upSessId a = upSessId b →
      ¬ (openSessions {} [a, b]).Pairwise SetApart := by
    intro a b different same apart
    simp only [openSessions, pairwise_cons, mem_singleton, forall_eq] at apart
    exact (apart.1 different).1 same
  exact ⟨merged _ _ (by decide) (by decide), merged _ _ (by decide) (by decide)⟩

end Epc.Up
