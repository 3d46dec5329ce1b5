import Epc.Up.Sdf

/-! What the classification of a burst reads for each packet, and bursts for which that is the packet's
own least precedence. -/

namespace Epc.Up

open List Function
open Option hiding mem_map

def leastPrcdnc (a b : UInt32) : UInt32 :=
  if a = 0 ∨ (b ≠ 0 ∧ b < a) then b else a

def lastTable (tables : List Nat) : Option Nat :=
  (tables.filter fun t => t ≠ 0).getLast?

def Mbuf.version (m : Mbuf) : IpVersion :=
  m.ipVersion.getD .ipv4

section

variable {Rule : Type} (acl : RteAcl Rule) (config : Nat → AclConfig Rule) {t : Nat} {tmp : UInt32}

def AclConfig.context (entry : AclConfig Rule) : Option (AclCtx Rule) :=
  match entry.acxIpv4 with
  | some ctx => some ctx
  | none => entry.acxIpv6

def classified (m : Mbuf) (t : Nat) : Option UInt32 := do
  let ctx ← (config t).context
  let rules ← ctx.transTable
  let version ← m.ipVersion
  some (acl.classify rules (m.toProto version))

def classifiedIn (m : Mbuf) (t : Nat) : Option UInt32 :=
  if t = 0 then none else classified acl config m t

def leastFrom (m : Mbuf) (tmp : UInt32) (tables : List Nat) : UInt32 :=
  (tables.filterMap (classifiedIn acl config m)).foldl leastPrcdnc tmp

theorem leastFrom_cons (m : Mbuf) (tmp : UInt32) (t : Nat) (ts : List Nat) :
    leastFrom acl config m tmp (t :: ts) =
      leastFrom acl config m (leastFrom acl config m tmp [t]) ts := by
  cases found : classifiedIn acl config m t <;> simp [leastFrom, found]

theorem aclLookup_eq (pkts : Nat → Mbuf) (t : Nat) (res : ResPtr → UInt32) :
    aclLookup acl config pkts t res =
      match classified acl config (pkts 0) t with
      | some c => (some (t, (pkts 0).version), Function.update res (t, (pkts 0).version) c)
      | none => (none, res) := by
  unfold aclLookup classified AclConfig.context Mbuf.version
  rcases (config t).acxIpv4 with _ | ctx
  · rcases (config t).acxIpv6 with _ | ctx
    · rfl
    · cases table : ctx.transTable with
      | none => simp [table]
      | some rules => cases version : (pkts 0).ipVersion <;> simp [table]
  · cases table : ctx.transTable with
    | none => simp [table]
    | some rules => cases version : (pkts 0).ipVersion <;> simp [table]

/-- The pointer of packet `j`, if there is one, leads to the running value. -/
def Tracks (s : SdfState) (j : Nat) (tmp : UInt32) : Prop :=
  ∀ p, s.prcdnc j = some p → s.res p = tmp

def lastPtr (m : Mbuf) (tables : List Nat) (p : Option ResPtr) : Option ResPtr :=
  (lastTable tables).elim p fun t => (classified acl config m t).map fun _ => (t, m.version)

theorem lastPtr_cons (m : Mbuf) (t : Nat) (ts : List Nat) (p : Option ResPtr) :
    lastPtr acl config m (t :: ts) p = lastPtr acl config m ts (lastPtr acl config m [t] p) := by
  have last : lastTable (t :: ts) = (lastTable ts).or (lastTable [t]) := by
    rw [← singleton_append, lastTable, filter_append, getLast?_append]
    rfl
  rw [lastPtr, last, lastPtr]
  cases lastTable ts <;> rfl

/-- The inner loop moves packet `j`'s pointer only, to the last table's buffer, which holds the
running value, and writes to the buffers of its tables only. -/
structure Looked (m : Mbuf) (j : Nat) (tables : List Nat) (tmp : UInt32) (s s' : SdfState) : Prop where
  others : ∀ i ≠ j, s'.prcdnc i = s.prcdnc i
  elsewhere : ∀ t ∉ tables, ∀ version, s'.res (t, version) = s.res (t, version)
  own : s'.prcdnc j = lastPtr acl config m tables (s.prcdnc j)
  tracks : Tracks s' j (leastFrom acl config m tmp tables)

variable {s : SdfState}

theorem sdfTables_step (pkts : Nat → Mbuf) (j t : Nat) (rest : List Nat) (tracks : Tracks s j tmp) :
    ∃ s', Looked acl config (pkts 0) j [t] tmp s s' ∧
      sdfTables acl config pkts j (t :: rest) tmp s =
        sdfTables acl config pkts j rest (leastFrom acl config (pkts 0) tmp [t]) s' := by
  by_cases zero : t = 0
  · subst zero
    refine ⟨s, ⟨fun _ _ => rfl, fun _ _ _ => rfl, rfl, tracks⟩, ?_⟩
    rw [sdfTables]
    simp only [ne_eq, not_true_eq_false, if_false]
    cases pointer : s.prcdnc j with
    | none => rfl
    | some p =>
      have value := tracks p pointer
      simp only [value]
      split
      · rfl
      · rw [← value, update_eq_self]
        rfl
  · cases hit : classified acl config (pkts 0) t with
    | none =>
      have found : sdfLookup acl config pkts j t s.res = (none, s.res) := by
        rw [sdfLookup, aclLookup_eq, hit]
      refine ⟨{ s with prcdnc := Function.update s.prcdnc j none },
        ⟨fun i ne => update_of_ne ne _ _, fun _ _ _ => rfl, ?_, fun p pointer => ?_⟩, ?_⟩
      · simp [lastPtr, lastTable, zero, hit]
      · simp at pointer
      · rw [sdfTables]
        simp only [ne_eq, zero, not_false_eq_true, if_true, found, update_self]
        simp [leastFrom, classifiedIn, zero, hit]
    | some c =>
      have found : sdfLookup acl config pkts j t s.res =
          (some (t, (pkts 0).version), Function.update s.res (t, (pkts 0).version) c) := by
        rw [sdfLookup, aclLookup_eq, hit]
      have least : leastFrom acl config (pkts 0) tmp [t] = leastPrcdnc tmp c := by
        simp [leastFrom, classifiedIn, zero, hit]
      rw [least]
      refine ⟨⟨Function.update s.res (t, (pkts 0).version) (leastPrcdnc tmp c),
        Function.update s.prcdnc j (some (t, (pkts 0).version))⟩,
        ⟨fun i ne => update_of_ne ne _ _, fun other out version => ?_, ?_, fun p pointer => ?_⟩, ?_⟩
      · exact update_of_ne (by rintro ⟨⟩; exact out (mem_singleton_self _)) _ _
      · simp [lastPtr, lastTable, zero, hit]
      · simp only [update_self, some.injEq] at pointer
        rw [← pointer, least]
        exact update_self ..
      · rw [sdfTables]
        simp only [ne_eq, zero, not_false_eq_true, if_true, found, update_self]
        by_cases smaller : tmp = 0 ∨ c ≠ 0 ∧ c < tmp
        · rw [if_pos smaller, leastPrcdnc, if_pos smaller]
        · rw [if_neg smaller, leastPrcdnc, if_neg smaller, update_idem]

theorem sdfTables_looked (pkts : Nat → Mbuf) (j : Nat) (tables : List Nat) (tracks : Tracks s j tmp) :
    Looked acl config (pkts 0) j tables tmp s (sdfTables acl config pkts j tables tmp s) := by
  induction tables generalizing s tmp with
  | nil => exact ⟨fun _ _ => rfl, fun _ _ _ => rfl, rfl, tracks⟩
  | cons x xs ih =>
    obtain ⟨s', first, step⟩ := sdfTables_step acl config pkts j x xs tracks
    have rest := ih first.tracks
    rw [step]
    refine ⟨fun i ne => (rest.others i ne).trans (first.others i ne), fun t out version => ?_, ?_, ?_⟩
    · rw [mem_cons, not_or] at out
      exact (rest.elsewhere t out.2 version).trans (first.elsewhere t (by simpa using out.1) version)
    · rw [rest.own, first.own, ← lastPtr_cons]
    · rw [leastFrom_cons acl config (pkts 0) tmp x xs]
      exact rest.tracks

def Burst.masked (b : Burst) (j : Nat) : Bool :=
  issetBit b.pktsMask j && issetBit b.fdPktsMask j

def lookupPackets (b : Burst) (js : List Nat) (s : SdfState) : SdfState :=
  js.foldl
    (fun s j =>
      if b.masked j then sdfTables acl config b.pkts j (b.sess j).aclTableIndx 0 s else s) s

theorem leastFrom_filter (m : Mbuf) (tmp : UInt32) (tables : List Nat) :
    leastFrom acl config m tmp (tables.filter (· ≠ 0)) = leastFrom acl config m tmp tables := by
  rw [leastFrom, leastFrom, filterMap_filter]
  congr 2
  funext t
  by_cases zero : t = 0 <;> simp [classifiedIn, zero]

def Burst.pointer (b : Burst) (j : Nat) : Option ResPtr :=
  (lastTable (b.sess j).aclTableIndx).bind fun t =>
    (classified acl config (b.pkts 0) t).map fun _ => (t, (b.pkts 0).version)

/-- The least precedence of the first packet in the tables of packet `j`. -/
def Burst.value (b : Burst) (j : Nat) : UInt32 :=
  leastFrom acl config (b.pkts 0) 0 (b.sess j).aclTableIndx

def Burst.SameTables (b : Burst) (j k : Nat) : Prop :=
  (b.sess k).aclTableIndx.filter (· ≠ 0) = (b.sess j).aclTableIndx.filter (· ≠ 0)

theorem Burst.SameTables.reads_eq {b : Burst} {j k : Nat} (same : b.SameTables j k) :
    b.pointer acl config k = b.pointer acl config j ∧ b.value acl config k = b.value acl config j := by
  constructor
  · rw [Burst.pointer, Burst.pointer, lastTable, lastTable, same]
  · rw [Burst.value, Burst.value, ← leastFrom_filter, same, leastFrom_filter]

/-- Where the sessions that use a packet's last table have the same tables, its pointer leads to the
least precedence of the first packet after the packets behind it, too. -/
theorem lookupPackets_reads (b : Burst) (res : ResPtr → UInt32)
    (shared : ∀ j < b.n, b.masked j → ∀ t, lastTable (b.sess j).aclTableIndx = some t →
      ∀ k < b.n, b.masked k → t ∈ (b.sess k).aclTableIndx → b.SameTables j k) {n : Nat} (inside : n ≤ b.n) :
    let s := lookupPackets acl config b (List.range n) { res, prcdnc := fun _ => none }
    (∀ i, n ≤ i → s.prcdnc i = none) ∧ ∀ j < n, b.masked j →
      s.prcdnc j = b.pointer acl config j ∧ Tracks s j (b.value acl config j) := by
  induction n with
  | zero => exact ⟨fun _ _ => rfl, fun _ bound => absurd bound (Nat.not_lt_zero _)⟩
  | succ n ih =>
    obtain ⟨unset, reads⟩ := ih (by omega)
    rw [List.range_succ, lookupPackets, foldl_concat, ← lookupPackets]
    generalize lookupPackets acl config b (List.range n) _ = s at unset reads ⊢
    by_cases masked : b.masked n
    · have unsetN := unset n le_rfl
      have looked := sdfTables_looked acl config b.pkts n (b.sess n).aclTableIndx
        (show Tracks s n 0 from fun p pointer => by rw [unsetN] at pointer; cases pointer)
      have own : _ = b.pointer acl config n := looked.own.trans (by
        rw [unsetN, lastPtr, Burst.pointer]
        cases lastTable (b.sess n).aclTableIndx <;> rfl)
      rw [if_pos masked]
      refine ⟨fun i later => (looked.others i (by omega)).trans (unset i (by omega)), fun j bound maskedJ => ?_⟩
      by_cases last : j = n
      · subst last
        exact ⟨own, looked.tracks⟩
      · obtain ⟨pointer, tracks⟩ := reads j (by omega) maskedJ
        have kept := looked.others j last
        refine ⟨kept.trans pointer, fun p here => ?_⟩
        rw [kept] at here
        have isPointer := pointer.symm.trans here
        rw [Burst.pointer, bind_eq_some_iff] at isPointer
        obtain ⟨t, lastJ, found⟩ := isPointer
        obtain ⟨c, -, rfl⟩ := map_eq_some_iff.mp found
        by_cases used : t ∈ (b.sess n).aclTableIndx
        · obtain ⟨samePointer, sameValue⟩ := (shared j (by omega) maskedJ t lastJ n inside masked
            used).reads_eq acl config
          rw [← sameValue]
          exact looked.tracks _ (own.trans (samePointer.trans (pointer.symm.trans here)))
        · rw [looked.elsewhere t used]
          exact tracks _ here
    · rw [if_neg masked]
      refine ⟨fun i later => unset i (by omega), fun j bound maskedJ => reads j ?_ maskedJ⟩
      have ne : j ≠ n := fun same => masked (same ▸ maskedJ)
      omega

end

section

variable (sess : Nat → SdfSession) (fdPktsMask : PktMask) (lookup : SdfState)

theorem pdrRound_other {i j : Nat} (bound : j < 64) (other : j ≠ i) (s : PdrState) :
    issetBit (pdrRound sess fdPktsMask lookup s i).pktsMask j = issetBit s.pktsMask j ∧
      (pdrRound sess fdPktsMask lookup s i).pdr j = s.pdr j := by
  have kept : issetBit (resetBit s.pktsMask i) j = issetBit s.pktsMask j := by
    rw [issetBit_resetBit _ _ bound]
    simp [other]
  unfold pdrRound
  split
  · split
    · exact ⟨kept, update_of_ne other _ _⟩
    · exact ⟨rfl, update_of_ne other _ _⟩
  · split
    · exact ⟨kept, rfl⟩
    · exact ⟨rfl, rfl⟩

theorem pdrRounds_other {j : Nat} (bound : j < 64) (js : List Nat) (other : j ∉ js) (s : PdrState) :
    let s' := js.foldl (pdrRound sess fdPktsMask lookup) s
    issetBit s'.pktsMask j = issetBit s.pktsMask j ∧ s'.pdr j = s.pdr j := by
  induction js generalizing s with
  | nil => exact ⟨rfl, rfl⟩
  | cons i js ih =>
    rw [mem_cons, not_or] at other
    obtain ⟨bit, pdr⟩ := pdrRound_other sess fdPktsMask lookup bound other.1 s
    obtain ⟨bits, pdrs⟩ := ih other.2 (pdrRound sess fdPktsMask lookup s i)
    exact ⟨bits.trans bit, pdrs.trans pdr⟩

theorem pdrRound_self {j : Nat} (bound : j < 64) {s : PdrState}
    (masked : (issetBit s.pktsMask j && issetBit fdPktsMask j) = true) (unset : s.pdr j = none) :
    let d := ((lookup.prcdnc j).map lookup.res).bind (getPdrNode (sess j).pdrs)
    issetBit (pdrRound sess fdPktsMask lookup s j).pktsMask j = d.isSome ∧
      (pdrRound sess fdPktsMask lookup s j).pdr j = d := by
  have cleared : issetBit (resetBit s.pktsMask j) j = false := by
    rw [issetBit_resetBit _ _ bound]
    simp
  obtain ⟨set, fd⟩ := Bool.and_eq_true_iff.mp masked
  unfold pdrRound
  rw [masked]
  cases lookup.prcdnc j with
  | none => simp [fd, cleared, unset]
  | some p =>
    simp only [map_some, bind_some]
    cases getPdrNode (sess j).pdrs (lookup.res p) with
    | none => simp [cleared]
    | some d => simp [set]

theorem getPdrInfo_of_masked {n j : Nat} (small : n ≤ 64) (bound : j < n) {s : PdrState}
    (masked : (issetBit s.pktsMask j && issetBit fdPktsMask j) = true) (unset : s.pdr j = none) :
    let d := ((lookup.prcdnc j).map lookup.res).bind (getPdrNode (sess j).pdrs)
    issetBit (getPdrInfo sess n fdPktsMask lookup s).pktsMask j = d.isSome ∧
      (getPdrInfo sess n fdPktsMask lookup s).pdr j = d := by
  have word : j < 64 := bound.trans_le small
  obtain ⟨before, after, split⟩ := append_of_mem (mem_range.mpr bound)
  have nodup : (before ++ j :: after).Nodup := split ▸ nodup_range
  obtain ⟨-, tail, apart⟩ := nodup_append.mp nodup
  have notBefore : j ∉ before := fun mem => apart j mem j mem_cons_self rfl
  have notAfter : j ∉ after := (nodup_cons.mp tail).1
  obtain ⟨bit, pdr⟩ := pdrRounds_other sess fdPktsMask lookup word before notBefore s
  obtain ⟨ownBit, ownPdr⟩ := pdrRound_self sess fdPktsMask lookup word
    (s := before.foldl (pdrRound sess fdPktsMask lookup) s) (bit ▸ masked) (pdr.trans unset)
  obtain ⟨lastBit, lastPdr⟩ := pdrRounds_other sess fdPktsMask lookup word after notAfter
    (pdrRound sess fdPktsMask lookup (before.foldl (pdrRound sess fdPktsMask lookup) s) j)
  rw [getPdrInfo, split, foldl_append, foldl_cons]
  exact ⟨lastBit.trans ownBit, lastPdr.trans ownPdr⟩

theorem getPdrNode_prcdncVal {pdrs : List PdrNode} {p : UInt32} {d : PdrNode}
    (found : getPdrNode pdrs p = some d) : d ∈ pdrs ∧ d.prcdncVal = p :=
  ⟨mem_of_find?_eq_some found, by simpa using find?_some found⟩

end

section

variable {Rule : Type} (acl : RteAcl Rule) (config : Nat → AclConfig Rule)

def AclConfig.rules (entry : AclConfig Rule) : IpVersion → List Rule
  | .ipv4 => (entry.acxIpv4.bind AclCtx.transTable).getD []
  | .ipv6 => (entry.acxIpv6.bind AclCtx.transTable).getD []

/-- The precedences, not zero, of the rules of a table that match a packet. -/
def matching (m : Mbuf) (t : Nat) : List UInt32 :=
  match m.ipVersion with
  | none => []
  | some version =>
    ((((config t).rules version).filter fun r => acl.accepts r (m.toProto version)).map
      acl.userdata).filter (· ≠ 0)

def Burst.precedences (b : Burst) (j : Nat) : List UInt32 :=
  ((b.sess j).aclTableIndx.filter (· ≠ 0)).flatMap (matching acl config (b.pkts j))

def IsLeastOf (ps : List UInt32) (p : UInt32) : Prop :=
  p ∈ ps ∧ ∀ q ∈ ps, p ≤ q

/-- Packet `j` is classified by its own rules. -/
structure ClassifiedByOwnRules (b : Burst) (s : PdrState) (j : Nat) : Prop where
  matched : ∀ p, IsLeastOf (b.precedences acl config j) p →
    ∃ d ∈ (b.sess j).pdrs, d.prcdncVal = p ∧ s.pdr j = some d
  unmatched : b.precedences acl config j = [] → issetBit s.pktsMask j = false

/-- `acl_lookup` takes the rules of this version: those for IPv6 only where there is no context for
IPv4. -/
def AclConfig.Serves (entry : AclConfig Rule) : IpVersion → Prop
  | .ipv4 => (entry.acxIpv4.bind AclCtx.transTable).isSome
  | .ipv6 => entry.acxIpv4 = none ∧ (entry.acxIpv6.bind AclCtx.transTable).isSome

/-- The higher the priority, the lower the precedence, which is not zero. -/
def RteAcl.Ordered (rules : List Rule) : Prop :=
  ∀ r ∈ rules, acl.userdata r ≠ 0 ∧
    ∀ r' ∈ rules, acl.priority r' ≤ acl.priority r → acl.userdata r ≤ acl.userdata r'

/-- Packet `j` is of the version of the first packet and the rules of its session take both or neither;
the sessions that use its last table have the same tables; there is a PDR for its least precedence, and
none of precedence zero. -/
structure Burst.SafeAt (b : Burst) (j : Nat) : Prop where
  version : (b.pkts j).ipVersion = (b.pkts 0).ipVersion
  tables : ∀ version, (b.pkts 0).ipVersion = some version →
    ∀ t ∈ (b.sess j).aclTableIndx.filter (· ≠ 0),
      (config t).Serves version ∧ acl.Ordered ((config t).rules version) ∧
        ∀ r ∈ (config t).rules version,
          acl.accepts r ((b.pkts j).toProto version) = acl.accepts r ((b.pkts 0).toProto version)
  shared : ∀ t, lastTable (b.sess j).aclTableIndx = some t →
    ∀ k < b.n, b.masked k → t ∈ (b.sess k).aclTableIndx →
      (b.sess k).aclTableIndx.filter (· ≠ 0) = (b.sess j).aclTableIndx.filter (· ≠ 0)
  pdr : ∀ p, IsLeastOf (b.precedences acl config j) p → ∃ d ∈ (b.sess j).pdrs, d.prcdncVal = p
  noZero : ∀ d ∈ (b.sess j).pdrs, d.prcdncVal ≠ 0

/-- A running value for the precedences that were met: the least, or zero without any. -/
def Running (ps : List UInt32) (v : UInt32) : Prop :=
  (ps = [] ∧ v = 0) ∨ (IsLeastOf ps v ∧ v ≠ 0)

theorem Running.append {ps qs : List UInt32} {v w : UInt32} (first : Running ps v)
    (second : Running qs w) : Running (ps ++ qs) (leastPrcdnc v w) := by
  rcases first with ⟨rfl, rfl⟩ | ⟨⟨memV, leastV⟩, nonzeroV⟩
  · simpa [leastPrcdnc] using second
  · rcases second with ⟨rfl, rfl⟩ | ⟨⟨memW, leastW⟩, nonzeroW⟩
    · rw [append_nil, leastPrcdnc, if_neg (by simp [nonzeroV])]
      exact .inr ⟨⟨memV, leastV⟩, nonzeroV⟩
    · by_cases smaller : w < v
      · rw [leastPrcdnc, if_pos (.inr ⟨nonzeroW, smaller⟩)]
        refine .inr ⟨⟨mem_append_right ps memW, fun q mem => ?_⟩, nonzeroW⟩
        rcases mem_append.mp mem with left | right
        · exact UInt32.le_trans (UInt32.le_of_lt smaller) (leastV q left)
        · exact leastW q right
      · rw [leastPrcdnc, if_neg (by simp [nonzeroV, smaller])]
        refine .inr ⟨⟨mem_append_left qs memV, fun q mem => ?_⟩, nonzeroV⟩
        rcases mem_append.mp mem with left | right
        · exact leastV q left
        · exact UInt32.le_trans (UInt32.not_lt.mp smaller) (leastW q right)

theorem running_leastFrom {m m' : Mbuf} {tables : List Nat} {ps : List UInt32} {tmp : UInt32}
    (start : Running ps tmp)
    (each : ∀ t ∈ tables, ∃ c, classifiedIn acl config m t = some c ∧ Running (matching acl config m' t) c) :
    Running (ps ++ tables.flatMap (matching acl config m')) (leastFrom acl config m tmp tables) := by
  induction tables generalizing ps tmp with
  | nil => simpa [leastFrom] using start
  | cons t ts ih =>
    obtain ⟨⟨c, found, here⟩, later⟩ := forall_mem_cons.mp each
    have first : leastFrom acl config m tmp [t] = leastPrcdnc tmp c := by simp [leastFrom, found]
    rw [leastFrom_cons, first, flatMap_cons, ← append_assoc]
    exact ih (start.append here) later

variable {acl config} {b : Burst} {j : Nat}

theorem AclConfig.Serves.classified {version : IpVersion} {m : Mbuf} {t : Nat}
    (serves : (config t).Serves version) (read : m.ipVersion = some version) :
    classified acl config m t = some (acl.classify ((config t).rules version) (m.toProto version)) := by
  cases version with
  | ipv4 =>
    obtain ⟨rules, found⟩ := isSome_iff_exists.mp serves
    obtain ⟨ctx, context, table⟩ := bind_eq_some_iff.mp found
    simp [Up.classified, context, AclConfig.context, AclConfig.rules, table, read]
  | ipv6 =>
    obtain ⟨absent, built⟩ := serves
    obtain ⟨rules, found⟩ := isSome_iff_exists.mp built
    obtain ⟨ctx, context, table⟩ := bind_eq_some_iff.mp found
    simp [Up.classified, context, AclConfig.context, AclConfig.rules, table, read, absent]

/-- In a table in order, the best rule for the first packet has the least precedence for one that the
rules take alike. -/
theorem RteAcl.Ordered.running_classify {version : IpVersion} {m m' : Mbuf} {t : Nat}
    (ordered : acl.Ordered ((config t).rules version)) (read : m'.ipVersion = some version)
    (alike : ∀ r ∈ (config t).rules version,
      acl.accepts r (m'.toProto version) = acl.accepts r (m.toProto version)) :
    Running (matching acl config m' t) (acl.classify ((config t).rules version) (m.toProto version)) := by
  have members : ∀ p, p ∈ matching acl config m' t ↔ ∃ r ∈ (config t).rules version,
      acl.accepts r (m.toProto version) = true ∧ acl.userdata r = p := by
    intro p
    simp only [matching, read, mem_filter, mem_map]
    constructor
    · rintro ⟨⟨r, ⟨member, takes⟩, value⟩, -⟩
      exact ⟨r, member, alike r member ▸ takes, value⟩
    · rintro ⟨r, member, takes, rfl⟩
      exact ⟨⟨r, ⟨member, alike r member ▸ takes⟩, rfl⟩, by simpa using (ordered r member).1⟩
  by_cases accepted : ∃ r ∈ (config t).rules version, acl.accepts r (m.toProto version) = true
  · obtain ⟨r, member, takes, best, priority⟩ := acl.classify_best _ _ accepted
    obtain ⟨nonzero, least⟩ := ordered r member
    rw [best]
    refine .inr ⟨⟨(members _).mpr ⟨r, member, takes, rfl⟩, fun q mem => ?_⟩, nonzero⟩
    obtain ⟨r', member', takes', rfl⟩ := (members q).mp mem
    exact least r' member' (priority r' member' takes')
  · have refused : ∀ r ∈ (config t).rules version, acl.accepts r (m.toProto version) = false := by
      simpa using accepted
    refine .inl ⟨eq_nil_iff_forall_not_mem.mpr fun q mem => ?_, acl.classify_none _ _ refused⟩
    obtain ⟨r, member, takes, -⟩ := (members q).mp mem
    exact accepted ⟨r, member, takes⟩

/-- In a safe place the value read is that of the packet's own precedences. -/
theorem Burst.SafeAt.running_value (safe : b.SafeAt acl config j) :
    (b.precedences acl config j = [] ∧ b.pointer acl config j = none) ∨
      ∃ p, b.pointer acl config j = some p ∧ Running (b.precedences acl config j) (b.value acl config j) := by
  rw [Burst.pointer]
  cases read : (b.pkts 0).ipVersion with
  | none =>
    refine .inl ⟨?_, ?_⟩
    · simp [Burst.precedences, matching, safe.version.trans read]
    · simp [classified, read]
  | some version =>
    have each : ∀ t ∈ (b.sess j).aclTableIndx.filter (· ≠ 0), ∃ c,
        classifiedIn acl config (b.pkts 0) t = some c ∧ Running (matching acl config (b.pkts j) t) c := by
      intro t mem
      obtain ⟨serves, ordered, alike⟩ := safe.tables version read t mem
      refine ⟨_, ?_, ordered.running_classify (safe.version.trans read) alike⟩
      rw [classifiedIn, if_neg (by simpa using (mem_filter.mp mem).2), serves.classified read]
    cases last : lastTable (b.sess j).aclTableIndx with
    | none =>
      have none : (b.sess j).aclTableIndx.filter (· ≠ 0) = [] := getLast?_eq_none_iff.mp last
      exact .inl ⟨by rw [Burst.precedences, none, flatMap_nil], rfl⟩
    | some t =>
      have serves := (safe.tables version read t (mem_of_getLast? last)).1
      refine .inr ⟨_, by rw [bind_some, serves.classified read]; rfl, ?_⟩
      have start : Running [] 0 := .inl ⟨rfl, rfl⟩
      rw [Burst.value, ← leastFrom_filter]
      exact running_leastFrom acl config start each

end

structure ProtoRule where
  proto : UInt8
  precedence : UInt32
  deriving DecidableEq, Repr

def ProtoRule.accepts (r : ProtoRule) (input : List UInt8) : Bool :=
  input.head? == some r.proto

def bestRule (rules : List ProtoRule) (input : List UInt8) : Option ProtoRule :=
  (rules.filter (·.accepts input)).argmin (·.precedence.toNat)

def protoAcl : RteAcl ProtoRule where
  accepts := ProtoRule.accepts
  userdata := ProtoRule.precedence
  priority r := -(r.precedence.toNat : Int)
  classify rules input := ((bestRule rules input).map ProtoRule.precedence).getD 0
  classify_none := by
    intro rules input refused
    have empty : rules.filter (·.accepts input) = [] :=
      List.filter_eq_nil_iff.mpr fun r member => by simp [refused r member]
    simp [bestRule, empty]
  classify_best := by
    intro rules input accepted
    obtain ⟨r, member, accepts⟩ := accepted
    have filtered : r ∈ rules.filter (·.accepts input) := List.mem_filter.mpr ⟨member, accepts⟩
    cases best : bestRule rules input with
    | none =>
      rw [bestRule, List.argmin_eq_none] at best
      simp [best] at filtered
    | some b =>
      obtain ⟨inRules, takes⟩ := List.mem_filter.mp (List.argmin_mem best)
      refine ⟨b, inRules, takes, rfl, fun r' member' accepts' => ?_⟩
      have kept : r' ∈ rules.filter (·.accepts input) := List.mem_filter.mpr ⟨member', accepts'⟩
      have least := List.le_of_mem_argmin kept best
      omega

def protoFrame (proto : UInt8) : Mbuf :=
  { data := List.replicate ethHdrSize 0 ++ [0x45, 0, 0, 0, 0, 0, 0, 0, 64, proto] }

def protoTables (t : Nat) : AclConfig ProtoRule :=
  if t = 1 then { acxIpv4 := some { transTable := some [⟨6, 10⟩, ⟨17, 20⟩] }, acxIpv6 := none }
  else { acxIpv4 := none, acxIpv6 := none }

def burstOf (protos : Nat → UInt8) : Burst where
  n := 2
  n_le := by decide
  pkts j := protoFrame (protos j)
  pktsMask := 3
  fdPktsMask := 3
  sess _ := { aclTableIndx := [1], pdrs := [⟨1, 10⟩, ⟨2, 20⟩] }

def tcpUdpBurst : Burst := burstOf fun j => if j = 0 then 6 else 17

end Epc.Up
