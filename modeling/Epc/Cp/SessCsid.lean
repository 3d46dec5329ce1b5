import Epc.Lib.Lists
import Epc.Up.LocalCleanup

/-! The lists of CSIDs with their nodes that the control plane keeps: `match_and_add_sess_fqcsid_t`
(`pfcp_messages/csid_cp_cleanup.c`) and `remove_csid_from_cntx` (`pfcp_messages/csid_api.c`). -/

namespace Epc.Cp.SessFqcsid

open Epc.Lib List
open Epc.Up.Cleanup (FqCsid)

def ipv4GlobalUnicast : UInt8 := 0

def isIpv4 (node : NodeAddress) : Bool :=
  node.ipType == ipv4GlobalUnicast || node.ipType == pdnTypeIpv4

/-- `COMPARE_IP_ADDRESS` gives 0. -/
def sameIpAddress (src dst : NodeAddress) : Bool :=
  if isIpv4 dst then dst.ipv4Addr == src.ipv4Addr else dst.ipv6Addr == src.ipv6Addr

structure SessCsid where
  localCsid : UInt16
  nodeAddr : NodeAddress
  deriving DecidableEq, Repr

def SessCsid.isOf (csid : UInt16) (node : NodeAddress) (place : SessCsid) : Bool :=
  place.localCsid == csid && sameIpAddress place.nodeAddr node

open SessCsid

section

/-- What is stored behind the last place, in memory that held `slot`. -/
def stored (node : NodeAddress) (csid : UInt16) (slot : NodeAddress) : SessCsid where
  localCsid := csid
  nodeAddr :=
    if isIpv4 node then { slot with ipType := pdnTypeIpv4, ipv4Addr := node.ipv4Addr }
    else { slot with ipType := pdnTypeIpv6, ipv6Addr := node.ipv6Addr }

/-- The loop over the source, with the flag, which is never set back. -/
def matchAndAddLoop (slots : Nat → NodeAddress) (node : NodeAddress) :
    Bool → List UInt16 → List SessCsid → List SessCsid
  | _, [], fqcsids => fqcsids
  | found, csid :: csids, fqcsids =>
    if found || fqcsids.any (SessCsid.isOf csid node) then matchAndAddLoop slots node true csids fqcsids
    else matchAndAddLoop slots node false csids (fqcsids ++ [stored node csid (slots fqcsids.length)])

/-- `match_and_add_sess_fqcsid_t`, with the memory behind the list. -/
def matchAndAddSessFqcsid (slots : Nat → NodeAddress) (fqcsid : FqCsid) (fqcsids : List SessCsid) :
    List SessCsid :=
  matchAndAddLoop slots fqcsid.nodeAddr false fqcsid.localCsid fqcsids

/-- The list is followed by the CSIDs of the source that it lacks, each once. -/
def Merged (fqcsid : FqCsid) (fqcsids merged : List SessCsid) : Prop :=
  ∃ added : List SessCsid, merged = fqcsids ++ added ∧ (added.map SessCsid.localCsid).Nodup ∧
    (∀ place ∈ added, isIpv4 place.nodeAddr = isIpv4 fqcsid.nodeAddr ∧
      sameIpAddress place.nodeAddr fqcsid.nodeAddr) ∧
    ∀ csid, csid ∈ added.map SessCsid.localCsid ↔
      csid ∈ fqcsid.localCsid ∧ fqcsids.any (SessCsid.isOf csid fqcsid.nodeAddr) = false

variable {slots : Nat → NodeAddress} {node : NodeAddress} {fqcsids : List SessCsid}

theorem stored_node (node : NodeAddress) (csid : UInt16) (slot : NodeAddress) :
    isIpv4 (stored node csid slot).nodeAddr = isIpv4 node ∧
      sameIpAddress (stored node csid slot).nodeAddr node := by
  cases v4 : isIpv4 node <;>
    simp only [stored, sameIpAddress, v4, if_true, Bool.false_eq_true, if_false, beq_self_eq_true] <;>
    exact ⟨rfl, trivial⟩

theorem isOf_stored (csid other : UInt16) (slot : NodeAddress) :
    isOf other node (stored node csid slot) = (other == csid) := by
  rw [isOf, (stored_node node csid slot).2, Bool.and_true, Bool.beq_comm]
  rfl

theorem matchAndAddLoop_found (csids : List UInt16) :
    matchAndAddLoop slots node true csids fqcsids = fqcsids := by
  induction csids with
  | nil => rfl
  | cons csid csids ih => rw [matchAndAddLoop, Bool.true_or, if_pos rfl, ih]

theorem matchAndAddLoop_eq (csids : List UInt16) :
    ∃ added : List SessCsid, matchAndAddLoop slots node false csids fqcsids = fqcsids ++ added ∧
      added.map localCsid =
        newUntil (fun csid => fqcsids.any (isOf csid node)) csids ∧
      ∀ place ∈ added, isIpv4 place.nodeAddr = isIpv4 node ∧ sameIpAddress place.nodeAddr node := by
  induction csids generalizing fqcsids with
  | nil => exact ⟨[], (append_nil _).symm, rfl, forall_mem_nil _⟩
  | cons csid csids ih =>
    rw [matchAndAddLoop, Bool.false_or, newUntil]
    split
    · exact ⟨[], by rw [matchAndAddLoop_found, append_nil], rfl, forall_mem_nil _⟩
    · obtain ⟨added, loop, names, nodes⟩ :=
        @ih (fqcsids ++ [stored node csid (slots fqcsids.length)])
      refine ⟨stored node csid (slots fqcsids.length) :: added, ?_, ?_, ?_⟩
      · rw [loop, append_assoc, singleton_append]
      · simp only [map_cons, names, any_append, any_cons, any_nil, isOf_stored, Bool.or_false]
        rfl
      · exact forall_mem_cons.mpr ⟨stored_node node csid _, nodes⟩

/-- The merge is right exactly if every CSID of the source is in the list or comes before the first
one that is, or that repeats an earlier one. -/
theorem merged_iff (fqcsid : FqCsid) (slots : Nat → NodeAddress) (fqcsids : List SessCsid) :
    Merged fqcsid fqcsids (matchAndAddSessFqcsid slots fqcsid fqcsids) ↔
      ∀ csid ∈ fqcsid.localCsid, fqcsids.any (SessCsid.isOf csid fqcsid.nodeAddr) ∨
        csid ∈ newUntil (fun csid => fqcsids.any (SessCsid.isOf csid fqcsid.nodeAddr))
          fqcsid.localCsid := by
  obtain ⟨added, loop, names, nodes⟩ :=
    @matchAndAddLoop_eq slots fqcsid.nodeAddr fqcsids fqcsid.localCsid
  rw [matchAndAddSessFqcsid, loop]
  constructor
  · rintro ⟨added', same, -, -, exactly⟩ csid member
    obtain rfl := append_cancel_left same
    rw [← names, exactly csid]
    cases fqcsids.any (isOf csid fqcsid.nodeAddr) <;> simp [member]
  · refine fun complete => ⟨added, rfl, names ▸ nodup_newUntil _ _, nodes, fun csid => ?_⟩
    rw [names]
    refine ⟨mem_newUntil, fun ⟨member, absent⟩ => (complete csid member).resolve_left ?_⟩
    rw [absent]
    exact Bool.false_ne_true

/-- The second CSID is found, so the third one is not added. -/
theorem third_csid_not_added :
    matchAndAddSessFqcsid (fun _ => .zero) ⟨[1, 2, 3], .v4 1⟩ [⟨2, .v4 1⟩] = [⟨2, .v4 1⟩, ⟨1, .v4 1⟩] := by
  decide

end

section

/-- A place takes over its neighbour, but for the type of the node. -/
def SessCsid.takes (place next : SessCsid) : SessCsid where
  localCsid := next.localCsid
  nodeAddr :=
    if next.nodeAddr.ipType = pdnTypeIpv4 then
      { place.nodeAddr with ipv4Addr := next.nodeAddr.ipv4Addr }
    else { place.nodeAddr with ipv6Addr := next.nodeAddr.ipv6Addr }

def shift : SessCsid → List SessCsid → List SessCsid
  | _, [] => []
  | place, next :: rest => place.takes next :: shift next rest

/-- The loop over the places; what moves to the place of a removed one is passed over. -/
def removeLoop (csid : UInt16) (node : NodeAddress) : Nat → List SessCsid → List SessCsid
  | 0, places => places
  | _ + 1, [] => []
  | count + 1, place :: rest =>
    if place.isOf csid node then
      match shift place rest with
      | [] => []
      | moved :: rest => moved :: removeLoop csid node count rest
    else place :: removeLoop csid node count rest

/-- `remove_csid_from_cntx`; none without a CSID. -/
def removeCsidFromCntx (fqcsid : FqCsid) (cntx : List SessCsid) : Option (List SessCsid) :=
  fqcsid.localCsid.getLast?.map fun csid => removeLoop csid fqcsid.nodeAddr cntx.length cntx

/-- The address of an IPv4 or of an IPv6 node. -/
def OfNode (node : NodeAddress) : Prop :=
  (∃ address ≠ 0, node = .v4 address) ∨ ∃ address ≠ NodeAddress.zeroIpv6, node = .v6 address

/-- A neighbour that a place can take over: of the same type, and not removed. -/
def Follows (removed place next : SessCsid) : Prop :=
  ¬ (place = removed ∧ next = removed) ∧ place.nodeAddr.ipType = next.nodeAddr.ipType

variable {csid : UInt16} {node : NodeAddress} {place next : SessCsid} {places rest : List SessCsid}

theorem isOf_iff (target : OfNode node) (proper : OfNode place.nodeAddr) :
    place.isOf csid node ↔ place = ⟨csid, node⟩ := by
  obtain ⟨csid', node'⟩ := place
  have same : sameIpAddress node' node ↔ node = node' := by
    rcases target with ⟨a, notZero, rfl⟩ | ⟨a, notZero, rfl⟩ <;>
      rcases proper with ⟨b, -, rfl⟩ | ⟨b, -, rfl⟩ <;>
      simp [sameIpAddress, isIpv4, NodeAddress.v4, NodeAddress.v6, NodeAddress.zero, pdnTypeIpv4,
        pdnTypeIpv6, ipv4GlobalUnicast, notZero]
  rw [isOf, Bool.and_eq_true, beq_iff_eq, same, mk.injEq, eq_comm (a := node)]

theorem takes_eq (proper : OfNode place.nodeAddr) (proper' : OfNode next.nodeAddr)
    (sameType : place.nodeAddr.ipType = next.nodeAddr.ipType) : place.takes next = next := by
  obtain ⟨csid, node⟩ := place
  obtain ⟨csid', node'⟩ := next
  rcases proper with ⟨a, -, rfl⟩ | ⟨a, -, rfl⟩ <;> rcases proper' with ⟨b, -, rfl⟩ | ⟨b, -, rfl⟩ <;>
    simp_all [takes, NodeAddress.v4, NodeAddress.v6, NodeAddress.zero, pdnTypeIpv4, pdnTypeIpv6]

theorem shift_types (place : SessCsid) (rest : List SessCsid) :
    (shift place rest).map (·.nodeAddr.ipType) <+: (place :: rest).map (·.nodeAddr.ipType) := by
  induction rest generalizing place with
  | nil => exact nil_prefix
  | cons next rest ih =>
    have kept : (place.takes next).nodeAddr.ipType = place.nodeAddr.ipType := by
      simp only [takes, apply_ite NodeAddress.ipType, ite_self]
    rw [shift, map_cons, map_cons, kept, prefix_cons_inj]
    exact ih next

theorem removeLoop_types (count : Nat) (places : List SessCsid) :
    (removeLoop csid node count places).map (·.nodeAddr.ipType) <+: places.map (·.nodeAddr.ipType) := by
  induction count generalizing places with
  | zero => exact prefix_rfl
  | succ count ih =>
    cases places with
    | nil => exact prefix_rfl
    | cons place rest =>
      rw [removeLoop]
      split
      · have types := shift_types place rest
        cases moved : shift place rest with
        | nil => exact nil_prefix
        | cons first tail =>
          rw [moved] at types
          exact (prefix_cons_inj _ |>.mpr (ih tail)).trans types
      · rw [map_cons, map_cons, prefix_cons_inj]
        exact ih rest

theorem types_behind {removed : SessCsid} (more : Nat)
    (types : (places.filter (· ≠ removed)).map (·.nodeAddr.ipType) <+:
      List.replicate (more + 1) removed.nodeAddr.ipType ++ places.map (·.nodeAddr.ipType)) :
    ∀ place ∈ places, place.nodeAddr.ipType = removed.nodeAddr.ipType := by
  induction places generalizing more with
  | nil => exact forall_mem_nil _
  | cons place places ih =>
    by_cases here : place = removed
    · subst here
      refine forall_mem_cons.mpr ⟨rfl, ih (more + 1) ?_⟩
      rw [replicate_succ', append_assoc]
      simpa using types
    · rw [filter_cons_of_pos (by simpa using here), map_cons, replicate_succ, cons_append] at types
      obtain ⟨same, rest⟩ := cons_prefix_cons.mp types
      refine forall_mem_cons.mpr ⟨same, ih more ?_⟩
      rw [map_cons, same] at rest
      rwa [replicate_succ', append_assoc]

theorem shift_eq (proper : ∀ p ∈ place :: rest, OfNode p.nodeAddr)
    (types : ∀ p ∈ rest, p.nodeAddr.ipType = place.nodeAddr.ipType) : shift place rest = rest := by
  induction rest generalizing place with
  | nil => rfl
  | cons next rest ih =>
    obtain ⟨here, later⟩ := forall_mem_cons.mp proper
    obtain ⟨same, others⟩ := forall_mem_cons.mp types
    rw [shift, takes_eq here (later next (mem_cons_self ..)) same.symm,
      ih later fun p mem => (others p mem).trans same.symm]

theorem isChain_cons_of_ne {removed : SessCsid} (other : place ≠ removed)
    (types : ∀ p ∈ place :: rest, p.nodeAddr.ipType = removed.nodeAddr.ipType) :
    (place :: rest).IsChain (Follows removed) ↔ rest.IsChain (Follows removed) := by
  cases rest with
  | nil => exact iff_of_true (.singleton _) .nil
  | cons next rest =>
    have follows : Follows removed place next :=
      ⟨fun both => other both.1, (types place (by simp)).trans (types next (by simp)).symm⟩
    rw [isChain_cons_cons, and_iff_right follows]

theorem removeLoop_eq_iff (target : OfNode node) (proper : ∀ p ∈ places, OfNode p.nodeAddr)
    (types : ∀ p ∈ places, p.nodeAddr.ipType = node.ipType) {count : Nat}
    (enough : places.length ≤ count) :
    removeLoop csid node count places = places.filter (· ≠ ⟨csid, node⟩) ↔
      places.IsChain (Follows ⟨csid, node⟩) := by
  induction count generalizing places with
  | zero =>
    obtain rfl := length_eq_zero_iff.mp (Nat.le_zero.mp enough)
    exact iff_of_true rfl .nil
  | succ count ih =>
    cases places with
    | nil => exact iff_of_true rfl .nil
    | cons place rest =>
      obtain ⟨properPlace, properRest⟩ := forall_mem_cons.mp proper
      obtain ⟨typePlace, typeRest⟩ := forall_mem_cons.mp types
      rw [length_cons, Nat.succ_le_succ_iff] at enough
      by_cases here : place = ⟨csid, node⟩
      · rw [removeLoop, if_pos ((isOf_iff target properPlace).mpr here),
          shift_eq proper fun p mem => (typeRest p mem).trans typePlace.symm]
        subst here
        cases rest with
        | nil => exact iff_of_true (by simp) (.singleton _)
        | cons next rest =>
          rw [filter_cons_of_neg (by simp), isChain_cons_cons]
          by_cases again : next = ⟨csid, node⟩
          · refine iff_of_false (fun same => ?_) fun chain => chain.1.1 ⟨rfl, again⟩
            have kept : next ∈ (next :: rest).filter (· ≠ ⟨csid, node⟩) := same ▸ mem_cons_self ..
            simp [again] at kept
          · have follows : Follows ⟨csid, node⟩ ⟨csid, node⟩ next :=
              ⟨fun both => again both.2, (typeRest next (mem_cons_self ..)).symm⟩
            rw [filter_cons_of_pos (by simpa using again), List.cons.injEq, and_iff_right rfl,
              and_iff_right follows, isChain_cons_of_ne again typeRest]
            rw [length_cons] at enough
            exact ih (forall_mem_cons.mp properRest).2 (forall_mem_cons.mp typeRest).2
              (by omega)
      · rw [removeLoop, if_neg ((isOf_iff target properPlace).not.mpr here),
          filter_cons_of_pos (by simpa using here), List.cons.injEq, and_iff_right rfl,
          isChain_cons_of_ne here types]
        exact ih properRest typeRest enough

theorem removeLoop_filter_iff (target : OfNode node) (proper : ∀ p ∈ places, OfNode p.nodeAddr)
    {count : Nat} (enough : places.length ≤ count) :
    removeLoop csid node count places = places.filter (· ≠ ⟨csid, node⟩) ↔
      (places.dropWhile (· ≠ ⟨csid, node⟩)).IsChain (Follows ⟨csid, node⟩) := by
  induction places generalizing count with
  | nil => cases count <;> exact iff_of_true rfl .nil
  | cons place rest ih =>
    obtain ⟨properPlace, properRest⟩ := forall_mem_cons.mp proper
    by_cases here : place = ⟨csid, node⟩
    · subst here
      rw [dropWhile_cons_of_neg (by simp)]
      have eqIff (types : ∀ p ∈ rest, p.nodeAddr.ipType = node.ipType) :=
        @removeLoop_eq_iff csid node _ target proper (forall_mem_cons.mpr ⟨rfl, types⟩) _ enough
      -- either side gives the nodes behind the place its type
      refine ⟨fun same => (eqIff (@types_behind rest ⟨csid, node⟩ 0 ?_)).mp same,
        fun chain => (eqIff fun p mem => ?_).mpr chain⟩
      · have types := same ▸ @removeLoop_types csid node count (⟨csid, node⟩ :: rest)
        rwa [filter_cons_of_neg (by simp)] at types
      · have types := (chain.imp fun _ _ follows => follows.2).pairwise
        exact ((pairwise_cons.mp types).1 p mem).symm
    · rw [length_cons] at enough
      obtain ⟨count, rfl⟩ : ∃ more, count = more + 1 := ⟨count - 1, by omega⟩
      rw [removeLoop, if_neg ((isOf_iff target properPlace).not.mpr here),
        filter_cons_of_pos (by simpa using here),
        dropWhile_cons_of_pos (by simpa using here), List.cons.injEq, and_iff_right rfl]
      exact ih properRest (by omega)

/-- From the first removed place on, every place can take over the next one exactly if just the
places of the last CSID and its node are removed and the others stay as they are. -/
theorem removeCsidFromCntx_iff (fqcsid : FqCsid) (cntx : List SessCsid)
    (target : OfNode fqcsid.nodeAddr) (proper : ∀ place ∈ cntx, OfNode place.nodeAddr)
    (last : fqcsid.localCsid.getLast? = some csid) :
    removeCsidFromCntx fqcsid cntx = some (cntx.filter (· ≠ ⟨csid, fqcsid.nodeAddr⟩)) ↔
      (cntx.dropWhile (· ≠ ⟨csid, fqcsid.nodeAddr⟩)).IsChain (Follows ⟨csid, fqcsid.nodeAddr⟩) := by
  rw [removeCsidFromCntx, last, Option.map_some, Option.some_inj]
  exact removeLoop_filter_iff target proper le_rfl

theorem removeCsidFromCntx_middle :
    removeCsidFromCntx ⟨[7, 5], .v4 1⟩ [⟨5, .v4 2⟩, ⟨5, .v4 1⟩, ⟨7, .v4 1⟩] =
      some [⟨5, .v4 2⟩, ⟨7, .v4 1⟩] := by
  have proper : ∀ a : UInt32, a ≠ 0 → OfNode (.v4 a) := fun a notZero => .inl ⟨a, notZero, rfl⟩
  refine (removeCsidFromCntx_iff ⟨[7, 5], .v4 1⟩ [⟨5, .v4 2⟩, ⟨5, .v4 1⟩, ⟨7, .v4 1⟩]
    (proper 1 (by decide)) (by simp [proper]) rfl).mpr ?_
  exact .cons_cons ⟨by decide, rfl⟩ (.singleton _)

/-- The second of two equal places stays, and a place that moves keeps its type. -/
theorem removed_csid_stays :
    removeCsidFromCntx ⟨[5], .v4 1⟩ [⟨5, .v4 1⟩, ⟨5, .v4 1⟩] = some [⟨5, .v4 1⟩] ∧
      removeCsidFromCntx ⟨[5], .v4 1⟩ [⟨5, .v4 1⟩, ⟨7, .v6 (.replicate 16 1)⟩] ≠
        some [⟨7, .v6 (.replicate 16 1)⟩] := by
  decide

end

end Epc.Cp.SessFqcsid
