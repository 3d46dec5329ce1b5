import Epc.Up.Proof.TeidRange

/-! The file of the TEID ranges against the lists in memory: what a process that is started again takes
over. -/

namespace Epc.Up

open Epc.Lib Epc.Lib.Text Epc.Lib.Inet Epc.Lib.Run List FileRecord TeidriInfo NodeAddress

section

def octetPairs (addr : Ipv6Address) : List (UInt8 × UInt8) :=
  (List.range 8).map fun i => (addr.toList.getD (2 * i) 0, addr.toList.getD (2 * i + 1) 0)

section

variable (addr : Ipv6Address)

theorem flatMap_octetPairs :
    ((octetPairs addr).flatMap fun pair => [pair.1, pair.2]) = addr.toList := by
  have length : addr.toList.length = 16 := by simp
  refine ext_getElem (by simp [octetPairs, List.range, List.range.loop]) fun i _ bound => ?_
  rw [length] at bound
  interval_cases i <;> simp [octetPairs, List.range, List.range.loop]

theorem printIpv6_eq :
    printIpv6 addr = [':'].intercalate ((octetPairs addr).map fun pair => hexGroup pair.1 pair.2) := by
  rw [printIpv6, octetPairs, map_map]
  rfl

theorem head_printIpv6 : (printIpv6 addr).head? = some ((addr.get 0).toNat / 16).digitChar := by
  have first : addr.toList.getD 0 0 = addr.get 0 := by
    simp [Vector.get]
  rw [← first]
  simp [printIpv6, List.range, List.range.loop, List.intercalate, hexByte]

theorem inetPton6_printIpv6 : inetPton6 (printIpv6 addr) = some addr.toList := by
  have scanned := @scanIpv6_hexGroups [] (printIpv6 addr) (octetPairs addr)
    (by simp [octetPairs]) (by simp [octetPairs])
  rw [← printIpv6_eq, flatMap_octetPairs, nil_append] at scanned
  have head := head_printIpv6 addr
  cases text : printIpv6 addr with
  | nil =>
    rw [text] at head
    cases head
  | cons c cs =>
    rw [text, head?_cons, Option.some.injEq] at head
    have small : (addr.get 0).toNat / 16 < 16 := by
      have bound := (addr.get 0).toNat_lt
      omega
    have digit : c ≠ ':' := by
      rintro rfl
      have value := digitVal_digitChar small
      rw [← head] at value
      cases value
    rw [text] at scanned
    rw [inetPton6]
    · exact scanned
    · simp
    · exact fun rest same => digit (List.cons.inj same).1

theorem comma_notMem_printIpv6 : ',' ∉ printIpv6 addr := by
  simp [printIpv6, hexByte, List.range, List.range.loop, List.intercalate,
    (digitChar_ne (c := ',') (by decide) _).symm]

end

theorem ofInt_atoi_uint32 (n : UInt32) : UInt32.ofInt (atoi (' ' :: decimal n.toNat)) = n := by
  have bound := n.toNat_lt
  have read : strtol10 ([' '] ++ Nat.toDigits 10 n.toNat ++ []) = n.toNat :=
    strtol10_toDigits (by simp [isSpace]) (by omega) (by simp)
  rw [append_nil, singleton_append] at read
  have same : ((n.toNat : Int).bmod (2 ^ 32) % (2 ^ 32 : Nat)).toNat = n.toNat := by
    rw [Int.bmod_emod]
    omega
  rw [atoi, decimal, read, UInt32.ofInt]
  exact (congrArg UInt32.ofNat same).trans (UInt32.ofNat_toNat)

variable (blank : Bool) (teidRange : UInt8) (ipv4Addr dotted : UInt32)

theorem strtok_ofPrint (ipv6Addr : Ipv6Address) :
    ∃ rest, strtok (fun c => c == ',')
        ((ofPrint blank teidRange ipv6Addr ipv4Addr dotted).rest ++ ['\n']) =
          some (printIpv6 ipv6Addr, rest) ∧
      ∃ rest', strtok (fun c => c == ',') rest = some (' ' :: decimal ipv4Addr.toNat, rest') := by
  have shape : (ofPrint blank teidRange ipv6Addr ipv4Addr dotted).rest ++ ['\n'] =
      printIpv6 ipv6Addr ++ ',' :: ((' ' :: decimal ipv4Addr.toNat) ++ ',' ::
        ((if blank then " ".toList else []) ++ printIpv4 dotted ++ ", \n".toList)) := by
    simp [ofPrint]
  have nonempty : printIpv6 ipv6Addr ≠ [] := by
    intro empty
    have length := length_printIpv6 ipv6Addr
    rw [empty] at length
    cases length
  have inside : ∀ c ∈ printIpv6 ipv6Addr, (c == ',') = false := by
    intro c mem
    refine beq_eq_false_iff_ne.mpr ?_
    rintro rfl
    exact comma_notMem_printIpv6 ipv6Addr mem
  have number : ∀ c ∈ ' ' :: decimal ipv4Addr.toNat, (c == ',') = false := by
    intro c mem
    rcases mem_cons.mp mem with rfl | digit
    · decide
    · exact beq_eq_false_iff_ne.mpr (ne_of_mem_decimal (by decide) digit)
  rw [shape]
  exact ⟨_, strtok_append nonempty inside (by decide) _, _,
    strtok_append (by simp) number (by decide) _⟩

theorem info_ofPrint_v6 {ipv6Addr : Ipv6Address} (large : 16 ≤ (ipv6Addr.get 0).toNat) :
    (ofPrint blank teidRange ipv6Addr ipv4Addr dotted).info =
      { nodeAddr := v6 ipv6Addr, teidRange } := by
  have range := (ofPrint blank teidRange ipv6Addr ipv4Addr dotted).info_teidRange
  obtain ⟨rest, token, -⟩ := strtok_ofPrint blank teidRange ipv4Addr dotted ipv6Addr
  have digit : ((ipv6Addr.get 0).toNat / 16).digitChar ≠ '0' := by
    rw [Ne, Nat.digitChar_eq_zero]
    omega
  have same : (Vector.ofFn fun i : Fin 16 => ipv6Addr.toList.getD i 0) = ipv6Addr := by
    ext i bound
    simp
  rw [info, readRecord] at range ⊢
  simp only [token, head_printIpv6, Option.some.injEq, digit, if_false, inetPton6_printIpv6,
    Option.getD_some, same] at range ⊢
  rw [range]
  rfl

theorem info_ofPrint_v4 {ipv6Addr : Ipv6Address} (small : (ipv6Addr.get 0).toNat < 16) :
    (ofPrint blank teidRange ipv6Addr ipv4Addr dotted).info =
      { nodeAddr := v4 ipv4Addr, teidRange } := by
  have range := (ofPrint blank teidRange ipv6Addr ipv4Addr dotted).info_teidRange
  obtain ⟨rest, token, rest', number⟩ := strtok_ofPrint blank teidRange ipv4Addr dotted ipv6Addr
  have digit : ((ipv6Addr.get 0).toNat / 16).digitChar = '0' := by
    rw [Nat.digitChar_eq_zero]
    omega
  rw [info, readRecord] at range ⊢
  simp only [token, number, head_printIpv6, digit, if_true, ofInt_atoi_uint32] at range ⊢
  rw [range]
  rfl

end

section

def ownAddress (node : NodeAddress) : NodeAddress :=
  if node.ipType = pdnTypeIpv4 then NodeAddress.v4 node.ipv4Addr
  else if node.ipType = pdnTypeIpv6 then NodeAddress.v6 node.ipv6Addr
  else NodeAddress.zero

def TeidriInfo.pair (info : TeidriInfo) : NodeAddress × UInt8 :=
  (ownAddress info.nodeAddr, info.teidRange)

/-- A control plane's address: a non-zero IPv4 address or a global IPv6 address. -/
inductive CpNode : NodeAddress → Prop
  | v4 {address : UInt32} : address ≠ 0 → CpNode (NodeAddress.v4 address)
  | v6 {address : Ipv6Address} : (address.get 0).toNat / 32 = 1 → CpNode (NodeAddress.v6 address)

variable {node : NodeAddress}

theorem CpNode.ownAddress_eq (cp : CpNode node) : ownAddress node = node := by
  cases cp <;> rfl

theorem CpNode.not_null (cp : CpNode node) : isNullAddress node = false := by
  cases cp with
  | v4 nonzero => simp [isNullAddress, NodeAddress.v4, nonzero]
  | v6 globally =>
    have first : ∀ octet : UInt8, octet.toNat / 32 = 1 → octet ≠ 0 := by
      rintro octet high rfl
      cases high
    simp [isNullAddress, NodeAddress.v6, zero, first _ globally]

theorem CpNode.eq_of_sameAddress {info : TeidriInfo} (cp : CpNode node)
    (stored : CpNode info.nodeAddr) (same : sameAddress node info = true) : info.nodeAddr = node := by
  obtain ⟨address, range⟩ := info
  dsimp only at stored same ⊢
  cases cp with
  | v4 nonzero =>
    cases stored with
    | v4 _ =>
      simp only [sameAddress, NodeAddress.v4, NodeAddress.zero] at same
      simp_all [NodeAddress.v4, pdnTypeIpv4, pdnTypeIpv6]
    | v6 _ =>
      simp only [sameAddress, NodeAddress.v4, NodeAddress.v6, NodeAddress.zero] at same
      simp_all [pdnTypeIpv4, pdnTypeIpv6]
  | v6 globally =>
    cases stored with
    | v4 _ =>
      simp only [sameAddress, NodeAddress.v4, NodeAddress.v6, NodeAddress.zero] at same
      have zero : zeroIpv6.get 0 = 0 := by decide
      simp only [pdnTypeIpv4, pdnTypeIpv6] at same
      simp at same
      rw [← same, zero] at globally
      cases globally
    | v6 _ =>
      simp only [sameAddress, NodeAddress.v6, NodeAddress.zero] at same
      simp_all [NodeAddress.v6, pdnTypeIpv4, pdnTypeIpv6]

theorem CpNode.info_ofPrint (cp : CpNode node) (blank : Bool) (teidRange : UInt8) (dotted : UInt32) :
    (ofPrint blank teidRange node.ipv6Addr node.ipv4Addr dotted).info =
      { nodeAddr := node, teidRange } := by
  cases cp with
  | v4 _ =>
    have zero : (zeroIpv6.get 0).toNat < 16 := by decide
    exact info_ofPrint_v4 _ _ _ _ zero
  | @v6 address globally =>
    refine info_ofPrint_v6 _ _ _ _ ?_
    change 16 ≤ (address.get 0).toNat
    omega

theorem pair_ofPrint {info : TeidriInfo} (cp : CpNode (ownAddress info.nodeAddr)) (blank : Bool)
    {ipv4Addr : UInt32} (dotted : UInt32) (readable : info.nodeAddr.ipType = pdnTypeIpv4 →
      (info.nodeAddr.ipv6Addr.get 0).toNat < 16 ∧ ipv4Addr = info.nodeAddr.ipv4Addr) :
    (ofPrint blank info.teidRange info.nodeAddr.ipv6Addr ipv4Addr dotted).info.pair =
      info.pair := by
  unfold ownAddress at cp
  split at cp
  · rename_i isV4
    obtain ⟨small, rfl⟩ := readable isV4
    rw [info_ofPrint_v4 _ _ _ _ small, pair, pair, ownAddress, ownAddress, if_pos isV4]
    rfl
  · rename_i notV4
    split at cp
    · rename_i isV6
      generalize same : NodeAddress.v6 info.nodeAddr.ipv6Addr = node at cp
      cases cp with
      | v4 _ => cases same
      | v6 globally =>
        have address := congrArg ipv6Addr same
        simp only [NodeAddress.v6] at address
        rw [← address] at globally
        rw [info_ofPrint_v6 _ _ _ _ (by omega), pair, pair, ownAddress,
          ownAddress, if_neg notV4, if_pos isV6]
        rfl
    · cases cp

theorem CpNode.pair_newEntry (cp : CpNode node) (teidRange : UInt8)
    (garbage : NodeAddress) : (newEntry teidRange node garbage).pair = (node, teidRange) := by
  cases cp <;> rfl

theorem ownAddress_readRecord (token rest : List Char) :
    ownAddress (readRecord token rest).nodeAddr = (readRecord token rest).nodeAddr := by
  unfold readRecord
  dsimp only
  split
  · rfl
  · split
    · dsimp only
      split <;> rfl
    · rfl

end

/-- The ranges in use are distinct, the entries are those of control planes, and the file has a
record of each. -/
structure FileInv (teidriVal : Fin 8) (s : TeidriState) : Prop where
  value : s.teidriVal = teidriVal
  distinct : (ranges s.freeList ++ (ranges s.blockedList ++ ranges s.allocatedList)).Nodup
  valid : ∀ t ∈ ranges s.freeList ++ (ranges s.blockedList ++ ranges s.allocatedList),
    t < maxTeid teidriVal
  blocked : ∀ info ∈ s.blockedList, CpNode info.nodeAddr
  allocated : ∀ info ∈ s.allocatedList, CpNode (ownAddress info.nodeAddr)
  recorded : ∃ records, s.file = some (fileText teidriVal records) ∧
    ((records.map FileRecord.info).map TeidriInfo.pair).Perm
      ((s.allocatedList ++ s.blockedList).map TeidriInfo.pair)

/-- A process started on the file has the lists' nodes and ranges on its blocked list and the other
ranges on its free list. -/
structure TeidriState.FileAgrees (s : TeidriState) : Prop where
  pairs : ((s.start s.teidriVal).blockedList.map TeidriInfo.pair).Perm
    ((s.allocatedList ++ s.blockedList).map TeidriInfo.pair)
  free : ranges (s.start s.teidriVal).freeList =
    (List.range (2 ^ (s.teidriVal : Nat))).filter fun t => t ∉ ranges (s.allocatedList ++ s.blockedList)

theorem ranges_perm_of_pairs {l l' : List TeidriInfo}
    (same : (l.map TeidriInfo.pair).Perm (l'.map TeidriInfo.pair)) : (ranges l).Perm (ranges l') := by
  have mapped := same.map fun pair => pair.2.toNat
  rw [map_map, map_map] at mapped
  exact mapped

namespace FileInv

variable {r : Fin 8} {s : TeidriState} (inv : FileInv r s)

include inv

theorem start_eq : ∃ records : List FileRecord, s.file = some (fileText r records) ∧
    ((records.map info).map pair).Perm
      ((s.allocatedList ++ s.blockedList).map pair) ∧
    (s.start r).teidriVal = r ∧ (s.start r).file = s.file ∧ (s.start r).allocatedList = [] ∧
    (s.start r).blockedList = records.map info ∧
    ranges (s.start r).freeList =
      (List.range (maxTeid r)).filter fun t => t ∉ ranges (records.map info) := by
  obtain ⟨records, file, same⟩ := inv.recorded
  have inUse := ranges_perm_of_pairs same
  rw [ranges_append, ranges_infos] at inUse
  have swapped := inUse.trans perm_append_comm
  have nodup := swapped.nodup_iff.mpr (nodup_append.mp inv.distinct).2.1
  have valid : ∀ t ∈ records.map (fun record => record.teidRange.toNat), t < maxTeid r :=
    fun t mem => inv.valid t (mem_append_right _ (swapped.mem_iff.mp mem))
  have few := length_records_le nodup valid
  have read : s.start r =
      { file := s.file
        teidriVal := r
        freeList := createTeidRangeFreeList (records.map info) [] r
          (1 + UInt8.ofNat records.length)
        blockedList := records.map info
        allocatedList := [] } := by
    rw [TeidriState.start, TeidriState.readTeidriData, file]
    dsimp only [TeidriState.initial]
    rw [readLines_fileText_same r records (by omega)]
    rfl
  refine ⟨records, file, same, ?_⟩
  rw [read]
  exact ⟨rfl, rfl, rfl, rfl, ranges_createTeidRangeFreeList _ (length_infos_le few)⟩

theorem agrees (configured : r ≠ 0) : s.FileAgrees := by
  obtain ⟨records, -, same, -, -, -, blocked, free⟩ := inv.start_eq
  have number : ∀ v : Fin 8, v ≠ 0 → maxTeid v = 2 ^ (v : Nat) := by decide
  constructor
  · rw [inv.value, blocked]
    exact same
  · rw [inv.value, free, number r configured]
    refine filter_congr fun t _ => ?_
    rw [decide_eq_decide, not_iff_not]
    exact (ranges_perm_of_pairs same).mem_iff

theorem cpNode {info : TeidriInfo} (mem : info ∈ s.allocatedList ++ s.blockedList) :
    CpNode (ownAddress info.nodeAddr) := by
  rcases mem_append.mp mem with allocated | blocked
  · exact inv.allocated info allocated
  · rw [(inv.blocked info blocked).ownAddress_eq]
    exact inv.blocked info blocked

theorem start : FileInv r (s.start r) := by
  obtain ⟨records, file, same, value, sameFile, allocated, blocked, free⟩ := inv.start_eq
  have inUse := ranges_perm_of_pairs same
  rw [ranges_append] at inUse
  have swapped := inUse.trans perm_append_comm
  refine ⟨value, ?_, ?_, ?_, ?_, records, sameFile.trans file, ?_⟩
  · rw [allocated, blocked, free, ranges_nil, append_nil]
    refine nodup_append.mpr ⟨nodup_range.filter _,
      swapped.nodup_iff.mpr (nodup_append.mp inv.distinct).2.1, ?_⟩
    rintro t fresh u used rfl
    simp [used] at fresh
  · rw [allocated, blocked, free, ranges_nil, append_nil]
    intro t mem
    rcases mem_append.mp mem with fresh | used
    · exact mem_range.mp (mem_filter.mp fresh).1
    · exact inv.valid t (mem_append_right _ (swapped.mem_iff.mp used))
  · rw [blocked]
    intro info mem
    obtain ⟨stored, inList, equal⟩ := mem_map.mp (same.mem_iff.mp (mem_map_of_mem mem))
    have address : ownAddress stored.nodeAddr = ownAddress info.nodeAddr := congrArg Prod.fst equal
    have cp := inv.cpNode inList
    obtain ⟨record, -, rfl⟩ := mem_map.mp mem
    rw [address, FileRecord.info, ownAddress_readRecord] at cp
    exact cp
  · rw [allocated]
    exact forall_mem_nil _
  · rw [allocated, blocked, nil_append]

variable {node : NodeAddress}

theorem allocated_newEntry (cp : CpNode node) (t : UInt8) (garbage : NodeAddress) :
    ∀ info ∈ s.allocatedList ++ [newEntry t node garbage], CpNode (ownAddress info.nodeAddr) := by
  refine forall_mem_append.mpr ⟨inv.allocated, forall_mem_singleton.mpr ?_⟩
  have own : ownAddress (newEntry t node garbage).nodeAddr = node :=
    congrArg Prod.fst (cp.pair_newEntry t garbage)
  rwa [own]

theorem addFromBlocked (cp : CpNode node) {info : TeidriInfo}
    (found : getTeidriInfo s.blockedList node = some info) (garbage : NodeAddress) :
    FileInv r (s.addFromBlocked info.teidRange node garbage) := by
  unfold TeidriState.addFromBlocked
  rw [if_neg (by simp [cp.not_null])]
  cases getTeidriInfo s.allocatedList node with
  | some _ => exact inv
  | none =>
    have mem := mem_of_find?_eq_some found
    have address := cp.eq_of_sameAddress (inv.blocked info mem) (find?_some found)
    have distinctBlocked : (ranges s.blockedList).Nodup :=
      (nodup_append.mp (nodup_append.mp inv.distinct).2.1).1
    have taken : s.blockedList.Perm
        (info :: deleteEntryFromListForTeidRange s.blockedList info.teidRange) := by
      refine perm_cons_eraseP_of_find? ?_
      have some : (s.blockedList.find? fun other => other.teidRange == info.teidRange).isSome :=
        find?_isSome.mpr ⟨info, mem, beq_self_eq_true info.teidRange⟩
      obtain ⟨other, first⟩ := Option.isSome_iff_exists.mp some
      have equal := find?_some first
      have same := congrArg UInt8.toNat (beq_iff_eq.mp equal)
      rw [first, inj_on_of_nodup_map distinctBlocked (mem_of_find?_eq_some first) mem
        same]
    have newPair : (newEntry info.teidRange node garbage).pair = info.pair := by
      rw [cp.pair_newEntry, pair, address, cp.ownAddress_eq]
    have pairs : ((s.allocatedList ++ [newEntry info.teidRange node garbage] ++
        deleteEntryFromListForTeidRange s.blockedList info.teidRange).map pair).Perm
        ((s.allocatedList ++ s.blockedList).map pair) := by
      rw [append_assoc, map_append, singleton_append, map_cons, newPair, map_append]
      exact (taken.map pair).symm.append_left _
    have inUse := ranges_perm_of_pairs pairs
    rw [ranges_append, ranges_append _ s.blockedList] at inUse
    have swapped := (perm_append_comm.trans inUse).trans perm_append_comm
    have all := swapped.append_left (ranges s.freeList)
    refine ⟨inv.value, all.nodup_iff.mpr inv.distinct,
      fun t used => inv.valid t (all.mem_iff.mp used),
      fun other left => inv.blocked other (mem_of_mem_eraseP left), inv.allocated_newEntry cp _ _, ?_⟩
    obtain ⟨records, file, same⟩ := inv.recorded
    exact ⟨records, file, same.trans pairs.symm⟩

theorem addFromFree (cp : CpNode node) (unknown : getTeidriInfo s.allocatedList node = none) {t : UInt8}
    (free : t.toNat ∈ ranges s.freeList) (garbage : NodeAddress) :
    FileInv r (s.addFromFree t node garbage) := by
  unfold TeidriState.addFromFree
  rw [if_neg (by simp [cp.not_null])]
  obtain ⟨records, file, same⟩ := inv.recorded
  have all : (ranges (deleteEntryFromListForTeidRange s.freeList t) ++
      (ranges s.blockedList ++ ranges (s.allocatedList ++ [newEntry t node garbage]))).Perm
      (ranges s.freeList ++ (ranges s.blockedList ++ ranges s.allocatedList)) := by
    rw [ranges_append]
    exact (TeidriState.perm_moved (TeidriState.ranges_deleteEntry free) _ _).1
  simp only [unknown]
  refine ⟨inv.value, all.nodup_iff.mpr inv.distinct,
    fun u used => inv.valid u (all.mem_iff.mp used), inv.blocked, inv.allocated_newEntry cp _ _,
    records ++ [ofPrint true t node.ipv6Addr node.ipv4Addr node.ipv4Addr], ?_, ?_⟩
  · simp [file, fileText, text_ofPrint]
  · rw [map_append, map_append, map_singleton, map_singleton, cp.info_ofPrint, pair,
      cp.ownAddress_eq, append_assoc, map_append, singleton_append, map_cons, cp.pair_newEntry]
    rw [map_append] at same
    refine (same.append_right _).trans ?_
    rw [append_assoc]
    exact (perm_append_singleton _ _).append_left _

omit inv in
theorem pairs_reprinted {list : List TeidriInfo} (cps : ∀ info ∈ list, CpNode (ownAddress info.nodeAddr))
    {ipv4Addr : TeidriInfo → UInt32} (readable : ∀ info ∈ list, info.nodeAddr.ipType = pdnTypeIpv4 →
      (info.nodeAddr.ipv6Addr.get 0).toNat < 16 ∧ ipv4Addr info = info.nodeAddr.ipv4Addr) :
    (((TeidriState.reprinted list ipv4Addr).map FileRecord.info).map pair).Perm
      (list.map pair) := by
  rw [TeidriState.reprinted, map_map, map_map]
  refine List.Perm.of_eq (map_congr_left fun info mem => ?_)
  exact pair_ofPrint (cps info mem) _ _ (readable info mem)

theorem flush (readable : ∀ info ∈ s.allocatedList, info.nodeAddr.ipType = pdnTypeIpv4 →
    (info.nodeAddr.ipv6Addr.get 0).toNat < 16) : FileInv r s.flushInactiveTeidriData := by
  unfold TeidriState.flushInactiveTeidriData
  split
  · exact inv
  · have kept : (ranges (if s.freeList = [] then [] else s.freeList ++ s.blockedList) ++
        ranges s.allocatedList).Sublist
        (ranges s.freeList ++ (ranges s.blockedList ++ ranges s.allocatedList)) := by
      split
      · exact (sublist_append_right _ _).trans (sublist_append_right _ _)
      · rw [ranges_append, append_assoc]
    refine ⟨inv.value, kept.nodup inv.distinct, fun t used => inv.valid t (kept.mem used),
      forall_mem_nil _, inv.allocated, _,
      (congrArg some (TeidriState.fileText_reprinted ..)).trans (by rw [inv.value]), ?_⟩
    rw [append_nil]
    exact pairs_reprinted inv.allocated fun info mem isV4 => ⟨readable info mem isV4, rfl⟩

theorem deleteNode (agree : s.allocatedList.find? (fun info => compareIpAddress info.nodeAddr node) =
      getTeidriInfo s.allocatedList node) (noBlocked : s.blockedList = [])
    (others : ∀ info ∈ deleteEntryFromTeidriListForIp node s.allocatedList,
      info.nodeAddr.ipType = pdnTypeIpv6) (garbage : NodeAddress) :
    FileInv r (s.deleteTeidriNodeEntry node garbage) := by
  refine TeidriState.deleteTeidriNodeEntry_cases garbage inv agree fun info moved => ?_
  have all : (ranges (s.freeList ++ [newEntry info.teidRange node garbage]) ++
      (ranges s.blockedList ++ ranges (deleteEntryFromTeidriListForIp node s.allocatedList))).Perm
      (ranges s.freeList ++ (ranges s.blockedList ++ ranges s.allocatedList)) := by
    rw [ranges_append]
    exact (TeidriState.perm_moved moved _ _).2
  have cps : ∀ other ∈ deleteEntryFromTeidriListForIp node s.allocatedList,
      CpNode (ownAddress other.nodeAddr) :=
    fun other left => inv.allocated other (mem_of_mem_eraseP left)
  refine ⟨inv.value, all.nodup_iff.mpr inv.distinct,
    fun t used => inv.valid t (all.mem_iff.mp used), inv.blocked, cps, _,
    (congrArg some (TeidriState.fileText_reprinted ..)).trans (by rw [inv.value]), ?_⟩
  rw [noBlocked, append_nil]
  refine pairs_reprinted cps fun other left isV4 => ?_
  rw [others other left] at isV4
  cases isV4

theorem associationSetup (cp : CpNode node) (garbage : NodeAddress) :
    FileInv r (s.associationSetup node garbage) :=
  TeidriState.associationSetup_cases node garbage inv
    (fun _ blocked => inv.addFromBlocked cp blocked garbage)
    fun _ _ free allocated => inv.addFromFree cp allocated free garbage

end FileInv

/-- The events of one configuration, with the addresses of control planes. -/
def TeidriEvent.Of (teidriVal : Fin 8) : TeidriEvent → Prop
  | .start value => value = teidriVal
  | .associationSetup node _ => CpNode node
  | .deleteNode node _ => CpNode node
  | .flush => True

/-- A flush meets IPv4 entries whose unset IPv6 address starts with a zero digit; a deletion finds
no entry, or the one it takes out, with nothing on the blocked list and no IPv4 entry left. -/
def TeidriState.FileOk (s : TeidriState) : TeidriEvent → Prop
  | .start _ => True
  | .associationSetup _ _ => True
  | .deleteNode node _ =>
    getTeidriInfo s.allocatedList node = none ∨
      (s.allocatedList.find? (fun info => compareIpAddress info.nodeAddr node) =
          getTeidriInfo s.allocatedList node ∧ s.blockedList = [] ∧
        ∀ info ∈ deleteEntryFromTeidriListForIp node s.allocatedList,
          info.nodeAddr.ipType = pdnTypeIpv6)
  | .flush => ∀ info ∈ s.allocatedList, info.nodeAddr.ipType = pdnTypeIpv4 →
      (info.nodeAddr.ipv6Addr.get 0).toNat < 16

instance (s : TeidriState) : ∀ event, Decidable (s.FileOk event)
  | .start _ => isTrue trivial
  | .associationSetup _ _ => isTrue trivial
  | .deleteNode _ _ => inferInstanceAs (Decidable (_ ∨ _))
  | .flush => inferInstanceAs (Decidable (∀ info ∈ _, _ → _))

theorem FileInv.step {r : Fin 8} {s : TeidriState} (inv : FileInv r s) {event : TeidriEvent}
    (of : event.Of r) (ok : s.FileOk event) : FileInv r (s.step event) := by
  cases event with
  | start value =>
    obtain rfl : value = r := of
    exact inv.start
  | associationSetup node garbage => exact inv.associationSetup of garbage
  | deleteNode node garbage =>
    rcases ok with unknown | ⟨agree, noBlocked, others⟩
    · have unchanged : s.deleteTeidriNodeEntry node garbage = s := by
        rw [TeidriState.deleteTeidriNodeEntry, unknown]
        exact ite_self _
      rw [TeidriState.step, unchanged]
      exact inv
    · exact inv.deleteNode agree noBlocked others garbage
  | flush => exact inv.flush ok

theorem fileInv_fresh (r : Fin 8) : FileInv r (TeidriState.initial.start r) := by
  have shared := @createTeidRangeFreeList_perm r [] 0 nodup_nil
    (forall_mem_nil _) (Nat.zero_le _)
  refine ⟨rfl, ?_, ?_, forall_mem_nil _, forall_mem_nil _, [], ?_, List.Perm.refl _⟩
  · exact shared.nodup_iff.mpr nodup_range
  · exact fun t mem => mem_range.mp (shared.mem_iff.mp mem)
  · simp [TeidriState.start, TeidriState.readTeidriData, TeidriState.initial, fileText]

/-- In a run of admitted steps on a fresh file, restarts included, the file agrees with the lists in
every state. -/
theorem teidriRun_fileAgrees (r : Fin 8) (configured : r ≠ 0) (events : List TeidriEvent)
    (of : ∀ event ∈ events, event.Of r)
    (guarded : Guarded TeidriState.step TeidriState.FileOk (TeidriState.initial.start r) events)
    (reached : List TeidriEvent) (isPrefix : reached <+: events) :
    (run TeidriState.step (TeidriState.initial.start r) reached).FileAgrees := by
  have all := guarded.and_forall of
  have admitted := all.of_prefix isPrefix
  have inv := admitted.invariant (FileInv r) (fileInv_fresh r)
    fun _ _ inv ok => inv.step ok.1 ok.2
  exact inv.agrees configured

def globalNode (last : UInt8) : NodeAddress :=
  NodeAddress.v6 #v[0x20, 0x01, 0, 0, 0, 0, 0, 0, 0, 0, 0, 0, 0, 0, 0, last]

def fileRun : List TeidriEvent :=
  [.associationSetup (NodeAddress.v4 1) NodeAddress.zero,
    .associationSetup (globalNode 1) NodeAddress.zero, .start 2,
    .associationSetup (globalNode 1) NodeAddress.zero, .flush,
    .associationSetup (globalNode 2) NodeAddress.zero, .deleteNode (globalNode 1) NodeAddress.zero]

theorem teidriRun_fileAgrees_fileRun :
    (∀ event ∈ fileRun, event.Of 2) ∧
      Guarded TeidriState.step TeidriState.FileOk (TeidriState.initial.start 2) fileRun ∧
      (run TeidriState.step (TeidriState.initial.start 2) fileRun).FileAgrees := by
  have globally (last : UInt8) : CpNode (globalNode last) := .v6 (by simp [Vector.get])
  have of : ∀ event ∈ fileRun, event.Of 2 := by
    simp only [fileRun, forall_mem_cons, TeidriEvent.Of, globally, true_and]
    exact ⟨.v4 (by decide), forall_mem_nil _⟩
  have guarded : Guarded TeidriState.step TeidriState.FileOk (TeidriState.initial.start 2) fileRun := by
    decide +kernel
  exact ⟨of, guarded, teidriRun_fileAgrees 2 (by decide) fileRun of guarded fileRun prefix_rfl⟩

def leftRun : List TeidriEvent :=
  [.associationSetup (NodeAddress.v4 1) NodeAddress.zero,
    .associationSetup (NodeAddress.v4 2) NodeAddress.zero,
    .deleteNode (NodeAddress.v4 1) NodeAddress.zero]

theorem leftRun_not_fileAgrees :
    (∀ event ∈ leftRun, event.Of 1) ∧
      (run TeidriState.step (TeidriState.initial.start 1) leftRun).blockedList = [] ∧
      (run TeidriState.step (TeidriState.initial.start 1) leftRun).allocatedList.map
        TeidriInfo.pair = [(NodeAddress.v4 2, 1)] ∧
      ((run TeidriState.step (TeidriState.initial.start 1) leftRun).start 1).blockedList.map
        TeidriInfo.pair = [(NodeAddress.v4 1, 1)] ∧
      ¬ (run TeidriState.step (TeidriState.initial.start 1) leftRun).FileAgrees := by
  have of : ∀ event ∈ leftRun, event.Of 1 := by
    simp only [leftRun, forall_mem_cons, TeidriEvent.Of]
    exact ⟨.v4 (by decide), .v4 (by decide), .v4 (by decide), forall_mem_nil _⟩
  have value : (run TeidriState.step (TeidriState.initial.start 1) leftRun).teidriVal = 1 := by
    decide +kernel
  have noBlocked : (run TeidriState.step (TeidriState.initial.start 1) leftRun).blockedList = [] := by
    decide +kernel
  have allocated : (run TeidriState.step (TeidriState.initial.start 1) leftRun).allocatedList.map
      pair = [(v4 2, 1)] := by
    decide +kernel
  have read : ((run TeidriState.step (TeidriState.initial.start 1) leftRun).start 1).blockedList.map
      pair = [(v4 1, 1)] := by
    decide +kernel
  refine ⟨of, noBlocked, allocated, read, fun agrees => ?_⟩
  have pairs := agrees.pairs
  rw [value, read, noBlocked, append_nil, allocated, perm_singleton] at pairs
  exact absurd pairs (by decide)

/-- A node that has a range gets back one it had when it associates after a restart. -/
theorem teidriRun_recovers (r : Fin 8) (configured : r ≠ 0) (events : List TeidriEvent)
    (of : ∀ event ∈ events, event.Of r)
    (guarded : Guarded TeidriState.step TeidriState.FileOk (TeidriState.initial.start r) events)
    (node garbage : NodeAddress) (cp : CpNode node) :
    let s := run TeidriState.step (TeidriState.initial.start r) events
    let known := (s.allocatedList ++ s.blockedList).map pair
    (∃ t, (node, t) ∈ known) → ∃ t, (node, t) ∈ known ∧
      ((s.start r).associationSetup node garbage).allocatedList.map pair = [(node, t)] := by
  intro s known
  have inv : FileInv r s := (guarded.and_forall of).invariant (FileInv r) (fileInv_fresh r)
    fun _ _ inv ok => inv.step ok.1 ok.2
  obtain ⟨records, -, same, value, -, allocated, blocked, -⟩ := inv.start_eq
  rintro ⟨t, listed⟩
  obtain ⟨stored, inFile, isPair⟩ := mem_map.mp (same.mem_iff.mpr listed)
  have restored : ∀ info ∈ records.map FileRecord.info, CpNode info.nodeAddr :=
    blocked ▸ inv.start.blocked
  have asked : sameAddress node stored = true := by
    have address : ownAddress stored.nodeAddr = node := congrArg Prod.fst isPair
    rw [(restored stored inFile).ownAddress_eq] at address
    rw [sameAddress, address]
    cases cp <;> simp [v4, v6]
  obtain ⟨info, found⟩ := Option.isSome_iff_exists.mp (find?_isSome.mpr ⟨stored, inFile, asked⟩)
  have mem := mem_of_find?_eq_some found
  have address := cp.eq_of_sameAddress (restored info mem) (find?_some found)
  refine ⟨info.teidRange, same.mem_iff.mp (mem_map.mpr ⟨info, mem, ?_⟩), ?_⟩
  · rw [pair, address, cp.ownAddress_eq]
  · rw [TeidriState.associationSetup, value, if_neg configured, blocked, getTeidriInfo, found]
    simp [TeidriState.addFromBlocked, cp.not_null, allocated, getTeidriInfo, cp.pair_newEntry]

theorem teidriRun_recovers_node :
    ∃ t, ((run TeidriState.step (TeidriState.initial.start 1)
      [.associationSetup (v4 1) NodeAddress.zero]).start 1 |>.associationSetup (v4 1)
        NodeAddress.zero).allocatedList.map pair = [(v4 1, t)] := by
  have cp : CpNode (v4 1) := .v4 (by decide)
  obtain ⟨t, -, back⟩ := teidriRun_recovers 1 (by decide) [.associationSetup (v4 1) NodeAddress.zero]
    (forall_mem_singleton.mpr cp) ⟨trivial, trivial⟩ (v4 1) NodeAddress.zero cp ⟨0, by decide +kernel⟩
  exact ⟨t, back⟩

end Epc.Up
