import Epc.Lib.Lists
import Epc.Up.TeidRange

/-! The ranges of a user plane over its runs, restarts included: what the file gives back, and what
each operation does to the three lists. -/

namespace Epc.Up

open Epc.Lib Epc.Lib.Text Epc.Lib.Inet Epc.Lib.Run List

/-- A line of the file by what reading it depends on: the range, and any rest. -/
structure FileRecord where
  teidRange : UInt8
  rest : List Char
  inline : '\n' ∉ rest
  short : rest.length ≤ 200

namespace FileRecord

def body (r : FileRecord) : List Char :=
  decimal r.teidRange.toNat ++ " ,".toList ++ r.rest

def text (r : FileRecord) : List Char :=
  r.body ++ ['\n']

theorem newline_notMem_body (r : FileRecord) : '\n' ∉ r.body := by
  intro mem
  rcases mem_append.mp mem with front | rest
  · rcases mem_append.mp front with digits | comma
    · exact ne_of_mem_decimal (by decide) digits rfl
    · exact absurd comma (by decide)
  · exact r.inline rest

theorem length_body_le (r : FileRecord) : r.body.length ≤ 205 := by
  have digits : (decimal r.teidRange.toNat).length ≤ 3 :=
    length_decimal_le (by decide) (r.teidRange.toNat_lt.trans (by decide))
  have rest := r.short
  simp only [body, length_append, String.length_toList]
  change _ + 2 + _ ≤ 205
  omega

theorem strtok_text (r : FileRecord) :
    strtok (fun c => c == ',') r.text = some (decimal r.teidRange.toNat ++ [' '], r.rest ++ ['\n']) := by
  have shape : r.text = (decimal r.teidRange.toNat ++ [' ']) ++ ',' :: (r.rest ++ ['\n']) := by
    simp [text, body]
  rw [shape]
  refine strtok_append (by simp) (fun c mem => ?_) (by decide) _
  rcases mem_append.mp mem with digits | blank
  · exact beq_eq_false_iff_ne.mpr (ne_of_mem_decimal (by decide) digits)
  · rw [mem_singleton.mp blank]
    decide

end FileRecord

theorem readRecord_teidRange (token rest : List Char) :
    (readRecord token rest).teidRange = UInt8.ofInt (atoi token) := by
  unfold readRecord
  dsimp only
  split
  · rfl
  · split <;> rfl

theorem ofInt_atoi_decimal {before : List Char} (blank : ∀ c ∈ before, isSpace c) (n : UInt8) :
    UInt8.ofInt (atoi (before ++ decimal n.toNat ++ [' '])) = n := by
  rw [atoi_blank_decimal_blank (n.toNat_lt.trans (by decide)) blank, ofInt_toNat_uint8]

def FileRecord.info (r : FileRecord) : TeidriInfo :=
  readRecord (decimal r.teidRange.toNat ++ [' ']) (r.rest ++ ['\n'])

theorem FileRecord.info_teidRange (r : FileRecord) : r.info.teidRange = r.teidRange := by
  rw [FileRecord.info, readRecord_teidRange]
  exact ofInt_atoi_decimal (forall_mem_nil _) r.teidRange

variable {s : TeidriRead}

theorem readLine_record (teidriVal : Fin 8) (unclean : s.clean = false)
    (later : 1 < s.lineNum + 1) (r : FileRecord) :
    readLine teidriVal s r.text =
      { s with
        lineNum := s.lineNum + 1
        numCp := s.numCp + 1
        blockedList := s.blockedList ++ [r.info] } := by
  have notFirst : s.lineNum + 1 ≠ 1 := (UInt8.ne_of_lt later).symm
  rw [readLine, unclean, r.strtok_text]
  simp only [Bool.false_eq_true, if_false, notFirst, false_and, later, if_true, FileRecord.info]

theorem readLines_records (teidriVal : Fin 8) (records : List FileRecord) (unclean : s.clean = false)
    (later : 0 < s.lineNum.toNat) (room : s.lineNum.toNat + records.length < 256) :
    (records.map FileRecord.text).foldl (readLine teidriVal) s =
      { s with
        lineNum := s.lineNum + UInt8.ofNat records.length
        numCp := s.numCp + UInt8.ofNat records.length
        blockedList := s.blockedList ++ records.map FileRecord.info } := by
  induction records generalizing s with
  | nil => simp
  | cons r records ih =>
    rw [length_cons] at room
    have next : (s.lineNum + 1).toNat = s.lineNum.toNat + 1 := by
      exact Nat.mod_eq_of_lt (by change s.lineNum.toNat + 1 < 256; omega)
    have past : 1 < s.lineNum + 1 := by
      rw [UInt8.lt_iff_toNat_lt, next]
      exact Nat.succ_lt_succ later
    have read := readLine_record teidriVal unclean past r
    have rest := ih (s := readLine teidriVal s r.text)
      (by rw [read]; exact unclean) (by rw [read]; dsimp only; omega)
      (by rw [read]; dsimp only; omega)
    rw [map_cons, foldl_cons, rest, read]
    simp [add_assoc, add_comm]

def fileText (teidriVal : Fin 8) (records : List FileRecord) : List Char :=
  printHeader teidriVal ++ records.flatMap FileRecord.text

theorem fgetsAll_records (records : List FileRecord) :
    fgetsAll 256 [] (records.flatMap FileRecord.text) = records.map FileRecord.text := by
  induction records with
  | nil => rfl
  | cons r records ih =>
    have short := r.length_body_le
    have first := fgetsAll_line 256 r.body [] (records.flatMap FileRecord.text)
      r.newline_notMem_body (by simp only [length_nil]; omega)
    rw [flatMap_cons, map_cons, FileRecord.text, append_assoc, singleton_append, first, ih]
    rfl

theorem fgetsAll_fileText (teidriVal : Fin 8) (records : List FileRecord) :
    fgetsAll 256 [] (fileText teidriVal records) =
      printHeader teidriVal :: records.map FileRecord.text := by
  obtain ⟨body, header, inline, short⟩ :
      ∃ body : List Char, printHeader teidriVal = body ++ ['\n'] ∧ '\n' ∉ body ∧
        body.length ≤ 20 := by
    refine ⟨(printHeader teidriVal).dropLast, ?_, ?_, ?_⟩ <;> decide +kernel +revert
  have first := fgetsAll_line 256 body [] (records.flatMap FileRecord.text) inline
    (by simp only [length_nil]; omega)
  rw [fileText, header, append_assoc, singleton_append, first, fgetsAll_records]
  rfl

theorem readLine_header (teidriVal old : Fin 8) :
    readLine teidriVal { lineNum := 0, numCp := 0, blockedList := [], clean := false }
        (printHeader old) =
      if old = teidriVal then { lineNum := 1, numCp := 1, blockedList := [], clean := false }
      else { lineNum := 1, numCp := 0, blockedList := [], clean := true } := by
  decide +kernel +revert

theorem readLines_clean (teidriVal : Fin 8) (lines : List (List Char))
    (clean : s.clean = true) : lines.foldl (readLine teidriVal) s = s := by
  induction lines with
  | nil => rfl
  | cons line lines ih => rw [foldl_cons, readLine, if_pos clean, ih]

theorem readLines_fileText_same (teidriVal : Fin 8) (records : List FileRecord)
    (room : records.length < 255) :
    (fgetsAll 256 [] (fileText teidriVal records)).foldl (readLine teidriVal)
        { lineNum := 0, numCp := 0, blockedList := [], clean := false } =
      { lineNum := 1 + UInt8.ofNat records.length
        numCp := 1 + UInt8.ofNat records.length
        blockedList := records.map FileRecord.info
        clean := false } := by
  have read := readLines_records teidriVal records
    (s := { lineNum := 1, numCp := 1, blockedList := [], clean := false }) rfl (by decide)
    (by change 1 + records.length < 256; omega)
  rw [fgetsAll_fileText, foldl_cons, readLine_header, if_pos rfl, read]
  rfl

variable {teidriVal : Fin 8}

theorem readLines_fileText_other {old : Fin 8} (other : old ≠ teidriVal) (records : List FileRecord) :
    (fgetsAll 256 [] (fileText old records)).foldl (readLine teidriVal)
        { lineNum := 0, numCp := 0, blockedList := [], clean := false } =
      { lineNum := 1, numCp := 0, blockedList := [], clean := true } := by
  rw [fgetsAll_fileText, foldl_cons, readLine_header, if_neg other, readLines_clean _ _ rfl]

def ranges (list : List TeidriInfo) : List Nat :=
  list.map fun info => info.teidRange.toNat

@[simp] theorem ranges_nil : ranges [] = [] := rfl

@[simp] theorem ranges_append (xs ys : List TeidriInfo) :
    ranges (xs ++ ys) = ranges xs ++ ranges ys :=
  map_append

@[simp] theorem ranges_singleton (info : TeidriInfo) : ranges [info] = [info.teidRange.toNat] := rfl

theorem searchListForTeidRange_iff (head : List TeidriInfo) {t : Nat} (small : t < 256) :
    searchListForTeidRange head (UInt8.ofNat t) = true ↔ t ∈ ranges head := by
  have same : (UInt8.ofNat t).toNat = t := by simpa using Nat.mod_eq_of_lt small
  simp only [searchListForTeidRange, any_eq_true, beq_iff_eq, ranges, mem_map,
    ← UInt8.toNat_inj, same]

theorem freeListRounds (blockedList : List TeidriInfo) (ts : List Nat) (small : ∀ t ∈ ts, t < 256)
    {s : UInt8 × List TeidriInfo}
    (enough : (ts.filter fun t => t ∈ ranges blockedList).length ≤ s.1.toNat) :
    ranges (ts.foldl (freeListRound blockedList) s).2 =
      ranges s.2 ++ ts.filter fun t => t ∉ ranges blockedList := by
  induction ts generalizing s with
  | nil => simp
  | cons t ts ih =>
    have bound := small t mem_cons_self
    have rest := fun u mem => small u (mem_cons_of_mem t mem)
    have search := searchListForTeidRange_iff blockedList bound
    by_cases blocked : t ∈ ranges blockedList
    · rw [filter_cons_of_pos (by simpa using blocked), length_cons] at enough
      have left : s.1 ≠ 0 := by
        rintro zero
        rw [zero] at enough
        exact absurd enough (by simp)
      have nonempty : blockedList ≠ [] := by
        rintro rfl
        cases blocked
      have less : (s.1 - 1).toNat = s.1.toNat - 1 :=
        UInt8.toNat_sub_of_le _ _ (UInt8.le_iff_toNat_le.mpr (by change 1 ≤ s.1.toNat; omega))
      have round : freeListRound blockedList s t = (s.1 - 1, s.2) :=
        if_pos ⟨left, nonempty, search.mpr blocked⟩
      rw [foldl_cons, round, ih rest (by dsimp only; omega),
        filter_cons_of_neg (by simpa using blocked)]
    · rw [filter_cons_of_neg (by simpa using blocked)] at enough
      have round : freeListRound blockedList s t =
          (s.1, s.2 ++ [{ nodeAddr := NodeAddress.zero, teidRange := UInt8.ofNat t }]) :=
        if_neg fun hit => blocked (search.mp hit.2.2)
      have same : (UInt8.ofNat t).toNat = t := by simpa using Nat.mod_eq_of_lt bound
      rw [foldl_cons, ih rest (by rw [round]; exact enough), round, ranges_append, ranges_singleton,
        same, filter_cons_of_pos (by simpa using blocked), append_assoc, singleton_append]

theorem maxTeid_le (teidriVal : Fin 8) : maxTeid teidriVal ≤ 128 := by
  decide +revert

theorem ranges_createTeidRangeFreeList (blockedList : List TeidriInfo)
    {numCp : UInt8} (counted : blockedList.length ≤ numCp.toNat) :
    ranges (createTeidRangeFreeList blockedList [] teidriVal numCp) =
      (List.range (maxTeid teidriVal)).filter fun t => t ∉ ranges blockedList := by
  have hits : ((List.range (maxTeid teidriVal)).filter fun t => t ∈ ranges blockedList).length ≤
      numCp.toNat := by
    have inside : ((List.range (maxTeid teidriVal)).filter fun t => t ∈ ranges blockedList) ⊆
        ranges blockedList := fun t mem => by simpa using (mem_filter.mp mem).2
    have fewer := ((nodup_range.filter _).subperm inside).length_le
    rw [ranges, length_map] at fewer
    exact fewer.trans counted
  have collected := freeListRounds blockedList (List.range (maxTeid teidriVal))
    (fun t mem => (mem_range.mp mem).trans_le ((maxTeid_le teidriVal).trans (by decide)))
    (s := (numCp, [])) hits
  rw [createTeidRangeFreeList, collected, ranges_nil, nil_append]

theorem createTeidRangeFreeList_perm (blockedList : List TeidriInfo) {numCp : UInt8}
    (nodup : (ranges blockedList).Nodup) (valid : ∀ t ∈ ranges blockedList, t < maxTeid teidriVal)
    (counted : blockedList.length ≤ numCp.toNat) :
    (ranges (createTeidRangeFreeList blockedList [] teidriVal numCp) ++ ranges blockedList).Perm
      (List.range (maxTeid teidriVal)) := by
  rw [ranges_createTeidRangeFreeList blockedList counted]
  refine (perm_ext_iff_of_nodup ?_ nodup_range).mpr fun t => ?_
  · refine nodup_append.mpr ⟨nodup_range.filter _, nodup, ?_⟩
    rintro t free u blocked rfl
    simp [blocked] at free
  · have bounded := valid t
    simp only [mem_append, mem_filter, mem_range, decide_eq_true_eq]
    tauto

section

theorem digitChar_ne {c : Char} (other : ∀ n < 17, n.digitChar ≠ c) (n : Nat) : n.digitChar ≠ c := by
  by_cases small : n < 16
  · exact other n (by omega)
  · rw [Nat.digitChar_eq_star.mpr (Nat.not_lt.mp small)]
    exact other 16 (by decide)

theorem newline_notMem_printIpv6 (addr : Ipv6Address) : '\n' ∉ printIpv6 addr := by
  simp [printIpv6, hexByte, List.range, List.range.loop, List.intercalate,
    (digitChar_ne (c := '\n') (by decide) _).symm]

theorem length_printIpv6 (addr : Ipv6Address) : (printIpv6 addr).length = 39 := by
  simp [printIpv6, hexByte, List.range, List.range.loop, List.intercalate]

theorem newline_notMem_printIpv4 (addr : UInt32) : '\n' ∉ printIpv4 addr := by
  have inline (n : Nat) : '\n' ∉ decimal n := fun mem => ne_of_mem_decimal (by decide) mem rfl
  simp [printIpv4, inetNtoa, List.intercalate, inline]

theorem length_printIpv4_le (addr : UInt32) : (printIpv4 addr).length ≤ 15 := by
  have short (octet : UInt8) : (decimal octet.toNat).length ≤ 3 :=
    length_decimal_le (by decide) (octet.toNat_lt.trans (by decide))
  have first := short addr.toUInt8
  have second := short (addr >>> 8).toUInt8
  have third := short (addr >>> 16).toUInt8
  have fourth := short (addr >>> 24).toUInt8
  simp only [printIpv4, inetNtoa, List.intercalate, map_cons, map_nil, intersperse_cons_cons,
    intersperse_singleton, flatten_cons, flatten_nil, length_append, length_cons, length_nil]
  omega

def FileRecord.ofPrint (blank : Bool) (teidRange : UInt8) (ipv6Addr : Ipv6Address)
    (ipv4Addr dotted : UInt32) : FileRecord where
  teidRange := teidRange
  rest := printIpv6 ipv6Addr ++ ", ".toList ++ decimal ipv4Addr.toNat ++ ",".toList ++
    (if blank then " ".toList else []) ++ printIpv4 dotted ++ ", ".toList
  inline := by
    have number : '\n' ∉ decimal ipv4Addr.toNat :=
      fun member => ne_of_mem_decimal (by decide) member rfl
    have ipv6 := newline_notMem_printIpv6 ipv6Addr
    have ipv4 := newline_notMem_printIpv4 dotted
    cases blank <;> simp [number, ipv6, ipv4]
  short := by
    have number : (decimal ipv4Addr.toNat).length ≤ 10 :=
      length_decimal_le (by decide) (ipv4Addr.toNat_lt.trans (by decide))
    have ipv6 := length_printIpv6 ipv6Addr
    have ipv4 := length_printIpv4_le dotted
    cases blank <;> simp <;> omega

theorem FileRecord.text_ofPrint (blank : Bool) (teidRange : UInt8) (ipv6Addr : Ipv6Address)
    (ipv4Addr dotted : UInt32) :
    (FileRecord.ofPrint blank teidRange ipv6Addr ipv4Addr dotted).text =
      printRecord (if blank then " ".toList else []) teidRange ipv6Addr ipv4Addr dotted := by
  simp [FileRecord.text, FileRecord.body, FileRecord.ofPrint, printRecord]

end

theorem ranges_infos (records : List FileRecord) :
    ranges (records.map FileRecord.info) = records.map fun r => r.teidRange.toNat := by
  simp [ranges, FileRecord.info_teidRange]

theorem length_records_le {records : List FileRecord}
    (nodup : (records.map fun r => r.teidRange.toNat).Nodup)
    (valid : ∀ t ∈ records.map (fun r => r.teidRange.toNat), t < maxTeid teidriVal) :
    records.length ≤ 128 := by
  have inside : records.map (fun r => r.teidRange.toNat) ⊆
      List.range (maxTeid teidriVal) := fun t mem => mem_range.mpr (valid t mem)
  have fewer := (nodup.subperm inside).length_le
  rw [length_map, length_range] at fewer
  exact fewer.trans (maxTeid_le teidriVal)

theorem length_infos_le {records : List FileRecord} (few : records.length ≤ 128) :
    (records.map FileRecord.info).length ≤ (1 + UInt8.ofNat records.length).toNat := by
  rw [length_map, UInt8.toNat_add, UInt8.toNat_ofNat_of_lt' (by change _ < 256; omega)]
  change _ ≤ (1 + records.length) % 256
  omega

structure RecordsOf (records : List FileRecord) (used : List Nat) : Prop where
  distinct : (records.map fun r => r.teidRange.toNat).Nodup
  inUse : ∀ r ∈ records, r.teidRange.toNat ∈ used

/-- The lists share out the ranges, and the file has records of ranges in use only. -/
structure TeidriState.Inv (s : TeidriState) : Prop where
  shared : (ranges s.freeList ++ (ranges s.blockedList ++ ranges s.allocatedList)).Perm
    (List.range (maxTeid s.teidriVal))
  recorded : (s.file = none ∧ s.teidriVal = 0) ∨
    ∃ records, s.file = some (fileText s.teidriVal records) ∧
      RecordsOf records (ranges s.blockedList ++ ranges s.allocatedList)

namespace TeidriState

theorem inv_initial : initial.Inv :=
  ⟨List.Perm.refl _, Or.inl ⟨rfl, rfl⟩⟩

variable {s : TeidriState} {P : TeidriState → Prop} {head : List TeidriInfo} {t : UInt8}

theorem Inv.lt_maxTeid (inv : s.Inv) {t : Nat}
    (used : t ∈ ranges s.blockedList ++ ranges s.allocatedList) : t < maxTeid s.teidriVal :=
  mem_range.mp (inv.shared.mem_iff.mp (mem_append_right _ used))

theorem inv_fresh (teidriVal : Fin 8) :
    Inv {
      file := some (printHeader teidriVal)
      teidriVal
      freeList := createTeidRangeFreeList [] [] teidriVal 0
      blockedList := []
      allocatedList := [] } where
  shared := createTeidRangeFreeList_perm [] nodup_nil
    (forall_mem_nil _) (Nat.zero_le _)
  recorded := Or.inr ⟨[], by simp [fileText], nodup_nil, forall_mem_nil _⟩

theorem Inv.start (inv : s.Inv) (teidriVal : Fin 8) : (s.start teidriVal).Inv := by
  rcases inv.recorded with ⟨missing, -⟩ | ⟨records, file, of⟩
  · rw [TeidriState.start, readTeidriData, missing]
    exact inv_fresh teidriVal
  · rw [TeidriState.start, readTeidriData, file]
    by_cases same : s.teidriVal = teidriVal
    · subst same
      have valid : ∀ t ∈ records.map (fun r => r.teidRange.toNat), t < maxTeid s.teidriVal := by
        intro t mem
        obtain ⟨r, record, rfl⟩ := mem_map.mp mem
        exact inv.lt_maxTeid (of.inUse r record)
      have few := length_records_le of.distinct valid
      have counted := length_infos_le few
      have split := createTeidRangeFreeList_perm (records.map FileRecord.info)
        (ranges_infos records ▸ of.distinct) (ranges_infos records ▸ valid) counted
      dsimp only [initial]
      rw [readLines_fileText_same s.teidriVal records (by omega)]
      refine ⟨by simpa using split, Or.inr ⟨records, rfl, of.distinct, fun r record => ?_⟩⟩
      simp only [ranges_nil, append_nil, ranges_infos]
      exact mem_map_of_mem record
    · dsimp only [initial]
      rw [readLines_fileText_other same]
      exact inv_fresh teidriVal

theorem Inv.records (inv : s.Inv) (configured : s.teidriVal ≠ 0) :
    ∃ records, s.file = some (fileText s.teidriVal records) ∧
      RecordsOf records (ranges s.blockedList ++ ranges s.allocatedList) := by
  rcases inv.recorded with ⟨-, zero⟩ | recorded
  · exact absurd zero configured
  · exact recorded

theorem ranges_deleteEntry (mem : t.toNat ∈ ranges head) :
    (ranges head).Perm (t.toNat :: ranges (deleteEntryFromListForTeidRange head t)) := by
  have erased : ranges (deleteEntryFromListForTeidRange head t) =
      (ranges head).erase t.toNat := by
    rw [erase_eq_eraseP', ranges, ranges, eraseP_map, deleteEntryFromListForTeidRange]
    congr 2
    funext info
    rw [Function.comp_apply, Bool.eq_iff_iff, beq_iff_eq, beq_iff_eq, UInt8.toNat_inj]
  rw [erased]
  exact perm_cons_erase mem

variable {node : NodeAddress}

theorem mem_ranges_of_getTeidriInfo {info : TeidriInfo}
    (found : getTeidriInfo head node = some info) : info.teidRange.toNat ∈ ranges head :=
  mem_map_of_mem (mem_of_find?_eq_some found)

theorem perm_moved {α : Type*} [DecidableEq α] {a : α} {l l' : List α} (moved : l.Perm (a :: l'))
    (x y : List α) :
    (l' ++ (x ++ (y ++ [a]))).Perm (l ++ (x ++ y)) ∧ (x ++ [a] ++ (y ++ l')).Perm (x ++ (y ++ l)) := by
  constructor <;>
    refine perm_iff_count.mpr fun u => ?_ <;>
    have counts := moved.count_eq u <;>
    simp only [count_append, count_cons, count_nil] at counts ⊢ <;>
    omega

section

variable {teidriVal : Fin 8} (configured : teidriVal ≠ 0)

include configured

theorem assignTeidRange_nil : assignTeidRange teidriVal [] = -1 := by
  have valid : (teidriVal : Nat) ≠ 0 := Fin.val_ne_zero_iff.mpr configured
  unfold assignTeidRange
  rw [if_neg valid, ite_self]

theorem assignTeidRange_cons (info : TeidriInfo) (rest : List TeidriInfo) :
    assignTeidRange teidriVal (info :: rest) = info.teidRange.toInt8 := by
  have valid : (teidriVal : Nat) ≠ 0 := Fin.val_ne_zero_iff.mpr configured
  have admitted : ¬ riMax < (teidriVal : Nat) := by
    change ¬ 8 < _
    omega
  unfold assignTeidRange
  rw [if_neg valid, if_neg admitted]

end

theorem associationSetup_cases (node garbage : NodeAddress) (same : P s)
    (blocked : ∀ info, getTeidriInfo s.blockedList node = some info →
      P (s.addFromBlocked info.teidRange node garbage))
    (free : ∀ t : UInt8, s.teidriVal ≠ 0 → t.toNat ∈ ranges s.freeList →
      getTeidriInfo s.allocatedList node = none → P (s.addFromFree t node garbage)) :
    P (s.associationSetup node garbage) := by
  unfold TeidriState.associationSetup
  by_cases configured : s.teidriVal = 0
  · rwa [if_pos configured]
  · rw [if_neg configured]
    cases inBlocked : getTeidriInfo s.blockedList node with
    | some info => exact blocked info inBlocked
    | none =>
      cases allocated : getTeidriInfo s.allocatedList node with
      | some info => exact same
      | none =>
        dsimp only
        split
        · exact same
        · next assigned =>
          cases inFree : s.freeList with
          | nil =>
            rw [inFree, assignTeidRange_nil configured] at assigned
            exact absurd (by decide) assigned
          | cons info rest =>
            rw [assignTeidRange_cons configured, UInt8.toUInt8_toInt8]
            exact free _ configured (inFree ▸ mem_cons_self) allocated

theorem deleteTeidriNodeEntry_cases (garbage : NodeAddress) (same : P s)
    (agree : s.allocatedList.find? (fun info => compareIpAddress info.nodeAddr node) =
      getTeidriInfo s.allocatedList node)
    (deleted : ∀ info : TeidriInfo, (ranges s.allocatedList).Perm
        (info.teidRange.toNat :: ranges (deleteEntryFromTeidriListForIp node s.allocatedList)) →
      let allocatedList := deleteEntryFromTeidriListForIp node s.allocatedList
      P { s with
        freeList := s.freeList ++ [newEntry info.teidRange node garbage]
        allocatedList
        file := some (printHeader s.teidriVal ++ allocatedList.flatMap fun info =>
          printRecord [] info.teidRange info.nodeAddr.ipv6Addr node.ipv4Addr
            info.nodeAddr.ipv4Addr) }) :
    P (s.deleteTeidriNodeEntry node garbage) := by
  unfold deleteTeidriNodeEntry
  split
  · exact same
  · cases found : getTeidriInfo s.allocatedList node with
    | none => exact same
    | some info => exact deleted info ((perm_cons_eraseP_of_find? (agree.trans found)).map _)

theorem Inv.addFromBlocked (inv : s.Inv) (blocked : t.toNat ∈ ranges s.blockedList)
    (node garbage : NodeAddress) : (s.addFromBlocked t node garbage).Inv := by
  unfold TeidriState.addFromBlocked
  split
  · exact inv
  · split
    · exact inv
    · have used : (ranges (deleteEntryFromListForTeidRange s.blockedList t) ++
          ranges (s.allocatedList ++ [newEntry t node garbage])).Perm
          (ranges s.blockedList ++ ranges s.allocatedList) := by
        rw [ranges_append]
        exact (perm_moved (ranges_deleteEntry blocked) [] _).1
      refine ⟨(used.append_left _).trans inv.shared, inv.recorded.imp_right ?_⟩
      rintro ⟨records, file, of⟩
      exact ⟨records, file, of.distinct, fun r record => used.mem_iff.mpr (of.inUse r record)⟩

theorem Inv.addFromFree (inv : s.Inv) (configured : s.teidriVal ≠ 0)
    (free : t.toNat ∈ ranges s.freeList) (unknown : getTeidriInfo s.allocatedList node = none)
    (garbage : NodeAddress) : (s.addFromFree t node garbage).Inv := by
  unfold TeidriState.addFromFree
  split
  · exact inv
  · obtain ⟨records, file, of⟩ := inv.records configured
    have shared : (ranges (deleteEntryFromListForTeidRange s.freeList t) ++
        (ranges s.blockedList ++ ranges (s.allocatedList ++ [newEntry t node garbage]))).Perm
        (List.range (maxTeid s.teidriVal)) := by
      rw [ranges_append]
      exact (perm_moved (ranges_deleteEntry free) _ _).1.trans inv.shared
    have fresh : t.toNat ∉ ranges s.blockedList ++ ranges s.allocatedList := by
      have nodup := inv.shared.nodup_iff.mpr nodup_range
      exact fun used => (nodup_append.mp nodup).2.2 _ free _ used rfl
    simp only [unknown]
    refine ⟨shared, Or.inr
      ⟨records ++ [FileRecord.ofPrint true t node.ipv6Addr node.ipv4Addr node.ipv4Addr], ?_, ?_, ?_⟩⟩
    · simp [file, fileText, FileRecord.text_ofPrint]
    · rw [map_append, map_singleton, nodup_append]
      refine ⟨of.distinct, nodup_singleton _, ?_⟩
      rintro u old v new rfl
      obtain ⟨r, record, rfl⟩ := mem_map.mp old
      have same : r.teidRange.toNat = t.toNat := mem_singleton.mp new
      exact fresh (same ▸ of.inUse r record)
    · intro r record
      rw [ranges_append, ← append_assoc]
      rcases mem_append.mp record with old | new
      · exact mem_append_left _ (of.inUse r old)
      · rw [mem_singleton.mp new]
        exact mem_append_right _ (mem_singleton_self _)

theorem Inv.associationSetup (inv : s.Inv) (node garbage : NodeAddress) :
    (s.associationSetup node garbage).Inv :=
  associationSetup_cases node garbage inv
    (fun _ blocked => inv.addFromBlocked (mem_ranges_of_getTeidriInfo blocked) node garbage)
    fun _ configured free allocated => inv.addFromFree configured free allocated garbage

def reprinted (list : List TeidriInfo) (ipv4Addr : TeidriInfo → UInt32) : List FileRecord :=
  list.map fun info => FileRecord.ofPrint false info.teidRange info.nodeAddr.ipv6Addr (ipv4Addr info)
    info.nodeAddr.ipv4Addr

theorem fileText_reprinted (list : List TeidriInfo) (teidriVal : Fin 8) (ipv4Addr : TeidriInfo → UInt32) :
    printHeader teidriVal ++ list.flatMap (fun info =>
        printRecord [] info.teidRange info.nodeAddr.ipv6Addr (ipv4Addr info) info.nodeAddr.ipv4Addr) =
      fileText teidriVal (reprinted list ipv4Addr) := by
  simp [fileText, reprinted, flatMap_map, FileRecord.text_ofPrint]

theorem recordsOf_reprinted {list : List TeidriInfo} (nodup : (ranges list).Nodup)
    (ipv4Addr : TeidriInfo → UInt32) : RecordsOf (reprinted list ipv4Addr) (ranges list) := by
  constructor
  · rw [reprinted, map_map]
    exact nodup
  · intro r record
    obtain ⟨info, mem, rfl⟩ := mem_map.mp record
    exact mem_map_of_mem mem

theorem Inv.flush (inv : s.Inv)
    (appended : s.blockedList = [] ∨ s.freeList ≠ []) : s.flushInactiveTeidriData.Inv := by
  unfold flushInactiveTeidriData
  split
  · exact inv
  · have freed : ranges (if s.freeList = [] then [] else s.freeList ++ s.blockedList) =
        ranges s.freeList ++ ranges s.blockedList := by
      split
      · rename_i empty
        rw [empty, appended.resolve_right (not_not.mpr empty)]
        rfl
      · exact ranges_append _ _
    have nodup := inv.shared.nodup_iff.mpr nodup_range
    rw [← append_assoc] at nodup
    refine ⟨?_, Or.inr ⟨_, congrArg some (fileText_reprinted ..),
      recordsOf_reprinted (nodup_append.mp nodup).2.1 _⟩⟩
    rw [freed, ranges_nil, nil_append, append_assoc]
    exact inv.shared

theorem Inv.deleteNode (inv : s.Inv)
    (agree : s.allocatedList.find? (fun info => compareIpAddress info.nodeAddr node) =
      getTeidriInfo s.allocatedList node) (garbage : NodeAddress) :
    (s.deleteTeidriNodeEntry node garbage).Inv := by
  refine deleteTeidriNodeEntry_cases garbage inv agree fun info moved => ?_
  have shared : (ranges (s.freeList ++ [newEntry info.teidRange node garbage]) ++
      (ranges s.blockedList ++ ranges (deleteEntryFromTeidriListForIp node s.allocatedList))).Perm
      (List.range (maxTeid s.teidriVal)) := by
    rw [ranges_append]
    exact (perm_moved moved _ _).2.trans inv.shared
  have nodup := shared.nodup_iff.mpr nodup_range
  rw [← append_assoc] at nodup
  have of := recordsOf_reprinted (nodup_append.mp nodup).2.1 fun _ => node.ipv4Addr
  exact ⟨shared, Or.inr ⟨_, congrArg some (fileText_reprinted ..), of.distinct,
    fun r record => mem_append_right _ (of.inUse r record)⟩⟩

/-- A flush has a free list to append to, or nothing to append; a deletion finds the same entry with
the stored kind of address as without it. -/
def StepOk (s : TeidriState) : TeidriEvent → Prop
  | .start _ => True
  | .associationSetup _ _ => True
  | .deleteNode node _ =>
    isNullAddress node ∨
      s.allocatedList.find? (fun info => compareIpAddress info.nodeAddr node) =
        getTeidriInfo s.allocatedList node
  | .flush => s.blockedList = [] ∨ s.freeList ≠ []

instance (s : TeidriState) : ∀ event, Decidable (s.StepOk event)
  | .start _ => isTrue trivial
  | .associationSetup _ _ => isTrue trivial
  | .deleteNode node _ =>
    inferInstanceAs (Decidable (isNullAddress node ∨
      s.allocatedList.find? (fun info => compareIpAddress info.nodeAddr node) =
        getTeidriInfo s.allocatedList node))
  | .flush => inferInstanceAs (Decidable (s.blockedList = [] ∨ s.freeList ≠ []))

theorem Inv.step (event : TeidriEvent) (inv : s.Inv) (ok : s.StepOk event) : (s.step event).Inv := by
  cases event with
  | start teidriVal => exact inv.start teidriVal
  | associationSetup node garbage => exact inv.associationSetup node garbage
  | deleteNode node garbage =>
    rcases ok with null | agree
    · have unchanged : s.deleteTeidriNodeEntry node garbage = s := if_pos (Or.inr null)
      rw [TeidriState.step, unchanged]
      exact inv
    · exact inv.deleteNode agree garbage
  | flush => exact inv.flush ok

/-- Every range occurs once in the three lists, and allocated nodes have different ranges. -/
structure Partitioned (s : TeidriState) : Prop where
  once : s.teidriVal ≠ 0 → ∀ t < 2 ^ (s.teidriVal : Nat),
    (ranges (s.freeList ++ s.blockedList ++ s.allocatedList)).count t = 1
  apart : s.allocatedList.Pairwise fun a b => a.teidRange ≠ b.teidRange

theorem Inv.partitioned (inv : s.Inv) : s.Partitioned := by
  have nodup := inv.shared.nodup_iff.mpr nodup_range
  constructor
  · intro configured t bound
    have number : ∀ v : Fin 8, v ≠ 0 → maxTeid v = 2 ^ (v : Nat) := by decide
    have mem : t ∈ List.range (maxTeid s.teidriVal) := by
      rw [number _ configured]
      exact mem_range.mpr bound
    rw [ranges_append, ranges_append, append_assoc, inv.shared.count_eq]
    exact count_eq_one_of_mem nodup_range mem
  · rw [← append_assoc] at nodup
    have allocated := (nodup_append.mp nodup).2.1
    rw [ranges, List.Nodup, pairwise_map] at allocated
    exact allocated.imp fun differ same => differ (congrArg UInt8.toNat same)

end TeidriState

/-- In a run of admitted steps from any start, the ranges are shared out in every state. -/
theorem teidriRun_partitioned (events : List TeidriEvent)
    (guarded : Guarded TeidriState.step TeidriState.StepOk TeidriState.initial events)
    (reached : List TeidriEvent) (isPrefix : reached <+: events) :
    (run TeidriState.step TeidriState.initial reached).Partitioned :=
  ((guarded.of_prefix isPrefix).invariant TeidriState.Inv TeidriState.inv_initial
    fun _ event inv ok => inv.step event ok).partitioned

def restartRun : List TeidriEvent :=
  [.start 2, .associationSetup (NodeAddress.v4 1) NodeAddress.zero,
    .associationSetup (NodeAddress.v4 2) NodeAddress.zero, .start 2,
    .associationSetup (NodeAddress.v4 2) NodeAddress.zero, .flush,
    .associationSetup (NodeAddress.v4 3) NodeAddress.zero,
    .deleteNode (NodeAddress.v4 2) NodeAddress.zero]

theorem teidriRun_partitioned_restartRun :
    Guarded TeidriState.step TeidriState.StepOk TeidriState.initial restartRun ∧
      (run TeidriState.step TeidriState.initial restartRun).Partitioned := by
  have guarded : Guarded TeidriState.step TeidriState.StepOk TeidriState.initial restartRun := by
    decide +kernel
  exact ⟨guarded, teidriRun_partitioned restartRun guarded restartRun prefix_rfl⟩

def fullRun : List TeidriEvent :=
  [.start 1, .associationSetup (NodeAddress.v4 1) NodeAddress.zero,
    .associationSetup (NodeAddress.v4 2) NodeAddress.zero, .start 1, .flush]

theorem fullRun_not_partitioned :
    (run TeidriState.step TeidriState.initial fullRun).teidriVal = 1 ∧
      (run TeidriState.step TeidriState.initial fullRun).freeList = [] ∧
      (run TeidriState.step TeidriState.initial fullRun).blockedList = [] ∧
      (run TeidriState.step TeidriState.initial fullRun).allocatedList = [] ∧
      ¬ (run TeidriState.step TeidriState.initial fullRun).Partitioned := by
  have value : (run TeidriState.step TeidriState.initial fullRun).teidriVal = 1 := by
    decide +kernel
  have lists : (run TeidriState.step TeidriState.initial fullRun).freeList = [] ∧
      (run TeidriState.step TeidriState.initial fullRun).blockedList = [] ∧
      (run TeidriState.step TeidriState.initial fullRun).allocatedList = [] := by
    decide +kernel
  refine ⟨value, lists.1, lists.2.1, lists.2.2, fun partitioned => ?_⟩
  have once := partitioned.once (by rw [value]; decide) 0 (by rw [value]; decide)
  cases once

end Epc.Up
