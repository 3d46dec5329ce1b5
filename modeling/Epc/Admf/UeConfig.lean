import Epc.Lib.Iostream
import Epc.Lib.Run

/-! The database of the UEs to be intercepted, a file with one line of comma-separated values for each
(`ulpc/d_admf/src/UeConfigAsCSV.cpp`): how an entry is written, how the file is read, and how an entry is
deleted. What the file holds after any updates. -/

namespace Epc.Admf

open Epc.Lib.Text Epc.Lib.Iostream List

section

/-- `std::map<uint16_t, uint16_t>`: its entries by their keys. -/
@[ext]
structure ConfigMap where
  entries : List (UInt16 × UInt16)
  sorted : entries.Pairwise fun a b => a.1 < b.1
  deriving DecidableEq

def insertEntry (e : UInt16 × UInt16) : List (UInt16 × UInt16) → List (UInt16 × UInt16)
  | [] => [e]
  | x :: xs =>
    if e.1 < x.1 then e :: x :: xs
    else if e.1 = x.1 then x :: xs
    else x :: insertEntry e xs

theorem mem_insertEntry {e x : UInt16 × UInt16} {xs : List (UInt16 × UInt16)}
    (mem : x ∈ insertEntry e xs) : x = e ∨ x ∈ xs := by
  induction xs with
  | nil => exact .inl (mem_singleton.mp mem)
  | cons y ys ih =>
    rw [insertEntry] at mem
    split at mem
    · exact mem_cons.mp mem
    · split at mem
      · exact .inr mem
      · rcases mem_cons.mp mem with rfl | later
        · exact .inr mem_cons_self
        · exact (ih later).imp id (mem_cons_of_mem _)

theorem sorted_insertEntry (e : UInt16 × UInt16) {xs : List (UInt16 × UInt16)}
    (sorted : xs.Pairwise fun a b => a.1 < b.1) : (insertEntry e xs).Pairwise fun a b => a.1 < b.1 := by
  induction xs with
  | nil => exact pairwise_singleton _ _
  | cons x xs ih =>
    obtain ⟨first, others⟩ := pairwise_cons.mp sorted
    rw [insertEntry]
    split
    · rename_i before
      refine pairwise_cons.mpr ⟨fun y mem => ?_, sorted⟩
      rcases mem_cons.mp mem with rfl | later
      · exact before
      · exact UInt16.lt_trans before (first y later)
    · split
      · exact sorted
      · rename_i notBefore ne
        refine pairwise_cons.mpr ⟨fun y mem => ?_, ih others⟩
        rcases mem_insertEntry mem with rfl | later
        · exact UInt16.lt_of_le_of_ne (UInt16.not_lt.mp notBefore) (Ne.symm ne)
        · exact first y later

def ConfigMap.insert (map : ConfigMap) (e : UInt16 × UInt16) : ConfigMap where
  entries := insertEntry e map.entries
  sorted := sorted_insertEntry e map.sorted

def ConfigMap.empty : ConfigMap where
  entries := []
  sorted := .nil

/-- The loop of `ConvertMapToConfigString`; the counter has eight bits. -/
def configString : UInt8 → List (UInt16 × UInt16) → List Char
  | _, [] => []
  | uiCnt, (key, value) :: rest =>
    (if uiCnt ≠ 0 then ['#'] else []) ++
      (decimal key.toNat ++ '-' :: decimal value.toNat) ++ configString (uiCnt + 1) rest

def convertMapToConfigString (map : ConfigMap) : List Char :=
  configString 0 map.entries

def readUInt16 (s : List Char) : UInt16 := .ofNat (readUnsigned (2 ^ 16) s)

def readUInt64 (s : List Char) : UInt64 := .ofNat (readUnsigned (2 ^ 64) s)

/-- A pair is given by its first two parts; a part that is missing is zero. -/
def readPair (strPair : List Char) : UInt16 × UInt16 :=
  match getlines '-' [] strPair with
  | [] => (0, 0)
  | [key] => (readUInt16 key, 0)
  | key :: value :: _ => (readUInt16 key, readUInt16 value)

def convertStringToMap (strWord : List Char) (map : ConfigMap) : ConfigMap :=
  (getlines '#' [] strWord).foldl (fun map strPair => map.insert (readPair strPair)) map

end

/-- `ue_data_t` without the times that are computed. -/
structure UeData where
  uiSeqIdentifier : UInt64
  uiImsi : UInt64
  uiS11 : UInt16
  uiSgws5s8c : UInt16
  uiPgws5s8c : UInt16
  mapSxConfig : ConfigMap
  s1uContent : UInt16
  sgwS5S8Content : UInt16
  pgwS5S8Content : UInt16
  sgiContent : UInt16
  mapIntfcConfig : ConfigMap
  uiForward : UInt16
  strStartTime : List Char
  strStopTime : List Char
  ackReceived : UInt16
  deriving DecidableEq

section

def ueLine (d : UeData) : List Char :=
  decimal d.uiSeqIdentifier.toNat ++ (',' :: decimal d.uiImsi.toNat) ++
    (',' :: decimal d.uiS11.toNat) ++ (',' :: decimal d.uiSgws5s8c.toNat) ++
    (',' :: decimal d.uiPgws5s8c.toNat) ++ (',' :: convertMapToConfigString d.mapSxConfig) ++
    (',' :: decimal d.s1uContent.toNat) ++ (',' :: decimal d.sgwS5S8Content.toNat) ++
    (',' :: decimal d.pgwS5S8Content.toNat) ++ (',' :: decimal d.sgiContent.toNat) ++
    (',' :: convertMapToConfigString d.mapIntfcConfig) ++ (',' :: decimal d.uiForward.toNat) ++
    (',' :: d.strStartTime) ++ (',' :: d.strStopTime) ++ (',' :: decimal d.ackReceived.toNat)

def readWord (d : UeData) (word : List Char × Nat) : UeData :=
  let strWord := word.1
  match word.2 with
  | 0 => { d with uiSeqIdentifier := readUInt64 strWord }
  | 1 => { d with uiImsi := readUInt64 strWord }
  | 2 => { d with uiS11 := readUInt16 strWord }
  | 3 => { d with uiSgws5s8c := readUInt16 strWord }
  | 4 => { d with uiPgws5s8c := readUInt16 strWord }
  | 5 => { d with mapSxConfig := convertStringToMap strWord d.mapSxConfig }
  | 6 => { d with s1uContent := readUInt16 strWord }
  | 7 => { d with sgwS5S8Content := readUInt16 strWord }
  | 8 => { d with pgwS5S8Content := readUInt16 strWord }
  | 9 => { d with sgiContent := readUInt16 strWord }
  | 10 => { d with mapIntfcConfig := convertStringToMap strWord d.mapIntfcConfig }
  | 11 => { d with uiForward := readUInt16 strWord }
  | 12 => { d with strStartTime := strWord }
  | 13 => { d with strStopTime := strWord }
  | 14 => { d with ackReceived := readUInt16 strWord }
  | _ => d

/-- The loop over the words of a line; `raw` is what the structure holds before. -/
def readUeData (raw : UeData) (strLine : List Char) : UeData :=
  (getlines ',' [] strLine).zipIdx.foldl readWord
    { raw with
      mapSxConfig := .empty
      mapIntfcConfig := .empty
      strStartTime := []
      strStopTime := [] }

def readEntries (raw : UeData) (file : List Char) : List UeData :=
  (getlines '\n' [] file).map (readUeData raw)

def lineId (strLine : List Char) : Option UInt64 :=
  match getlines ',' [] strLine with
  | [] => none
  | strWord :: _ => some (readUInt64 strWord)

def ofOther (modUeData : UeData) (strLine : List Char) : Bool :=
  match lineId strLine with
  | none => false
  | some id => id ≠ modUeData.uiSeqIdentifier

inductive UeUpdate where
  | add (modUeData : UeData)
  | delete (modUeData : UeData)

/-- `UpdateUeConfig`: `ADD_ACTION` appends a line, `DELETE_ACTION` writes the other lines again. -/
def updateUeConfig (file : List Char) : UeUpdate → List Char
  | .add modUeData => file ++ (ueLine modUeData ++ ['\n'])
  | .delete modUeData =>
    ((getlines '\n' [] file).filter (ofOther modUeData)).flatMap (· ++ ['\n'])

end

section

def milliseconds : Int := 1000
def stopUeAck : UInt16 := 8
def deleteAck : UInt16 := 10

structure UeEntry where
  data : UeData
  iTimeToStart : Int
  iTimeToStop : Int
  deriving DecidableEq

/-- `mapUeConfig`, and the entries for which timers were started. -/
structure UeConfig where
  mapUeConfig : UInt64 → Option UeEntry
  timers : List UInt64

/-- What the calls of `getTimeDiffInMilliSec` for the start and for the stop of a UE return. The broken-down
time that a call fills is not cleared before, so that a time and a text do not determine the result. -/
structure TimeDiffs where
  start : Int
  stop : Int
  deriving DecidableEq

def ueEntry (times : TimeDiffs) (data : UeData) : UeEntry where
  data
  iTimeToStart := if times.start ≤ 0 ∧ 0 < times.stop then milliseconds else times.start
  iTimeToStop := times.stop

/-- A line of `ReadUeConfig`. -/
def readUeLine (raw : UeData) (s : UeConfig) (times : TimeDiffs) (strLine : List Char) : UeConfig :=
  let data := readUeData raw strLine
  if data.ackReceived = deleteAck ∨ data.ackReceived = stopUeAck then s
  else
    { mapUeConfig :=
        match s.mapUeConfig data.uiSeqIdentifier with
        | some _ => s.mapUeConfig
        | none => Function.update s.mapUeConfig data.uiSeqIdentifier (some (ueEntry times data))
      timers :=
        if times.start ≤ 0 ∧ times.stop ≤ 0 then s.timers else s.timers ++ [data.uiSeqIdentifier] }

def emptyConfig : UeConfig where
  mapUeConfig := fun _ => none
  timers := []

/-- `ReadUeConfig`, with what the calls for each line return. -/
def readUeConfig (times : Nat → TimeDiffs) (raw : UeData) (file : List Char) : UeConfig :=
  (getlines '\n' [] file).zipIdx.foldl (fun s (strLine, i) => readUeLine raw s (times i) strLine) emptyConfig

end

open Epc.Lib Epc.Lib.Run Function

section

def pairText (e : UInt16 × UInt16) : List Char :=
  decimal e.1.toNat ++ '-' :: decimal e.2.toNat

@[simp]
theorem readUInt16_decimal (x : UInt16) : readUInt16 (decimal x.toNat) = x := by
  rw [readUInt16, readUnsigned_decimal x.toNat_lt, UInt16.ofNat_toNat]

@[simp]
theorem readUInt64_decimal (x : UInt64) : readUInt64 (decimal x.toNat) = x := by
  rw [readUInt64, readUnsigned_decimal x.toNat_lt, UInt64.ofNat_toNat]

theorem readPair_pairText (e : UInt16 × UInt16) : readPair (pairText e) = e := by
  have parts : getlines '-' [] (pairText e) = [decimal e.1.toNat, decimal e.2.toNat] := by
    have text : pairText e = decimal e.1.toNat ++ [decimal e.2.toNat].flatMap ('-' :: ·) := by
      simp [pairText]
    rw [text, getlines_separated]
    · simp [notMem_decimal]
    · exact decimal_ne_nil _
  rw [readPair, parts]
  simp

theorem notMem_configString {c : Char} (noDigit : c.isDigit = false) (hash : c ≠ '#') (dash : c ≠ '-')
    (uiCnt : UInt8) (entries : List (UInt16 × UInt16)) : c ∉ configString uiCnt entries := by
  induction entries generalizing uiCnt with
  | nil => exact not_mem_nil
  | cons e rest ih =>
    have digits := notMem_decimal noDigit
    simp only [configString, mem_append, mem_cons, not_or]
    refine ⟨⟨?_, digits _, dash, digits _⟩, ih _⟩
    split <;> simp [hash]

theorem hash_notMem_pairText (e : UInt16 × UInt16) : '#' ∉ pairText e := by
  simp [pairText, notMem_decimal]

theorem pairText_ne_nil (e : UInt16 × UInt16) : pairText e ≠ [] := by
  simp [pairText]

theorem configString_rest (uiCnt : UInt8) (entries : List (UInt16 × UInt16))
    (counted : entries ≠ [] → uiCnt ≠ 0) (few : uiCnt.toNat + entries.length ≤ 256) :
    configString uiCnt entries = (entries.map pairText).flatMap ('#' :: ·) := by
  induction entries generalizing uiCnt with
  | nil => rfl
  | cons e rest ih =>
    rw [length_cons] at few
    have next : rest ≠ [] → uiCnt + 1 ≠ 0 ∧ (uiCnt + 1).toNat = uiCnt.toNat + 1 := by
      intro more
      have pos := length_pos_iff.mpr more
      have plain : (uiCnt + 1).toNat = uiCnt.toNat + 1 := by
        rw [UInt8.toNat_add, UInt8.toNat_one]
        omega
      refine ⟨fun zero => ?_, plain⟩
      rw [zero, UInt8.toNat_zero] at plain
      omega
    rw [configString, if_pos (counted (cons_ne_nil _ _)), map_cons, flatMap_cons]
    have tail : configString (uiCnt + 1) rest = (rest.map pairText).flatMap ('#' :: ·) := by
      cases rest with
      | nil => rfl
      | cons e' rest =>
        obtain ⟨nonzero, plain⟩ := next (cons_ne_nil _ _)
        refine ih (uiCnt + 1) (fun _ => nonzero) ?_
        omega
    rw [tail]
    rfl

theorem getlines_convertMapToConfigString (map : ConfigMap) (few : map.entries.length ≤ 256) :
    getlines '#' [] (convertMapToConfigString map) = map.entries.map pairText := by
  rw [convertMapToConfigString]
  cases entries : map.entries with
  | nil => rfl
  | cons e rest =>
    rw [entries, length_cons] at few
    have text : configString 0 (e :: rest) =
        pairText e ++ (rest.map pairText).flatMap ('#' :: ·) := by
      rw [configString, if_neg (not_not.mpr rfl), nil_append]
      rw [configString_rest (0 + 1) rest (fun _ => by decide)]
      · rfl
      · change 1 + rest.length ≤ 256
        omega
    rw [text, getlines_separated]
    · rfl
    · intro word mem
      rw [← map_cons] at mem
      obtain ⟨e', -, rfl⟩ := mem_map.mp mem
      exact hash_notMem_pairText e'
    · have written : ∀ word ∈ pairText e :: rest.map pairText, word ≠ [] := by
        intro word mem
        rw [← map_cons] at mem
        obtain ⟨e', -, rfl⟩ := mem_map.mp mem
        exact pairText_ne_nil e'
      exact written _ (getLast_mem _)

theorem insertEntry_last {e : UInt16 × UInt16} {xs : List (UInt16 × UInt16)}
    (before : ∀ x ∈ xs, x.1 < e.1) : insertEntry e xs = xs ++ [e] := by
  induction xs with
  | nil => rfl
  | cons x xs ih =>
    obtain ⟨first, others⟩ := forall_mem_cons.mp before
    rw [insertEntry, if_neg (UInt16.not_lt.mpr (UInt16.le_of_lt first)),
      if_neg (Ne.symm (UInt16.ne_of_lt first)), ih others]
    rfl

theorem entries_foldl_insert (es : List (UInt16 × UInt16)) (map : ConfigMap)
    (sorted : (map.entries ++ es).Pairwise fun a b => a.1 < b.1) :
    (es.foldl ConfigMap.insert map).entries = map.entries ++ es := by
  induction es generalizing map with
  | nil => rw [append_nil]; rfl
  | cons e es ih =>
    have before : ∀ x ∈ map.entries, x.1 < e.1 := fun x mem =>
      (pairwise_append.mp sorted).2.2 x mem e mem_cons_self
    have inserted : (map.insert e).entries = map.entries ++ [e] := insertEntry_last before
    have same : (map.insert e).entries ++ es = map.entries ++ e :: es := by
      rw [inserted, append_assoc, singleton_append]
    rw [foldl_cons, ih, same]
    rw [same]
    exact sorted

theorem convertStringToMap_convertMapToConfigString (map : ConfigMap) (few : map.entries.length ≤ 256) :
    convertStringToMap (convertMapToConfigString map) .empty = map := by
  rw [convertStringToMap, getlines_convertMapToConfigString map few, foldl_map]
  simp only [readPair_pairText]
  exact ConfigMap.ext (entries_foldl_insert map.entries .empty map.sorted)

end

section

/-- The times are non-empty without separators, the maps fit the counter. -/
structure UeData.WellFormed (d : UeData) : Prop where
  start : d.strStartTime ≠ []
  stop : d.strStopTime ≠ []
  startPlain : ∀ c ∈ d.strStartTime, c ≠ ',' ∧ c ≠ '\n'
  stopPlain : ∀ c ∈ d.strStopTime, c ≠ ',' ∧ c ≠ '\n'
  sx : d.mapSxConfig.entries.length ≤ 256
  intfc : d.mapIntfcConfig.entries.length ≤ 256

def UeData.words (d : UeData) : List (List Char) :=
  [decimal d.uiImsi.toNat, decimal d.uiS11.toNat, decimal d.uiSgws5s8c.toNat,
    decimal d.uiPgws5s8c.toNat, convertMapToConfigString d.mapSxConfig, decimal d.s1uContent.toNat,
    decimal d.sgwS5S8Content.toNat, decimal d.pgwS5S8Content.toNat, decimal d.sgiContent.toNat,
    convertMapToConfigString d.mapIntfcConfig, decimal d.uiForward.toNat, d.strStartTime,
    d.strStopTime, decimal d.ackReceived.toNat]

theorem ueLine_eq (d : UeData) :
    ueLine d = decimal d.uiSeqIdentifier.toNat ++ d.words.flatMap (',' :: ·) := by
  simp only [ueLine, UeData.words, flatMap_cons, flatMap_nil, append_nil, append_assoc]

variable {d : UeData} (wellFormed : d.WellFormed)

include wellFormed

theorem notMem_words {c : Char} (separator : c = ',' ∨ c = '\n') :
    ∀ word ∈ decimal d.uiSeqIdentifier.toNat :: d.words, c ∉ word := by
  have noDigit : c.isDigit = false := by
    rcases separator with rfl | rfl <;> decide
  have digits := notMem_decimal noDigit
  have config (map : ConfigMap) : c ∉ convertMapToConfigString map := by
    refine notMem_configString noDigit ?_ ?_ 0 map.entries
    · rcases separator with rfl | rfl <;> decide
    · rcases separator with rfl | rfl <;> decide
  have start : c ∉ d.strStartTime := fun mem => by
    rcases separator with rfl | rfl
    · exact (wellFormed.startPlain _ mem).1 rfl
    · exact (wellFormed.startPlain _ mem).2 rfl
  have stop : c ∉ d.strStopTime := fun mem => by
    rcases separator with rfl | rfl
    · exact (wellFormed.stopPlain _ mem).1 rfl
    · exact (wellFormed.stopPlain _ mem).2 rfl
  simp only [UeData.words, forall_mem_cons, digits, config, start, stop, not_false_eq_true,
    true_and]
  exact forall_mem_nil _

theorem getlines_ueLine : getlines ',' [] (ueLine d) = decimal d.uiSeqIdentifier.toNat :: d.words := by
  rw [ueLine_eq, getlines_separated (notMem_words wellFormed (.inl rfl))]
  exact decimal_ne_nil _

theorem newline_notMem_ueLine : '\n' ∉ ueLine d := by
  rw [ueLine_eq, mem_append, mem_flatMap]
  rintro (first | ⟨word, mem, inside⟩)
  · exact notMem_words wellFormed (.inr rfl) _ mem_cons_self first
  · rcases mem_cons.mp inside with comma | inside
    · cases comma
    · exact notMem_words wellFormed (.inr rfl) word (mem_cons_of_mem _ mem) inside

theorem readUeData_ueLine (raw : UeData) : readUeData raw (ueLine d) = d := by
  rw [readUeData, getlines_ueLine wellFormed]
  simp only [UeData.words, zipIdx_cons, zipIdx_nil, foldl_cons, foldl_nil, readWord,
    readUInt16_decimal, readUInt64_decimal,
    convertStringToMap_convertMapToConfigString _ wellFormed.sx,
    convertStringToMap_convertMapToConfigString _ wellFormed.intfc]

theorem lineId_ueLine : lineId (ueLine d) = some d.uiSeqIdentifier := by
  rw [lineId, getlines_ueLine wellFormed]
  simp

end

section

def fileIds (file : List Char) : List UInt64 :=
  (getlines '\n' [] file).filterMap lineId

def UeUpdate.Ok (file : List Char) : UeUpdate → Prop
  | .add d => d.WellFormed ∧ d.uiSeqIdentifier ∉ fileIds file
  | .delete _ => True

def UeUpdate.current (id : UInt64) (before : Option UeData) : UeUpdate → Option UeData
  | .add d => if d.uiSeqIdentifier = id then some d else before
  | .delete d => if d.uiSeqIdentifier = id then none else before

/-- The entry that was last added for an identifier and not deleted since. -/
def current (updates : List UeUpdate) (id : UInt64) : Option UeData :=
  updates.foldl (UeUpdate.current id) none

structure Stored (store : List UeData) (file : List Char) : Prop where
  lines : file = (store.map ueLine).flatMap (· ++ ['\n'])
  wellFormed : ∀ d ∈ store, d.WellFormed

namespace Stored

variable {store : List UeData} {file : List Char} (stored : Stored store file)

include stored

theorem getlines_eq : getlines '\n' [] file = store.map ueLine := by
  rw [stored.lines, getlines_lines]
  intro line mem
  obtain ⟨d, given, rfl⟩ := mem_map.mp mem
  exact newline_notMem_ueLine (stored.wellFormed d given)

theorem fileIds_eq : fileIds file = store.map UeData.uiSeqIdentifier := by
  rw [fileIds, stored.getlines_eq, filterMap_map, ← filterMap_eq_map]
  refine filterMap_congr fun d given => ?_
  rw [comp_apply, lineId_ueLine (stored.wellFormed d given), comp_apply]

theorem readEntries_eq (raw : UeData) : readEntries raw file = store := by
  rw [readEntries, stored.getlines_eq, map_map]
  have same : ∀ d ∈ store, (readUeData raw ∘ ueLine) d = id d := fun d given => by
    rw [comp_apply, readUeData_ueLine (stored.wellFormed d given), id]
  rw [map_congr_left same, map_id]

theorem add {d : UeData} (wellFormed : d.WellFormed) :
    Stored (store ++ [d]) (updateUeConfig file (.add d)) := by
  refine ⟨?_, ?_⟩
  · rw [updateUeConfig, stored.lines, map_append, flatMap_append]
    simp
  · intro x mem
    rcases mem_append.mp mem with old | new
    · exact stored.wellFormed x old
    · rw [mem_singleton.mp new]
      exact wellFormed

theorem delete (d : UeData) :
    Stored (store.filter fun x => x.uiSeqIdentifier ≠ d.uiSeqIdentifier)
      (updateUeConfig file (.delete d)) := by
  refine ⟨?_, fun x mem => stored.wellFormed x (mem_of_mem_filter mem)⟩
  have same : ∀ x ∈ store, (ofOther d ∘ ueLine) x = decide (x.uiSeqIdentifier ≠ d.uiSeqIdentifier) :=
    fun x given => by
      rw [comp_apply, ofOther, lineId_ueLine (stored.wellFormed x given)]
  rw [updateUeConfig, stored.getlines_eq, filter_map, filter_congr same]

end Stored

def UeData.Kept (d : UeData) : Prop :=
  d.ackReceived ≠ deleteAck ∧ d.ackReceived ≠ stopUeAck

instance decidableKept (d : UeData) : Decidable d.Kept :=
  inferInstanceAs (Decidable (_ ∧ _))

theorem readUeLine_ueLine {d : UeData} (wellFormed : d.WellFormed) (times : TimeDiffs)
    (raw : UeData) (s : UeConfig) (id : UInt64) :
    (readUeLine raw s times (ueLine d)).mapUeConfig id =
      (s.mapUeConfig id).or
        (if d.uiSeqIdentifier = id ∧ d.Kept then some (ueEntry times d) else none) := by
  rw [readUeLine, readUeData_ueLine wellFormed]
  by_cases kept : d.Kept
  · rw [if_neg (not_or.mpr kept)]
    dsimp only
    by_cases same : d.uiSeqIdentifier = id
    · subst same
      rw [if_pos ⟨rfl, kept⟩]
      cases found : s.mapUeConfig d.uiSeqIdentifier with
      | none => exact update_self ..
      | some e => exact found
    · rw [if_neg fun both => same both.1, Option.or_none]
      cases found : s.mapUeConfig d.uiSeqIdentifier with
      | none => exact update_of_ne (Ne.symm same) ..
      | some e => rfl
  · have dropped : d.ackReceived = deleteAck ∨ d.ackReceived = stopUeAck := by
      by_contra neither
      exact kept (not_or.mp neither)
    rw [if_pos dropped, if_neg fun both => kept both.2, Option.or_none]

theorem mapUeConfig_foldl (times : Nat → TimeDiffs) (raw : UeData) {id : UInt64}
    {store : List UeData} (wellFormed : ∀ d ∈ store, d.WellFormed)
    (once : (store.filter fun d => d.uiSeqIdentifier = id).length ≤ 1) (n : Nat) (s : UeConfig) :
    (((store.map ueLine).zipIdx n).foldl (fun s (strLine, i) => readUeLine raw s (times i) strLine)
        s).mapUeConfig id =
      (s.mapUeConfig id).or (((store.find? fun d => d.uiSeqIdentifier = id).filter fun d => d.Kept).map
        (ueEntry (times (n + store.findIdx fun d => d.uiSeqIdentifier = id)))) := by
  induction store generalizing n s with
  | nil => exact (Option.or_none).symm
  | cons d rest ih =>
    obtain ⟨first, others⟩ := forall_mem_cons.mp wellFormed
    have onceRest := ((sublist_cons_self d rest).filter _).length_le.trans once
    rw [map_cons, zipIdx_cons, foldl_cons, ih others onceRest, readUeLine_ueLine first, Option.or_assoc]
    congr 1
    by_cases here : d.uiSeqIdentifier = id
    · have absent : (rest.find? fun d => d.uiSeqIdentifier = id) = none := by
        rw [filter_cons_of_pos (by simpa using here), length_cons] at once
        rw [← head?_filter, length_eq_zero_iff.mp (Nat.le_zero.mp (Nat.le_of_succ_le_succ once)), head?_nil]
      by_cases kept : d.Kept <;> simp [absent, here, kept, findIdx_cons, Option.filter]
    · rw [if_neg fun both => here both.1, Option.none_or, find?_cons_of_neg (by simpa using here), findIdx_cons,
        decide_eq_false here, cond_false, Nat.add_right_comm, Nat.add_assoc]

theorem stored_run (updates : List UeUpdate) (guarded : Guarded updateUeConfig UeUpdate.Ok [] updates) :
    ∃ store, Stored store (run updateUeConfig [] updates) ∧
      ∀ id, (store.filter fun d => d.uiSeqIdentifier = id) = (current updates id).toList := by
  induction updates using List.reverseRecOn with
  | nil => exact ⟨[], ⟨rfl, forall_mem_nil _⟩, fun _ => rfl⟩
  | append_singleton updates update ih =>
    obtain ⟨before, due, -⟩ := (guarded_append _ _ _ _ _).mp guarded
    obtain ⟨store, stored, entries⟩ := ih before
    have next (id : UInt64) : current (updates ++ [update]) id =
        update.current id (current updates id) := by
      rw [current, foldl_append]
      rfl
    rw [run_append, run_cons, run_nil]
    cases update with
    | add d =>
      refine ⟨store ++ [d], stored.add due.1, fun id => ?_⟩
      rw [filter_append, next, UeUpdate.current, entries]
      by_cases same : d.uiSeqIdentifier = id
      · have absent := due.2
        rw [stored.fileIds_eq, mem_map] at absent
        have none : (current updates id).toList = [] := by
          rw [← entries, filter_eq_nil_iff]
          exact fun x mem => by
            simpa using fun equal => absent ⟨x, mem, equal.trans same.symm⟩
        rw [none, if_pos same, filter_singleton]
        simp [same]
      · rw [if_neg same, filter_singleton]
        simp [same]
    | delete d =>
      refine ⟨_, stored.delete d, fun id => ?_⟩
      rw [next, UeUpdate.current, filter_filter]
      by_cases same : d.uiSeqIdentifier = id
      · rw [if_pos same]
        refine filter_eq_nil_iff.mpr fun x _ => ?_
        simp [same]
      · rw [if_neg same, ← entries]
        refine filter_congr fun x _ => ?_
        by_cases here : x.uiSeqIdentifier = id
        · simp [here, Ne.symm same]
        · simp [here]

/-- The file has one entry for each identifier added and not deleted since, the last one, and
`ReadUeConfig` keeps those not acknowledged as deleted or stopped. -/
theorem ueDatabase_run (times : Nat → TimeDiffs) (raw : UeData) (updates : List UeUpdate)
    (guarded : Guarded updateUeConfig UeUpdate.Ok [] updates) (id : UInt64) :
    ((readEntries raw (run updateUeConfig [] updates)).filter fun d => d.uiSeqIdentifier = id) =
        (current updates id).toList ∧
      (readUeConfig times raw (run updateUeConfig [] updates)).mapUeConfig id =
        ((current updates id).filter fun d => d.Kept).map (ueEntry (times
          ((readEntries raw (run updateUeConfig [] updates)).findIdx fun d => d.uiSeqIdentifier = id))) := by
  obtain ⟨store, stored, entries⟩ := stored_run updates guarded
  have found : (store.find? fun d => d.uiSeqIdentifier = id) = current updates id := by
    rw [← head?_filter, entries]
    cases current updates id <;> rfl
  have once : (store.filter fun d => d.uiSeqIdentifier = id).length ≤ 1 := by
    rw [entries]
    exact Option.length_toList_le
  rw [stored.readEntries_eq, readUeConfig, stored.getlines_eq,
    mapUeConfig_foldl times raw stored.wellFormed once, found, Nat.zero_add]
  exact ⟨entries id, rfl⟩

def firstUe : UeData where
  uiSeqIdentifier := 7
  uiImsi := 310170123456789
  uiS11 := 1
  uiSgws5s8c := 0
  uiPgws5s8c := 0
  mapSxConfig := ⟨[(1, 3), (2, 65535)], by decide⟩
  s1uContent := 2
  sgwS5S8Content := 0
  pgwS5S8Content := 0
  sgiContent := 0
  mapIntfcConfig := .empty
  uiForward := 1
  strStartTime := ['0', '1', 'T', '0', 'Z']
  strStopTime := ['0', '9', 'T', '0', 'Z']
  ackReceived := 0

def secondUe : UeData :=
  { firstUe with
    uiSeqIdentifier := 8
    ackReceived := 8 }

theorem wellFormed_firstUe : firstUe.WellFormed :=
  ⟨by decide, by decide, by simp [firstUe], by simp [firstUe], by decide, by decide⟩

theorem wellFormed_secondUe : secondUe.WellFormed :=
  { wellFormed_firstUe with }

def twoUes : List UeUpdate :=
  [.add firstUe, .add secondUe, .delete firstUe, .add firstUe]

theorem ueDatabase_twoUes :
    Guarded updateUeConfig UeUpdate.Ok [] twoUes ∧
      ((readEntries secondUe (run updateUeConfig [] twoUes)).filter fun d => d.uiSeqIdentifier = 7) =
          (current twoUes 7).toList ∧
        (readUeConfig (fun i => ⟨i, 9⟩) secondUe (run updateUeConfig [] twoUes)).mapUeConfig 7 =
          ((current twoUes 7).filter fun d => d.Kept).map (ueEntry ⟨1, 9⟩) := by
  have guarded : Guarded updateUeConfig UeUpdate.Ok [] twoUes :=
    ⟨⟨wellFormed_firstUe, by decide +kernel⟩, ⟨wellFormed_secondUe, by decide +kernel⟩, trivial,
      ⟨wellFormed_firstUe, by decide +kernel⟩, trivial⟩
  have line : ((readEntries secondUe (run updateUeConfig [] twoUes)).findIdx fun d =>
      d.uiSeqIdentifier = 7) = 1 := by decide +kernel
  have held := ueDatabase_run (fun i => ⟨i, 9⟩) secondUe twoUes guarded 7
  rw [line] at held
  exact ⟨guarded, held⟩

end

end Epc.Admf
