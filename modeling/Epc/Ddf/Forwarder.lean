import Epc.Lib.Run
import Mathlib

/-! The forwarder of intercepted packets to DF: `sendPacketToDf`, `setPending`, `sendPending` and
`msgCounter` (`ulpc/d_df/src/TCPListener.cpp`) and the events of its connection
(`ulpc/d_df/src/TCPForwardInterface.cpp`). Every packet is written to a file before it is sent. The files
are numbered in the order of `fileVect`, and a record is known by its file and its place there; reading
and writing the files succeeds. When the records that it counts as acknowledged are: the acknowledgements
are counted and not told apart, so the packets have to be in flight once each and in order. -/

namespace Epc.Ddf

def maxEntryCount : Nat := 10000

/-- `SEND_BUF_SIZE`, the size of a record. -/
def sendBufSize : Nat := 4096

/-- The room that `fileVect` reserves; with more files `vecIter` is left dangling. -/
def fileVectCapacity : Nat := 70

structure Record where
  file : Nat
  place : Nat
  deriving DecidableEq, Repr

/-- `TCPListener`, with the number of records of each file. `inFlight` are the packets sent and not
acknowledged, oldest first; `acked` the records DF acknowledged, `deleted` the files gone. -/
structure Forwarder where
  sizes : List Nat := [0]
  fileName : Nat := 0
  vecIter : Nat := 1
  readCount : UInt16 := 0
  entryCnt : UInt16 := 0
  pktCnt : UInt16 := 0
  readBytesTrack : Nat := 0
  sendBytesTrack : Nat := 0
  msgCnt : Nat := 10
  timerFlag : Bool := false
  serveNextFile : Bool := false
  pendingDataFlag : Bool := false
  timerRunning : Bool := false
  connected : Bool := false
  inFlight : List Record := []
  acked : List Record := []
  deleted : List Nat := []
  deriving DecidableEq, Repr

namespace Forwarder

def writeFile (s : Forwarder) : Nat :=
  s.sizes.length - 1

/-- `msg_cnt.Decrement(False)` and `sendData`. -/
def sendData (s : Forwarder) (record : Record) : Forwarder :=
  { s with msgCnt := s.msgCnt - 1, inFlight := s.inFlight ++ [record] }

/-- The packets after the last acknowledged one are sent again, unless another file is served. -/
def rewind (s : Forwarder) : Forwarder :=
  if s.serveNextFile then s
  else { s with sendBytesTrack := s.readBytesTrack, pktCnt := s.readCount }

/-- `setPending`. Its first test compares the unsigned `pkt_cnt` with -1 and never holds. -/
def setPending (s : Forwarder) : Forwarder :=
  if s.pendingDataFlag then s
  else if s.connected then
    { rewind { s with timerFlag := false, pendingDataFlag := true } with timerRunning := true }
  else s

def rollOver (s : Forwarder) : Option Forwarder :=
  if maxEntryCount - 1 < s.entryCnt.toNat then
    let s := if s.pktCnt = s.entryCnt then s else s.setPending
    if s.sizes.length < fileVectCapacity then
      some { s with entryCnt := 0, pktCnt := 0, sizes := s.sizes ++ [0] }
    else none
  else some s

def writeRecord (s : Forwarder) : Forwarder :=
  { s with
    sizes := s.sizes.modify s.writeFile (· + 1)
    entryCnt := s.entryCnt + 1 }

/-- `sendPacketToDf`: a packet is written, and sent if all before it were. -/
def sendPacketToDf (s : Forwarder) : Option Forwarder :=
  s.rollOver.map fun s =>
    let s := s.writeRecord
    if s.pktCnt.toNat + 1 = s.entryCnt.toNat then
      if s.connected ∧ 0 < s.msgCnt then
        { s.sendData ⟨s.writeFile, s.entryCnt.toNat - 1⟩ with pktCnt := s.pktCnt + 1 }
      else s
    else s.setPending

/-- `sendPending`: one unacknowledged record is sent, and again if its acknowledgement has not come
by the next tick. -/
def sendPending (s : Forwarder) : Forwarder :=
  if s.sendBytesTrack ≠ s.readBytesTrack then { s.rewind with timerRunning := true }
  else if s.connected ∧ 0 < s.msgCnt then
    if s.sendBytesTrack / sendBufSize < s.sizes.getD s.fileName 0 then
      { s.sendData ⟨s.fileName, s.sendBytesTrack / sendBufSize⟩ with
        pktCnt := s.pktCnt + 1
        sendBytesTrack := s.sendBytesTrack + sendBufSize }
    else
      -- the end of the file that is read
      let last := s.vecIter = s.sizes.length
      { s with
        timerRunning := false
        pktCnt := if last then s.pktCnt else 65535
        serveNextFile := !last
        vecIter := s.fileName + 1
        pendingDataFlag := false }
  else s

/-- The next file is read, and the one before is deleted. -/
def nextFile (s : Forwarder) : Forwarder :=
  { s with
    readCount := 0
    readBytesTrack := 0
    deleted := s.deleted ++ [s.fileName]
    fileName := s.vecIter
    vecIter := s.vecIter + 1
    serveNextFile := false }

/-- `msgCounter`: any acknowledgement counts for the next record of the file read. -/
def msgCounter (s : Forwarder) : Forwarder :=
  let s := { s with msgCnt := s.msgCnt + 1 }
  let s :=
    if s.readBytesTrack / sendBufSize < s.sizes.getD s.fileName 0 then
      { s with readBytesTrack := s.readBytesTrack + sendBufSize, readCount := s.readCount + 1 }
    else { s with vecIter := s.fileName + 1 }
  if maxEntryCount - 1 < s.readCount.toNat ∧ s.vecIter ≠ s.sizes.length then s.nextFile else s

end Forwarder

/-- A packet to forward; DF's acknowledgement of a packet in flight; a tick; the connection is
there; it is lost, after DF acknowledged the first packets in flight without the acknowledgements
arriving. -/
inductive ForwarderEvent where
  | packet
  | ack (i : Nat)
  | tick
  | established
  | lost (received : Nat)
  deriving DecidableEq, Repr

def ForwarderEvent.exec (s : Forwarder) : ForwarderEvent → Option Forwarder
  | .packet => s.sendPacketToDf
  | .ack i =>
    (s.inFlight[i]?).map fun record =>
      Forwarder.msgCounter
        { s with inFlight := s.inFlight.eraseIdx i, acked := s.acked ++ [record] }
  | .tick =>
    -- with `timer_flag` a new connection takes the place of the one there is
    some (if s.timerFlag then { s with connected := false } else s.sendPending)
  | .established => some { s with connected := true }.setPending
  | .lost received =>
    some { s with
      connected := false
      timerFlag := true
      timerRunning := s.timerRunning || !s.timerFlag
      inFlight := []
      acked := s.acked ++ s.inFlight.take received }

open Epc.Lib Epc.Lib.Run List Option

def Record.number (record : Record) : Nat :=
  record.file * maxEntryCount + record.place

theorem Record.eq_of_number {a b : Record} (inA : a.place < maxEntryCount) (inB : b.place < maxEntryCount)
    (same : a.number = b.number) : a = b := by
  simp only [number, maxEntryCount] at inA inB same ⊢
  rw [Record.mk.injEq]
  omega

namespace Forwarder

def position (s : Forwarder) : Nat :=
  s.fileName * maxEntryCount + s.readCount.toNat

/-- The records that count as acknowledged are, and those of the deleted files. -/
structure Acknowledged (s : Forwarder) : Prop where
  counted : ∀ i < s.readCount.toNat, (⟨s.fileName, i⟩ : Record) ∈ s.acked
  deleted : ∀ file ∈ s.deleted, ∀ i < s.sizes.getD file 0, (⟨file, i⟩ : Record) ∈ s.acked

/-- A packet continues those in flight, or with none the records acknowledged so far. -/
def Follows (s : Forwarder) (record : Record) : Prop :=
  match s.inFlight.getLast? with
  | some last => record.number = last.number + 1
  | none => ∀ x ∈ List.range' s.position (record.number - s.position), ∃ a ∈ s.acked, a.number = x

instance decidableFollows (s : Forwarder) (record : Record) : Decidable (s.Follows record) := by
  unfold Follows
  cases s.inFlight.getLast? <;> infer_instance

def nextRecord (s : Forwarder) : Record :=
  if maxEntryCount - 1 < s.entryCnt.toNat then ⟨s.sizes.length, 0⟩ else ⟨s.writeFile, s.entryCnt.toNat⟩

end Forwarder

/-- Only packets in flight are acknowledged; a connection is lost or found by turns. -/
def ForwarderEvent.Possible (s : Forwarder) : ForwarderEvent → Prop
  | .packet => True
  | .ack i => i < s.inFlight.length
  | .tick => s.timerRunning
  | .established => s.connected = false
  | .lost received => s.connected ∧ received ≤ s.inFlight.length

/-- Packets are acknowledged in order; one that is sent continues those in flight, and from the file
only with none in flight; there is room for the files. -/
def ForwarderEvent.Ok (s : Forwarder) : ForwarderEvent → Prop
  | .packet =>
    (maxEntryCount - 1 < s.entryCnt.toNat → s.sizes.length < fileVectCapacity) ∧
      (s.connected → 0 < s.msgCnt → maxEntryCount - 1 < s.entryCnt.toNat ∨ s.pktCnt = s.entryCnt →
        s.Follows s.nextRecord)
  | .ack i => i = 0
  | .tick => s.timerFlag = false → s.sendBytesTrack = s.readBytesTrack → s.connected → s.inFlight = []
  | .established => True
  | .lost _ => True

instance decidablePossible (s : Forwarder) (event : ForwarderEvent) : Decidable (event.Possible s) := by
  cases event <;> unfold ForwarderEvent.Possible <;> infer_instance

instance decidableForwarderOk (s : Forwarder) (event : ForwarderEvent) : Decidable (event.Ok s) := by
  cases event <;> unfold ForwarderEvent.Ok <;> infer_instance

def ForwarderEvent.step (s : Forwarder) (event : ForwarderEvent) : Forwarder :=
  (event.exec s).getD s

namespace Forwarder

structure Files (s : Forwarder) : Prop where
  sizes : ∃ full, s.sizes = List.replicate full maxEntryCount ++ [s.entryCnt.toNat]
  entries : s.entryCnt.toNat ≤ maxEntryCount
  reading : s.fileName < s.sizes.length
  next : s.vecIter = s.fileName + 1
  bytes : s.readBytesTrack = s.readCount.toNat * sendBufSize
  read : s.readCount.toNat ≤ s.sizes.getD s.fileName 0

/-- The packets in flight follow each other, and the records up to them are acknowledged. -/
structure Flight (s : Forwarder) : Prop where
  inOrder : ∃ start, s.inFlight.map Record.number = List.range' start s.inFlight.length ∧
    s.position ≤ start ∧ ∀ x, s.position ≤ x → x < start → ∃ a ∈ s.acked, a.number = x
  flying : ∀ record ∈ s.inFlight, record.place < maxEntryCount
  landed : ∀ record ∈ s.acked, record.place < maxEntryCount
  counted : ∀ i < s.readCount.toNat, (⟨s.fileName, i⟩ : Record) ∈ s.acked
  deleted : ∀ file ∈ s.deleted, file < s.fileName ∧ ∀ i < maxEntryCount, (⟨file, i⟩ : Record) ∈ s.acked

structure Kept (s s' : Forwarder) : Prop where
  sizes : s'.sizes = s.sizes
  entryCnt : s'.entryCnt = s.entryCnt
  fileName : s'.fileName = s.fileName
  vecIter : s'.vecIter = s.vecIter
  readCount : s'.readCount = s.readCount
  readBytesTrack : s'.readBytesTrack = s.readBytesTrack
  inFlight : s'.inFlight = s.inFlight
  acked : s'.acked = s.acked
  deleted : s'.deleted = s.deleted

variable {s s' : Forwarder}

theorem Kept.refl (s : Forwarder) : Kept s s := ⟨rfl, rfl, rfl, rfl, rfl, rfl, rfl, rfl, rfl⟩

theorem kept_rewind (s : Forwarder) : Kept s s.rewind := by
  unfold rewind
  split <;> exact ⟨rfl, rfl, rfl, rfl, rfl, rfl, rfl, rfl, rfl⟩

theorem kept_setPending (s : Forwarder) : Kept s s.setPending := by
  unfold setPending
  split
  · exact .refl s
  · split
    · have kept := kept_rewind { s with timerFlag := false, pendingDataFlag := true }
      exact ⟨kept.sizes, kept.entryCnt, kept.fileName, kept.vecIter, kept.readCount, kept.readBytesTrack,
        kept.inFlight, kept.acked, kept.deleted⟩
    · exact .refl s

theorem connected_setPending (s : Forwarder) : s.setPending.connected = s.connected := by
  unfold setPending rewind
  split
  · rfl
  · split
    · split <;> rfl
    · rfl

theorem msgCnt_setPending (s : Forwarder) : s.setPending.msgCnt = s.msgCnt := by
  unfold setPending rewind
  split
  · rfl
  · split
    · split <;> rfl
    · rfl

theorem Files.kept (files : Files s) (kept : Kept s s') : Files s' := by
  obtain ⟨sizes, entryCnt, fileName, vecIter, readCount, readBytesTrack, -, -, -⟩ := kept
  refine ⟨?_, ?_, ?_, ?_, ?_, ?_⟩
  · rw [sizes, entryCnt]
    exact files.sizes
  · rw [entryCnt]
    exact files.entries
  · rw [fileName, sizes]
    exact files.reading
  · rw [vecIter, fileName]
    exact files.next
  · rw [readBytesTrack, readCount]
    exact files.bytes
  · rw [readCount, sizes, fileName]
    exact files.read

theorem Flight.kept (flight : Flight s) (fileName : s'.fileName = s.fileName)
    (readCount : s'.readCount = s.readCount) (inFlight : s'.inFlight = s.inFlight)
    (acked : s'.acked = s.acked) (deleted : s'.deleted = s.deleted) : Flight s' := by
  have position : s'.position = s.position := by rw [Forwarder.position, fileName, readCount]; rfl
  refine ⟨?_, ?_, ?_, ?_, ?_⟩
  · rw [inFlight, acked, position]
    exact flight.inOrder
  · rw [inFlight]
    exact flight.flying
  · rw [acked]
    exact flight.landed
  · rw [readCount, fileName, acked]
    exact flight.counted
  · rw [deleted, fileName, acked]
    exact flight.deleted

theorem Flight.of_kept (flight : Flight s) (kept : Kept s s') : Flight s' :=
  flight.kept kept.fileName kept.readCount kept.inFlight kept.acked kept.deleted

theorem Files.size_writeFile (files : Files s) : s.sizes.getD s.writeFile 0 = s.entryCnt.toNat := by
  obtain ⟨full, sizes⟩ := files.sizes
  rw [writeFile, sizes]
  simp

theorem Files.size_le (files : Files s) (file : Nat) : s.sizes.getD file 0 ≤ maxEntryCount := by
  obtain ⟨full, sizes⟩ := files.sizes
  rw [sizes]
  have entries := files.entries
  by_cases inside : file < full
  · rw [List.getD_append _ _ _ _ (by simpa using inside)]
    simp [inside]
  · by_cases here : file = full
    · subst here
      simpa [getD_append_right] using entries
    · rw [getD_eq_default]
      · exact Nat.zero_le _
      · rw [length_append, length_replicate, length_singleton]
        omega

variable {record : Record}

theorem Flight.send (flight : Flight s) (follows : s.Follows record)
    (ahead : s.position ≤ record.number) (place : record.place < maxEntryCount) :
    Flight (s.sendData record) := by
  refine ⟨?_, ?_, flight.landed, flight.counted, flight.deleted⟩
  · obtain ⟨start, numbers, later, acknowledged⟩ := flight.inOrder
    rw [Follows] at follows
    cases final : s.inFlight.getLast? with
    | none =>
      rw [final] at follows
      have empty : s.inFlight = [] := getLast?_eq_none_iff.mp final
      refine ⟨record.number, ?_, ahead, fun x from' below => follows x ?_⟩
      · simp [sendData, empty]
      · rw [mem_range'_1]
        change s.position ≤ x at from'
        omega
    | some last =>
      rw [final] at follows
      refine ⟨start, ?_, later, acknowledged⟩
      have lastNumber : last.number + 1 = start + s.inFlight.length := by
        have same := congrArg List.getLast? numbers
        rw [getLast?_map, final, map_some, getLast?_range'] at same
        have nonempty : s.inFlight.length ≠ 0 := by
          intro zero
          rw [eq_nil_of_length_eq_zero zero] at final
          cases final
        rw [if_neg nonempty, some_inj] at same
        omega
      rw [sendData, map_append, map_singleton, numbers, length_append,
        length_singleton, range'_concat, follows, lastNumber, one_mul]
  · intro other mem
    rcases mem_append.mp mem with old | new
    · exact flight.flying other old
    · rw [mem_singleton.mp new]
      exact place

def Ahead (s : Forwarder) : Prop :=
  ∃ start, s.inFlight.map Record.number = List.range' start s.inFlight.length ∧
    s.position < start ∧ ∀ x, s.position ≤ x → x < start → ∃ a ∈ s.acked, a.number = x

theorem Flight.land (flight : Flight s) {rest : List Record} (oldest : s.inFlight = record :: rest) :
    Flight { s with inFlight := rest, acked := s.acked ++ [record] } ∧
      Ahead { s with inFlight := rest, acked := s.acked ++ [record] } := by
  obtain ⟨start, numbers, later, acknowledged⟩ := flight.inOrder
  rw [oldest, map_cons, length_cons, range'_succ, List.cons.injEq] at numbers
  obtain ⟨head, tail⟩ := numbers
  have known : ∀ x, s.position ≤ x → x < start + 1 → ∃ a ∈ s.acked ++ [record], a.number = x := by
    intro x from' below
    by_cases last : x = start
    · exact ⟨record, mem_append_right _ (mem_singleton_self _), head.trans last.symm⟩
    · obtain ⟨a, mem, same⟩ := acknowledged x from' (by omega)
      exact ⟨a, mem_append_left _ mem, same⟩
  have own := oldest ▸ flight.flying
  refine ⟨⟨⟨start + 1, tail, Nat.le_succ_of_le later, known⟩, ?_, ?_, ?_, ?_⟩,
    start + 1, tail, Nat.lt_succ_of_le later, known⟩
  · exact fun other mem => own other (mem_cons_of_mem _ mem)
  · intro other mem
    rcases mem_append.mp mem with old | new
    · exact flight.landed other old
    · rw [mem_singleton.mp new]
      exact own record mem_cons_self
  · exact fun i inside => mem_append_left _ (flight.counted i inside)
  · exact fun file gone => ⟨(flight.deleted file gone).1,
      fun i inside => mem_append_left _ ((flight.deleted file gone).2 i inside)⟩

section

variable (flight : Flight s) (files : Files s)

include flight files

theorem Flight.count (here : s.readCount.toNat < s.sizes.getD s.fileName 0) (ahead : Ahead s) :
    Flight { s with readBytesTrack := s.readBytesTrack + sendBufSize, readCount := s.readCount + 1 } ∧
      Files { s with
        readBytesTrack := s.readBytesTrack + sendBufSize
        readCount := s.readCount + 1 } := by
  have most := files.size_le s.fileName
  have next : (s.readCount + 1).toNat = s.readCount.toNat + 1 := by
    rw [UInt16.toNat_add, UInt16.toNat_one]
    simp only [maxEntryCount] at most
    omega
  obtain ⟨start, numbers, later, known⟩ := ahead
  obtain ⟨a, mem, number⟩ := known s.position le_rfl later
  have own : a = ⟨s.fileName, s.readCount.toNat⟩ :=
    Record.eq_of_number (flight.landed a mem) (lt_of_lt_of_le here most) number
  constructor
  · refine ⟨⟨start, numbers, ?_, fun x from' => known x ?_⟩, flight.flying, flight.landed, ?_,
      flight.deleted⟩
    · change s.fileName * maxEntryCount + (s.readCount + 1).toNat ≤ start
      rw [next]
      exact later
    · change s.fileName * maxEntryCount + (s.readCount + 1).toNat ≤ x at from'
      rw [next] at from'
      exact Nat.le_of_succ_le from'
    · intro i inside
      rw [next] at inside
      rcases Nat.lt_succ_iff_lt_or_eq.mp inside with old | rfl
      · exact flight.counted i old
      · exact own ▸ mem
  · refine ⟨files.sizes, files.entries, files.reading, files.next, ?_, ?_⟩
    · change s.readBytesTrack + sendBufSize = (s.readCount + 1).toNat * sendBufSize
      rw [next, files.bytes, Nat.succ_mul]
    · change (s.readCount + 1).toNat ≤ _
      rw [next]
      exact here

theorem Flight.nextFile (full : maxEntryCount - 1 < s.readCount.toNat)
    (more : s.vecIter ≠ s.sizes.length) : Flight s.nextFile ∧ Files s.nextFile := by
  have most := files.size_le s.fileName
  have read := files.read
  have all : s.readCount.toNat = maxEntryCount := by
    omega
  have position : s.nextFile.position = s.position := by
    rw [Forwarder.position, Forwarder.position, all]
    change s.vecIter * maxEntryCount + 0 = _
    rw [files.next, Nat.succ_mul, Nat.add_zero]
  constructor
  · refine ⟨?_, flight.flying, flight.landed, fun i inside => absurd inside (Nat.not_lt_zero i), ?_⟩
    · rw [position]
      exact flight.inOrder
    · intro file gone
      change file < s.vecIter ∧ _
      rw [files.next]
      rcases mem_append.mp gone with old | new
      · exact ⟨Nat.lt_succ_of_lt (flight.deleted file old).1, (flight.deleted file old).2⟩
      · rw [mem_singleton.mp new]
        exact ⟨Nat.lt_succ_self _, fun i inside => flight.counted i (all ▸ inside)⟩
  · refine ⟨files.sizes, files.entries, ?_, rfl, (Nat.zero_mul _).symm, Nat.zero_le _⟩
    have reading := files.reading
    have next := files.next
    change s.vecIter < s.sizes.length
    omega

theorem Flight.msgCounter {rest : List Record} (oldest : s.inFlight = record :: rest) :
    let s' := Forwarder.msgCounter { s with inFlight := rest, acked := s.acked ++ [record] }
    Flight s' ∧ Files s' := by
  obtain ⟨landed, ahead⟩ := flight.land oldest
  have place : s.readBytesTrack / sendBufSize = s.readCount.toNat := by
    rw [files.bytes]
    exact Nat.mul_div_cancel _ (by decide)
  have counted : ∃ s₁, Flight s₁ ∧ Files s₁ ∧
      Forwarder.msgCounter { s with inFlight := rest, acked := s.acked ++ [record] } =
        if maxEntryCount - 1 < s₁.readCount.toNat ∧ s₁.vecIter ≠ s₁.sizes.length then s₁.nextFile
        else s₁ := by
    by_cases here : s.readCount.toNat < s.sizes.getD s.fileName 0
    · have flight₁ : Flight { s with
          inFlight := rest, acked := s.acked ++ [record], msgCnt := s.msgCnt + 1 } :=
        landed.kept rfl rfl rfl rfl rfl
      have files₁ : Files { s with
          inFlight := rest, acked := s.acked ++ [record], msgCnt := s.msgCnt + 1 } :=
        ⟨files.sizes, files.entries, files.reading, files.next, files.bytes, files.read⟩
      obtain ⟨flight₂, files₂⟩ := flight₁.count files₁ here ahead
      refine ⟨_, flight₂, files₂, ?_⟩
      simp only [Forwarder.msgCounter, place, here, if_true]
    · refine ⟨{ s with
        inFlight := rest, acked := s.acked ++ [record], msgCnt := s.msgCnt + 1,
        vecIter := s.fileName + 1 }, landed.kept rfl rfl rfl rfl rfl,
        ⟨files.sizes, files.entries, files.reading, rfl, files.bytes, files.read⟩, ?_⟩
      simp only [Forwarder.msgCounter, place, here, if_false]
  obtain ⟨s₁, flight₁, files₁, same⟩ := counted
  rw [same]
  split
  case isTrue done => exact flight₁.nextFile files₁ done.1 done.2
  case isFalse => exact ⟨flight₁, files₁⟩

end

theorem Files.newFile (files : Files s) (full : maxEntryCount - 1 < s.entryCnt.toNat) :
    Files { s with entryCnt := 0, pktCnt := 0, sizes := s.sizes ++ [0] } := by
  obtain ⟨count, sizes⟩ := files.sizes
  have entries := files.entries
  have all : s.entryCnt.toNat = maxEntryCount := by
    omega
  have reading := files.reading
  refine ⟨⟨count + 1, ?_⟩, Nat.zero_le _, ?_, files.next, files.bytes, ?_⟩
  · change s.sizes ++ [0] = List.replicate (count + 1) maxEntryCount ++ [0]
    rw [sizes, all, replicate_succ']
  · change s.fileName < (s.sizes ++ [0]).length
    rw [length_append]
    omega
  · change s.readCount.toNat ≤ (s.sizes ++ [0]).getD s.fileName 0
    rw [List.getD_append _ _ _ _ reading]
    exact files.read

theorem modify_append_singleton {α : Type*} (l : List α) (x : α) (f : α → α) :
    (l ++ [x]).modify l.length f = l ++ [f x] := by
  induction l with
  | nil => rfl
  | cons a l ih => simpa using ih

theorem toNat_entryCnt_succ (room : s.entryCnt.toNat < maxEntryCount) :
    (s.entryCnt + 1).toNat = s.entryCnt.toNat + 1 := by
  rw [UInt16.toNat_add, UInt16.toNat_one]
  simp only [maxEntryCount] at room
  omega

theorem Files.writeRecord (files : Files s) (room : s.entryCnt.toNat < maxEntryCount) :
    Files s.writeRecord := by
  obtain ⟨count, sizes⟩ := files.sizes
  have next := toNat_entryCnt_succ room
  have written : s.writeRecord.sizes =
      List.replicate count maxEntryCount ++ [s.entryCnt.toNat + 1] := by
    have place : s.writeFile = (List.replicate count maxEntryCount).length := by
      rw [writeFile, sizes]
      simp
    change s.sizes.modify s.writeFile (· + 1) = _
    rw [place, sizes, modify_append_singleton]
  have reading := files.reading
  have read := files.read
  rw [sizes] at reading read
  refine ⟨⟨count, ?_⟩, ?_, ?_, files.next, files.bytes, ?_⟩
  · rw [written, ← next]
    rfl
  · change (s.entryCnt + 1).toNat ≤ maxEntryCount
    rw [next]
    exact room
  · change s.fileName < s.writeRecord.sizes.length
    rw [written]
    simpa using reading
  · change s.readCount.toNat ≤ s.writeRecord.sizes.getD s.fileName 0
    rw [written]
    by_cases last : s.fileName < count
    · rw [List.getD_append _ _ _ _ (by simpa using last)] at read ⊢
      exact read
    · have here : s.fileName = count := by
        rw [length_append, length_replicate, length_singleton] at reading
        omega
      rw [here, getD_append_right _ _ _ _ (by simp)] at read ⊢
      simp only [length_replicate, Nat.sub_self, getD_cons_zero] at read ⊢
      omega

theorem Follows.congr (follows : s.Follows record) (inFlight : s'.inFlight = s.inFlight)
    (position : s'.position = s.position) (acked : s'.acked = s.acked) : s'.Follows record := by
  rw [Follows, inFlight, position, acked]
  exact follows

theorem Files.position_le (files : Files s) :
    s.position ≤ Record.number ⟨s.writeFile, s.entryCnt.toNat⟩ := by
  have reading := files.reading
  have read := files.read
  have most := files.size_le s.fileName
  have last := files.size_writeFile
  rw [writeFile] at last
  rw [position, Record.number, writeFile]
  dsimp only
  by_cases here : s.fileName = s.sizes.length - 1
  · rw [here, last] at read
    rw [here]
    omega
  · have earlier : (s.fileName + 1) * maxEntryCount ≤ (s.sizes.length - 1) * maxEntryCount :=
      Nat.mul_le_mul_right _ (by omega)
    rw [Nat.succ_mul] at earlier
    omega

structure Rolled (s s₁ : Forwarder) : Prop where
  files : Files s₁
  flight : Flight s₁
  room : s₁.entryCnt.toNat < maxEntryCount
  next : s.nextRecord = ⟨s₁.writeFile, s₁.entryCnt.toNat⟩
  connected : s₁.connected = s.connected
  msgCnt : s₁.msgCnt = s.msgCnt
  inFlight : s₁.inFlight = s.inFlight
  position : s₁.position = s.position
  acked : s₁.acked = s.acked
  sends : s₁.pktCnt.toNat = s₁.entryCnt.toNat →
    maxEntryCount - 1 < s.entryCnt.toNat ∨ s.pktCnt = s.entryCnt

section

variable (flight : Flight s)

include flight

theorem Flight.rollOver (files : Files s)
    (capacity : maxEntryCount - 1 < s.entryCnt.toNat → s.sizes.length < fileVectCapacity) :
    ∃ s₁, s.rollOver = some s₁ ∧ Rolled s s₁ := by
  by_cases full : maxEntryCount - 1 < s.entryCnt.toNat
  · have kept : Kept s (if s.pktCnt = s.entryCnt then s else s.setPending) := by
      split
      · exact .refl s
      · exact kept_setPending s
    have connected : (if s.pktCnt = s.entryCnt then s else s.setPending).connected = s.connected := by
      split
      · rfl
      · exact connected_setPending s
    have msgCnt : (if s.pktCnt = s.entryCnt then s else s.setPending).msgCnt = s.msgCnt := by
      split
      · rfl
      · exact msgCnt_setPending s
    generalize stood : (if s.pktCnt = s.entryCnt then s else s.setPending) = s₀ at kept connected msgCnt
    have files₀ := files.kept kept
    have flight₀ := flight.of_kept kept
    refine ⟨{ s₀ with entryCnt := 0, pktCnt := 0, sizes := s₀.sizes ++ [0] }, ?_, ?_⟩
    · rw [Forwarder.rollOver, if_pos full, stood]
      rw [if_pos (kept.sizes ▸ capacity full)]
    · refine ⟨files₀.newFile (kept.entryCnt ▸ full), flight₀.kept rfl rfl rfl rfl rfl, Nat.succ_pos 9999,
        ?_, connected, msgCnt, kept.inFlight, ?_, kept.acked, fun _ => .inl full⟩
      · rw [nextRecord, if_pos full, writeFile]
        simp [kept.sizes]
      · rw [Forwarder.position, Forwarder.position, kept.fileName, kept.readCount]
  · have room : s.entryCnt.toNat < maxEntryCount := by
      simp only [maxEntryCount] at full ⊢
      omega
    exact ⟨s, by rw [Forwarder.rollOver, if_neg full], files, flight, room,
      by rw [nextRecord, if_neg full], rfl, rfl, rfl, rfl, rfl,
      fun same => .inr (UInt16.toNat_inj.mp same)⟩

theorem Flight.sendPacketToDf (files : Files s) (ok : ForwarderEvent.packet.Ok s) :
    ∃ s', s.sendPacketToDf = some s' ∧ Flight s' ∧ Files s' := by
  obtain ⟨s₁, done, rolled⟩ := flight.rollOver files ok.1
  have next := toNat_entryCnt_succ rolled.room
  have files₂ := rolled.files.writeRecord rolled.room
  have flight₂ : Flight s₁.writeRecord := rolled.flight.kept rfl rfl rfl rfl rfl
  have entry : s₁.writeRecord.entryCnt.toNat = s₁.entryCnt.toNat + 1 := next
  rw [Forwarder.sendPacketToDf, done, map_some]
  refine ⟨_, rfl, ?_⟩
  dsimp only
  split
  case isTrue due =>
    split
    case isTrue up =>
      have written : (⟨s₁.writeRecord.writeFile, s₁.writeRecord.entryCnt.toNat - 1⟩ : Record) =
          s.nextRecord := by
        rw [rolled.next, entry, Nat.add_sub_cancel, writeFile, writeFile, Forwarder.writeRecord,
          length_modify]
      have same : s₁.pktCnt.toNat = s₁.entryCnt.toNat := Nat.succ.inj (due.trans entry)
      have follows := ok.2 (rolled.connected ▸ up.1) (rolled.msgCnt ▸ up.2) (rolled.sends same)
      have sent := flight₂.send (follows.congr rolled.inFlight rolled.position rolled.acked)
        (by rw [rolled.next]; exact rolled.files.position_le) (by rw [rolled.next]; exact rolled.room)
      rw [written]
      exact ⟨sent.kept rfl rfl rfl rfl rfl,
        files₂.sizes, files₂.entries, files₂.reading, files₂.next, files₂.bytes, files₂.read⟩
    case isFalse => exact ⟨flight₂, files₂⟩
  case isFalse =>
    have kept := kept_setPending s₁.writeRecord
    exact ⟨flight₂.of_kept kept, files₂.kept kept⟩

theorem Flight.sendPending (files : Files s)
    (alone : s.sendBytesTrack = s.readBytesTrack → s.connected → s.inFlight = []) :
    Flight s.sendPending ∧ Files s.sendPending := by
  rw [Forwarder.sendPending]
  split
  case isTrue =>
    have kept := kept_rewind s
    have files₁ := files.kept kept
    exact ⟨(flight.of_kept kept).kept rfl rfl rfl rfl rfl,
      files₁.sizes, files₁.entries, files₁.reading, files₁.next, files₁.bytes, files₁.read⟩
  case isFalse level =>
    have level := not_not.mp level
    split
    case isTrue up =>
      split
      case isTrue here =>
        have place : s.sendBytesTrack / sendBufSize = s.readCount.toNat := by
          rw [level, files.bytes]
          exact Nat.mul_div_cancel _ (by decide)
        rw [place] at here ⊢
        have none : s.inFlight.getLast? = none := by
          rw [alone level up.1]
          rfl
        have number : Record.number ⟨s.fileName, s.readCount.toNat⟩ = s.position := rfl
        have follows : s.Follows ⟨s.fileName, s.readCount.toNat⟩ := by
          rw [Follows, none, number, Nat.sub_self]
          exact forall_mem_nil _
        have sent := flight.send follows number.ge (lt_of_lt_of_le here (files.size_le _))
        exact ⟨sent.kept rfl rfl rfl rfl rfl,
          files.sizes, files.entries, files.reading, files.next, files.bytes, files.read⟩
      case isFalse =>
        exact ⟨flight.kept rfl rfl rfl rfl rfl,
          files.sizes, files.entries, files.reading, rfl, files.bytes, files.read⟩
    case isFalse => exact ⟨flight, files⟩

theorem Flight.lost (received : Nat) :
    Flight { s with
      connected := false
      timerFlag := true
      timerRunning := s.timerRunning || !s.timerFlag
      inFlight := []
      acked := s.acked ++ s.inFlight.take received } := by
  refine ⟨⟨s.position, rfl, le_rfl, fun x from' below => ?_⟩, forall_mem_nil _, ?_, ?_, ?_⟩
  · exact absurd (lt_of_le_of_lt from' below) (lt_irrefl _)
  · intro record mem
    rcases mem_append.mp mem with old | new
    · exact flight.landed record old
    · exact flight.flying record (mem_of_mem_take new)
  · exact fun i inside => mem_append_left _ (flight.counted i inside)
  · exact fun file gone => ⟨(flight.deleted file gone).1,
      fun i inside => mem_append_left _ ((flight.deleted file gone).2 i inside)⟩

theorem acknowledged (files : Files s) : Acknowledged s :=
  ⟨flight.counted, fun file gone i inside =>
    (flight.deleted file gone).2 i (lt_of_lt_of_le inside (files.size_le file))⟩

end

end Forwarder

open Forwarder

theorem ForwarderEvent.exec_flight {s : Forwarder} {event : ForwarderEvent} (flight : Flight s)
    (files : Files s) (possible : event.Possible s) (ok : event.Ok s) :
    ∃ s', event.exec s = some s' ∧ Flight s' ∧ Files s' := by
  cases event with
  | packet => exact flight.sendPacketToDf files ok
  | ack i =>
    obtain rfl : i = 0 := ok
    cases oldest : s.inFlight with
    | nil =>
      rw [ForwarderEvent.Possible, oldest] at possible
      cases possible
    | cons record rest =>
      refine ⟨_, ?_, flight.msgCounter files oldest⟩
      rw [ForwarderEvent.exec, oldest]
      rfl
  | tick =>
    refine ⟨_, rfl, ?_⟩
    split
    case isTrue => exact ⟨flight.kept rfl rfl rfl rfl rfl,
      files.sizes, files.entries, files.reading, files.next, files.bytes, files.read⟩
    case isFalse off => exact flight.sendPending files (ok (by simpa using off))
  | established =>
    refine ⟨_, rfl, ?_⟩
    have kept := kept_setPending { s with connected := true }
    have flight₁ : Flight { s with connected := true } := flight.kept rfl rfl rfl rfl rfl
    have files₁ : Files { s with connected := true } :=
      ⟨files.sizes, files.entries, files.reading, files.next, files.bytes, files.read⟩
    exact ⟨flight₁.of_kept kept, files₁.kept kept⟩
  | lost received =>
    exact ⟨_, rfl, flight.lost received,
      files.sizes, files.entries, files.reading, files.next, files.bytes, files.read⟩

theorem flight_start : Flight {} :=
  ⟨⟨0, rfl, le_rfl, fun _ _ below => absurd below (Nat.not_lt_zero _)⟩, forall_mem_nil _,
    forall_mem_nil _, fun i inside => absurd inside (Nat.not_lt_zero i), forall_mem_nil _⟩

theorem files_start : Files {} :=
  ⟨⟨0, rfl⟩, by decide, by decide, rfl, rfl, by decide⟩

/-- In a run in which packets are in flight once each and in order, the records that count as
acknowledged are. -/
theorem forwarderRun_acknowledged (events : List ForwarderEvent)
    (guarded : Guarded ForwarderEvent.step (fun s event => event.Possible s ∧ event.Ok s) {} events)
    (before : List ForwarderEvent) (event : ForwarderEvent) (isPrefix : before ++ [event] <+: events) :
    ∃ s', event.exec (run ForwarderEvent.step {} before) = some s' ∧ s'.Acknowledged := by
  obtain ⟨s', done, flight, files⟩ := guarded.exec_at isPrefix ForwarderEvent.exec
    (fun s => Flight s ∧ Files s) ⟨flight_start, files_start⟩ (fun _ _ => rfl)
    fun _ _ inv ok => ForwarderEvent.exec_flight inv.1 inv.2 ok.1 ok.2
  exact ⟨s', done, acknowledged flight files⟩

def reconnectRun : List ForwarderEvent :=
  [.established, .tick, .packet, .packet, .ack 0, .lost 0, .tick, .established, .tick, .ack 0]

theorem forwarderRun_acknowledged_reconnectRun :
    Guarded ForwarderEvent.step (fun s event => event.Possible s ∧ event.Ok s) {} reconnectRun ∧
      ∃ s', (ForwarderEvent.ack 0).exec (run ForwarderEvent.step {} (reconnectRun.take 9)) = some s' ∧
        s'.Acknowledged := by
  have guarded : Guarded ForwarderEvent.step (fun s event => event.Possible s ∧ event.Ok s) {}
      reconnectRun := by
    decide +kernel
  exact ⟨guarded, forwarderRun_acknowledged reconnectRun guarded (reconnectRun.take 9) (.ack 0)
    prefix_rfl⟩

def doubleRun : List ForwarderEvent :=
  [.established, .packet, .tick, .packet, .ack 0, .ack 0]

/-- The first packet's second acknowledgement counts for the second, which was never sent. -/
theorem doubleRun_not_acknowledged :
    Guarded ForwarderEvent.step (fun s event => event.Possible s) {} doubleRun ∧
      ¬(run ForwarderEvent.step {} doubleRun).Acknowledged := by
  refine ⟨by decide +kernel, fun acknowledged => ?_⟩
  have second := acknowledged.counted 1 (by decide +kernel)
  revert second
  decide +kernel

end Epc.Ddf
