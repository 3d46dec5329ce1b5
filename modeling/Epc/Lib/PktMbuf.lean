import Mathlib.Data.List.GetD
import Mathlib.Data.Nat.Notation

/-! Packet buffers of one segment: a buffer in memory with room before and after the data. A pointer
into the data can be read and written past its end. Taken over from the documentation of `rte_mbuf`:
`prepend` and `append` move the start or the end of the data into the room and `adj` and `trim` out
of it again, each fails where there is not enough, and none of them changes an octet. -/

namespace Epc.Lib

open List

/-- `memory` is read from the start of the buffer on, also behind its end. -/
structure PktMbuf where
  memory : Nat → UInt8
  bufLen : Nat
  dataOff : Nat
  dataLen : Nat
  inside : dataOff + dataLen ≤ bufLen

namespace PktMbuf

def byte (m : PktMbuf) (offset : Nat) : UInt8 :=
  m.memory (m.dataOff + offset)

def data (m : PktMbuf) : List UInt8 :=
  (List.range m.dataLen).map m.byte

def HasAt (m : PktMbuf) (offset : Nat) (octets : List UInt8) : Prop :=
  ∀ i (bound : i < octets.length), m.byte (offset + i) = octets[i]

structure Holds (m : PktMbuf) (octets : List UInt8) : Prop where
  length : m.dataLen = octets.length
  octets : m.HasAt 0 octets

section

variable {m : PktMbuf} {offset : Nat} {octets front back : List UInt8}

@[simp]
theorem hasAt_nil : m.HasAt offset [] := fun _ bound => absurd bound (Nat.not_lt_zero _)

theorem hasAt_append :
    m.HasAt offset (front ++ back) ↔ m.HasAt offset front ∧ m.HasAt (offset + front.length) back := by
  constructor
  · intro has
    constructor
    · intro i bound
      rw [has i (by rw [length_append]; omega), getElem_append_left bound]
    · intro i bound
      rw [Nat.add_assoc, has (front.length + i) (by rw [length_append]; omega),
        getElem_append_right (Nat.le_add_right ..)]
      simp
  · rintro ⟨first, second⟩ i bound
    rw [length_append] at bound
    by_cases before : i < front.length
    · rw [first i before, getElem_append_left before]
    · have here := second (i - front.length) (by omega)
      rw [show offset + front.length + (i - front.length) = offset + i by omega] at here
      rw [here, getElem_append_right (Nat.le_of_not_lt before)]

theorem hasAt_cons {octet : UInt8} :
    m.HasAt offset (octet :: octets) ↔ m.byte offset = octet ∧ m.HasAt (offset + 1) octets := by
  have one : m.HasAt offset [octet] ↔ m.byte offset = octet := by
    constructor
    · intro has
      exact has 0 (Nat.one_pos)
    · intro here i bound
      obtain rfl : i = 0 := Nat.lt_one_iff.mp bound
      exact here
  rw [← singleton_append, hasAt_append, one]
  rfl

theorem HasAt.unique {other : List UInt8} (has : m.HasAt offset octets)
    (hasOther : m.HasAt offset other) (length : octets.length = other.length) : octets = other :=
  ext_getElem length fun i bound otherBound => (has i bound).symm.trans (hasOther i otherBound)

end

/-- `rte_pktmbuf_adj`: octets are taken from the front, if there are as many. -/
def adj (m : PktMbuf) (len : Nat) : Option PktMbuf :=
  if enough : len ≤ m.dataLen then
    some
      { m with
        dataOff := m.dataOff + len
        dataLen := m.dataLen - len
        inside := by have := m.inside; omega }
  else none

/-- `rte_pktmbuf_prepend`: room in front of the data is made part of it. -/
def prepend (m : PktMbuf) (len : Nat) : Option PktMbuf :=
  if headroom : len ≤ m.dataOff then
    some
      { m with
        dataOff := m.dataOff - len
        dataLen := m.dataLen + len
        inside := by have := m.inside; omega }
  else none

/-- `rte_pktmbuf_append`: room behind the data is made part of it. -/
def append (m : PktMbuf) (len : Nat) : Option PktMbuf :=
  if tailroom : m.dataOff + m.dataLen + len ≤ m.bufLen then
    some { m with dataLen := m.dataLen + len, inside := by omega }
  else none

/-- `rte_pktmbuf_trim`: octets are taken from the end, if there are as many. -/
def trim (m : PktMbuf) (len : Nat) : PktMbuf :=
  if len ≤ m.dataLen then
    { m with dataLen := m.dataLen - len, inside := by have := m.inside; omega }
  else m

def write (m : PktMbuf) (offset : Nat) (octets : List UInt8) : PktMbuf :=
  { m with
    memory := fun i =>
      if m.dataOff + offset ≤ i then octets.getD (i - (m.dataOff + offset)) (m.memory i)
      else m.memory i }

def read (m : PktMbuf) (offset count : Nat) : List UInt8 :=
  (List.range count).map fun i => m.byte (offset + i)

/-- Octets at two places change places. -/
def exchange (m : PktMbuf) (first second count : Nat) : PktMbuf :=
  (m.write first (m.read second count)).write second (m.read first count)

section

variable {m : PktMbuf} {offset other : Nat} {octets : List UInt8} {whole whole' : List UInt8}

@[simp]
theorem write_dataLen : (m.write offset octets).dataLen = m.dataLen := rfl

theorem write_byte (i : Nat) :
    (m.write offset octets).byte i =
      if offset ≤ i then octets.getD (i - offset) (m.byte i) else m.byte i := by
  have shifted : m.dataOff + i - (m.dataOff + offset) = i - offset := by omega
  simp only [byte, write, Nat.add_le_add_iff_left, shifted]

theorem write_hasAt : (m.write offset octets).HasAt offset octets := by
  intro i bound
  rw [write_byte, if_pos (Nat.le_add_right ..), Nat.add_sub_cancel_left, getD_eq_getElem _ _ bound]

theorem HasAt.write {kept : List UInt8} (has : m.HasAt other kept)
    (apart : other + kept.length ≤ offset ∨ offset + octets.length ≤ other) :
    (m.write offset octets).HasAt other kept := by
  intro i bound
  rw [write_byte]
  rcases apart with before | behind
  · rw [if_neg (by omega), has i bound]
  · rw [if_pos (by omega), getD_eq_default _ _ (by omega), has i bound]

theorem write_between {front back : List UInt8} (first : m.HasAt offset front)
    (last : m.HasAt (offset + front.length + octets.length) back) :
    (m.write (offset + front.length) octets).HasAt offset (front ++ octets ++ back) := by
  rw [hasAt_append, hasAt_append, length_append, ← Nat.add_assoc]
  exact ⟨⟨first.write (Or.inl (Nat.le_refl _)), write_hasAt⟩, last.write (Or.inr (Nat.le_refl _))⟩

theorem HasAt.read (has : m.HasAt offset octets) : m.read offset octets.length = octets := by
  apply ext_getElem
  · rw [PktMbuf.read, length_map, length_range]
  · intro i bound other
    simp only [PktMbuf.read, getElem_map, getElem_range, has i other]

@[simp]
theorem exchange_dataLen (first second count : Nat) :
    (m.exchange first second count).dataLen = m.dataLen := rfl

theorem exchange_between {front x between y back : List UInt8} {count : Nat}
    (has : m.HasAt offset (front ++ x ++ between ++ y ++ back)) (xLen : x.length = count)
    (yLen : y.length = count) :
    (m.exchange (offset + front.length) (offset + (front ++ x ++ between).length) count).HasAt offset
      (front ++ y ++ between ++ x ++ back) := by
  obtain ⟨beforeBack, backAt⟩ := hasAt_append.mp has
  obtain ⟨beforeY, yAt⟩ := hasAt_append.mp beforeBack
  obtain ⟨beforeBetween, betweenAt⟩ := hasAt_append.mp beforeY
  obtain ⟨frontAt, xAt⟩ := hasAt_append.mp beforeBetween
  have xRead := xAt.read
  have yRead := yAt.read
  rw [xLen] at xRead
  rw [yLen] at yRead
  rw [exchange, xRead, yRead]
  simp only [length_append] at backAt betweenAt ⊢
  have firstWrite : (m.write (offset + front.length) y).HasAt offset (front ++ y ++ between) :=
    write_between frontAt (by rwa [yLen, ← xLen, Nat.add_assoc])
  have place : offset + (front.length + x.length + between.length) =
      offset + (front ++ y ++ between).length := by
    simp only [length_append, xLen, yLen]
  rw [place]
  apply write_between firstWrite
  apply HasAt.write
  · rw [← place, xLen]
    rwa [yLen, ← Nat.add_assoc, xLen] at backAt
  · right
    omega

theorem HasAt.replace (front x y back : List UInt8) {place : Nat}
    (has : m.HasAt 0 whole) (split : whole = front ++ x ++ back) (split' : whole' = front ++ y ++ back)
    (size : y.length = x.length) (start : place = front.length) : (m.write place y).HasAt 0 whole' := by
  subst split split' start
  obtain ⟨before, last⟩ := hasAt_append.mp has
  have between : (m.write (0 + front.length) y).HasAt 0 (front ++ y ++ back) :=
    write_between (hasAt_append.mp before).1 (by rwa [size, Nat.add_assoc, ← length_append])
  rwa [Nat.zero_add] at between

theorem HasAt.extend {whole : List UInt8} (y : List UInt8) {place : Nat} (has : m.HasAt 0 whole)
    (start : place = whole.length) : (m.write place y).HasAt 0 (whole ++ y) := by
  subst start
  have written : (m.write (0 + whole.length) y).HasAt 0 (whole ++ y ++ []) :=
    write_between has hasAt_nil
  rwa [Nat.zero_add, append_nil] at written

theorem HasAt.swap (front x between y back : List UInt8) {first second count : Nat}
    (has : m.HasAt 0 whole) (split : whole = front ++ x ++ between ++ y ++ back)
    (split' : whole' = front ++ y ++ between ++ x ++ back) (xLen : x.length = count)
    (yLen : y.length = count) (start : first = front.length)
    (start' : second = (front ++ x ++ between).length) :
    (m.exchange first second count).HasAt 0 whole' := by
  subst split split' start start'
  have swapped := exchange_between has xLen yLen
  rwa [Nat.zero_add, Nat.zero_add] at swapped

end

section

variable {m m' : PktMbuf} {len offset : Nat} {octets : List UInt8}

theorem byte_of_moved (memory : m'.memory = m.memory) (moved : m'.dataOff = m.dataOff + len)
    (i : Nat) : m'.byte i = m.byte (len + i) := by
  rw [byte, byte, memory, moved, Nat.add_assoc]

theorem adj_of_le (enough : len ≤ m.dataLen) :
    ∃ m', m.adj len = some m' ∧ m'.dataOff = m.dataOff + len ∧ m'.dataLen = m.dataLen - len ∧
      m'.memory = m.memory := by
  rw [adj, dif_pos enough]
  exact ⟨_, rfl, rfl, rfl, rfl⟩

theorem append_of_le (tailroom : m.dataOff + m.dataLen + len ≤ m.bufLen) :
    ∃ m', m.append len = some m' ∧ m'.dataOff = m.dataOff ∧ m'.dataLen = m.dataLen + len ∧
      m'.memory = m.memory := by
  rw [append, dif_pos tailroom]
  exact ⟨_, rfl, rfl, rfl, rfl⟩

theorem prepend_of_le (headroom : len ≤ m.dataOff) :
    ∃ m', m.prepend len = some m' ∧ m'.dataOff = m.dataOff - len ∧ m'.dataLen = m.dataLen + len ∧
      m'.memory = m.memory := by
  rw [prepend, dif_pos headroom]
  exact ⟨_, rfl, rfl, rfl, rfl⟩

end

/-- A buffer with octets as its data and room behind them, filled with an octet. -/
def ofOctets (octets : List UInt8) (fill : UInt8) (tailroom : Nat) : PktMbuf where
  memory i := octets.getD i fill
  bufLen := octets.length + tailroom
  dataOff := 0
  dataLen := octets.length
  inside := by omega

theorem ofOctets_byte (octets : List UInt8) (fill : UInt8) (tailroom i : Nat) :
    (ofOctets octets fill tailroom).byte i = octets.getD i fill := by
  exact congrArg (fun i => octets.getD i fill) (Nat.zero_add i)

theorem ofOctets_holds (octets : List UInt8) (fill : UInt8) (tailroom : Nat) :
    (ofOctets octets fill tailroom).Holds octets := by
  refine ⟨rfl, fun i bound => ?_⟩
  rw [Nat.zero_add, ofOctets_byte, getD_eq_getElem _ _ bound]

end PktMbuf

end Epc.Lib
