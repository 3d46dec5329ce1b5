import Epc.Up.Proof.GpduFrame
import Mathlib.Tactic.Linarith

/-! When the walks of `calculate_user_data_len` over the headers end, and what it returns for a
G-PDU. -/

namespace Epc.Up.Gtpu

open Epc.Lib List Option PktMbuf

section

variable {pkt pkt' : PktMbuf} {rounds l3len r : Nat} {proto : UInt8} {next : UInt8}

variable {p extLen : Nat}

theorem ipv6GetNextExt_len (found : ipv6GetNextExt pkt p proto = some (next, extLen)) : 8 ≤ extLen := by
  unfold ipv6GetNextExt at found
  split at found
  · obtain ⟨-, rfl⟩ := Prod.mk.inj (some.inj found)
    omega
  · split at found
    · obtain ⟨-, rfl⟩ := Prod.mk.inj (some.inj found)
      omega
    · split at found
      · obtain ⟨-, rfl⟩ := Prod.mk.inj (some.inj found)
        omega
      · cases found

theorem ipv6GetNextExt_none {p' : Nat} (none_found : ipv6GetNextExt pkt p proto = none) :
    ipv6GetNextExt pkt' p' proto = none := by
  unfold ipv6GetNextExt at none_found ⊢
  split at none_found
  · cases none_found
  · next ah =>
      split at none_found
      · cases none_found
      · next option =>
          split at none_found
          · cases none_found
          · next fragment => rw [if_neg ah, if_neg option, if_neg fragment]

theorem ipv6GetNextExt_congr (first : pkt.byte p = pkt'.byte p)
    (second : pkt.byte (p + 1) = pkt'.byte (p + 1)) :
    ipv6GetNextExt pkt p proto = ipv6GetNextExt pkt' p proto := by
  simp only [ipv6GetNextExt, first, second]

theorem ipv6Loop_step (inside : proto ≠ ipprotoEsp ∧ l3len < pkt.dataLen)
    (found : ipv6GetNextExt pkt l3len proto = some (next, extLen)) :
    ipv6Loop pkt (rounds + 1) proto l3len = ipv6Loop pkt rounds next (l3len + extLen) := by
  rw [ipv6Loop, if_pos inside, found]

theorem ipv6Loop_stop (stop : ¬(proto ≠ ipprotoEsp ∧ l3len < pkt.dataLen) ∨
    ipv6GetNextExt pkt l3len proto = none) : ipv6Loop pkt rounds proto l3len = some l3len := by
  rw [ipv6Loop]
  split
  · next inside =>
      rw [stop.resolve_left (not_not_intro inside)]
  · rfl

theorem ipv6Loop_cases (pkt : PktMbuf) (proto : UInt8) (l3len : Nat) :
    (¬(proto ≠ ipprotoEsp ∧ l3len < pkt.dataLen) ∨ ipv6GetNextExt pkt l3len proto = none) ∨
      (proto ≠ ipprotoEsp ∧ l3len < pkt.dataLen) ∧
        ∃ next extLen, ipv6GetNextExt pkt l3len proto = some (next, extLen) := by
  by_cases inside : proto ≠ ipprotoEsp ∧ l3len < pkt.dataLen
  · cases found : ipv6GetNextExt pkt l3len proto with
    | none => exact Or.inl (Or.inr rfl)
    | some ext => exact Or.inr ⟨inside, ext.1, ext.2, rfl⟩
  · exact Or.inl (Or.inl inside)

theorem ipv6Loop_zero (inside : proto ≠ ipprotoEsp ∧ l3len < pkt.dataLen)
    (found : ipv6GetNextExt pkt l3len proto = some (next, extLen)) :
    ipv6Loop pkt 0 proto l3len = none := by
  rw [ipv6Loop, if_pos inside, found]

theorem ipv6Loop_ends (pkt : PktMbuf) (proto : UInt8) (l3len : Nat)
    (enough : pkt.dataLen ≤ l3len + rounds) : ∃ r, ipv6Loop pkt rounds proto l3len = some r := by
  induction rounds generalizing proto l3len with
  | zero =>
    refine ⟨l3len, ipv6Loop_stop (Or.inl fun inside => ?_)⟩
    omega
  | succ rounds ih =>
    rcases ipv6Loop_cases pkt proto l3len with stop | ⟨inside, next, extLen, found⟩
    · exact ⟨l3len, ipv6Loop_stop stop⟩
    · have long := ipv6GetNextExt_len found
      rw [ipv6Loop_step inside found]
      exact ih next (l3len + extLen) (by omega)

theorem ipv6Loop_congr (sameLen : pkt.dataLen = pkt'.dataLen)
    (result : ipv6Loop pkt rounds proto l3len = some r) (same : ∀ i < r, pkt.byte i = pkt'.byte i)
    {more : Nat} (enough : rounds ≤ more) : l3len ≤ r ∧ ipv6Loop pkt' more proto l3len = some r := by
  induction rounds generalizing proto l3len more with
  | zero =>
    rcases ipv6Loop_cases pkt proto l3len with stop | ⟨inside, next, extLen, found⟩
    · obtain rfl := some.inj ((ipv6Loop_stop stop).symm.trans result)
      rw [sameLen] at stop
      exact ⟨Nat.le_refl _, ipv6Loop_stop (stop.imp_right ipv6GetNextExt_none)⟩
    · rw [ipv6Loop_zero inside found] at result
      cases result
  | succ rounds ih =>
    rcases ipv6Loop_cases pkt proto l3len with stop | ⟨inside, next, extLen, found⟩
    · obtain rfl := some.inj ((ipv6Loop_stop stop).symm.trans result)
      rw [sameLen] at stop
      exact ⟨Nat.le_refl _, ipv6Loop_stop (stop.imp_right ipv6GetNextExt_none)⟩
    · obtain ⟨more, rfl⟩ : ∃ k, more = k + 1 := ⟨more - 1, by omega⟩
      have long := ipv6GetNextExt_len found
      rw [ipv6Loop_step inside found] at result
      obtain ⟨reached, goes_on⟩ := ih result (Nat.le_of_succ_le_succ enough)
      rw [ipv6GetNextExt_congr (same l3len (by omega)) (same (l3len + 1) (by omega))] at found
      rw [sameLen] at inside
      exact ⟨by omega, by rw [ipv6Loop_step inside found, goes_on]⟩

theorem ipv6Loop_chain {exts : List Ipv6Ext} (has : pkt.HasAt l3len (ipv6Octets exts))
    (behind : l3len + (ipv6Octets exts).length < pkt.dataLen) (enough : exts.length ≤ rounds) :
    ipv6Loop pkt rounds (ipv6Next exts) l3len = some (l3len + (ipv6Octets exts).length) := by
  induction exts generalizing rounds l3len with
  | nil => exact ipv6Loop_stop (Or.inr rfl)
  | cons ext exts ih =>
    obtain ⟨rounds, rfl⟩ : ∃ k, rounds = k + 1 := ⟨rounds - 1, by simp at enough; omega⟩
    rw [ipv6Octets] at has behind ⊢
    obtain ⟨front, rest⟩ := hasAt_append.mp has
    obtain ⟨firsts, -⟩ := hasAt_append.mp front
    obtain ⟨next, seconds⟩ := hasAt_cons.mp firsts
    obtain ⟨second, -⟩ := hasAt_cons.mp seconds
    have sized := ext.sized
    have found : ipv6GetNextExt pkt l3len ext.type =
        some (ipv6Next exts, ext.content.length + 2) := by
      rw [ipv6GetNextExt, next, second, sized]
      rcases ext.known with hop | routing | options | fragment
      · rw [hop]; rfl
      · rw [routing]; rfl
      · rw [options]; rfl
      · rw [fragment]; rfl
    have size : (([ipv6Next exts, ext.second] ++ ext.content).length) =
        ext.content.length + 2 := by
      simp
    rw [size] at rest
    rw [length_append, size] at behind ⊢
    have esp : ext.type ≠ ipprotoEsp := by
      rcases ext.known with hop | routing | options | fragment
      · rw [hop]; decide
      · rw [routing]; decide
      · rw [options]; decide
      · rw [fragment]; decide
    have passed := ih rest (by omega) (Nat.le_of_succ_le_succ enough)
    rw [ipv6Next, ipv6Loop_step ⟨esp, by omega⟩ found, passed, Nat.add_assoc]

end

section

variable {m m' : PktMbuf} {rounds n ipLen : Nat}

theorem adjustIpv6Pktlen_memory (pkt : PktMbuf) : (adjustIpv6Pktlen pkt).byte = pkt.byte := by
  unfold adjustIpv6Pktlen trim
  dsimp only
  split
  · split <;> rfl
  · rfl

theorem adjustIpv6Pktlen_dataLen (pkt : PktMbuf) :
    (adjustIpv6Pktlen pkt).dataLen =
      min pkt.dataLen (256 * (pkt.byte 4).toNat + (pkt.byte 5).toNat + ipv6HdrSize) := by
  unfold adjustIpv6Pktlen trim
  dsimp only
  split
  · rw [if_pos (Nat.sub_le ..)]
    dsimp only
    omega
  · omega

theorem getIPv6HeaderLen_eq (eth : ethHdrSize ≤ m.dataLen) :
    ∃ pkt : PktMbuf, (∀ i, pkt.byte i = m.byte (ethHdrSize + i)) ∧
      pkt.dataLen = min (m.dataLen - ethHdrSize)
        (256 * (m.byte 18).toNat + (m.byte 19).toNat + ipv6HdrSize) ∧
      ∀ rounds, getIPv6HeaderLen rounds m = ipv6Loop pkt rounds (m.byte 20) ipv6HdrSize := by
  obtain ⟨pkt, adjusted, off, len, memory⟩ := adj_of_le eth
  have byte (i : Nat) : pkt.byte i = m.byte (ethHdrSize + i) := by
    rw [PktMbuf.byte, PktMbuf.byte, memory, off, Nat.add_assoc]
  refine ⟨adjustIpv6Pktlen pkt, ?_, ?_, ?_⟩
  · intro i
    rw [adjustIpv6Pktlen_memory, byte]
  · rw [adjustIpv6Pktlen_dataLen, len, byte, byte]
    rfl
  · intro rounds
    rw [getIPv6HeaderLen, adjusted, bind_some]
    dsimp only
    rw [adjustIpv6Pktlen_memory, byte]
    rfl

theorem getIPv6HeaderLen_short (short : ¬ ethHdrSize ≤ m.dataLen) :
    getIPv6HeaderLen rounds m = none := by
  rw [getIPv6HeaderLen, adj, dif_neg short, bind_none]

theorem ipHeaderLen_ends (eth : ethHdrSize ≤ m.dataLen) :
    ∃ ipLen, ipHeaderLen m.dataLen m = some ipLen := by
  unfold ipHeaderLen
  split
  · exact ⟨_, rfl⟩
  · obtain ⟨pkt, -, len, walk⟩ := getIPv6HeaderLen_eq eth
    rw [walk]
    exact ipv6Loop_ends _ _ _ (by omega)

theorem ipHeaderLen_congr (sameLen : m.dataLen = m'.dataLen) (result : ipHeaderLen rounds m = some ipLen)
    (same : ∀ i < ethHdrSize + ipLen, m.byte i = m'.byte i) {more : Nat} (enough : rounds ≤ more) :
    ipHeaderLen more m' = some ipLen := by
  unfold ipHeaderLen at result ⊢
  split at result
  · next v4 =>
      obtain rfl := some.inj result
      rw [same ethHdrSize (by decide)] at v4
      rw [if_pos v4]
  · next v6 =>
      by_cases eth : ethHdrSize ≤ m.dataLen
      · obtain ⟨pkt, byte, len, walk⟩ := getIPv6HeaderLen_eq eth
        obtain ⟨pkt', byte', len', walk'⟩ := getIPv6HeaderLen_eq (sameLen ▸ eth)
        rw [walk] at result
        have header := (ipv6Loop_congr rfl result (fun _ _ => rfl) (Nat.le_refl _)).1
        have inside {i : Nat} (bound : i < ethHdrSize + ipv6HdrSize) : m.byte i = m'.byte i :=
          same i (bound.trans_le (Nat.add_le_add_left header _))
        have pktSame : ∀ i < ipLen, pkt.byte i = pkt'.byte i := by
          intro i bound
          rw [byte, byte', same _ (Nat.add_lt_add_left bound _)]
        have pktLen : pkt.dataLen = pkt'.dataLen := by
          rw [len, len', sameLen, inside (i := 18) (by decide), inside (i := 19) (by decide)]
        rw [inside (i := ethHdrSize) (by decide)] at v6
        rw [if_neg v6, walk', ← inside (i := 20) (by decide)]
        exact (ipv6Loop_congr pktLen result pktSame enough).2
      · rw [getIPv6HeaderLen_short eth] at result
        cases result

end

/-- The GTP-U extension headers walked over inside a frame: from `pos`, a length octet, to `e`,
behind a header whose last octet is zero. -/
inductive ExtChain (frame : List UInt8) : Nat → Nat → Prop
  | last {pos : Nat} {len : UInt8} (length : frame[pos]? = some len)
      (ends : frame[pos + len.toNat - 1]? = some 0) : ExtChain frame pos (pos + len.toNat)
  | more {pos e : Nat} {len next : UInt8} (length : frame[pos]? = some len)
      (type : frame[pos + len.toNat - 1]? = some next) (goes_on : next ≠ 0)
      (rest : ExtChain frame (pos + len.toNat) e) : ExtChain frame pos e

section

variable {frame : List UInt8} {m : PktMbuf} {rounds pos e : Nat}

theorem ExtChain.start_lt (chain : ExtChain frame pos e) : pos < frame.length := by
  cases chain with
  | last length ends => exact (List.getElem?_eq_some_iff.mp length).1
  | more length type goes_on rest => exact (List.getElem?_eq_some_iff.mp length).1

theorem ExtChain.end_le (chain : ExtChain frame pos e) : e ≤ frame.length := by
  induction chain with
  | last length ends =>
    have bound := (List.getElem?_eq_some_iff.mp ends).1
    omega
  | more length type goes_on rest ih => exact ih

theorem byte_of_holds (has : m.HasAt 0 frame) {i : Nat} {octet : UInt8}
    (here : frame[i]? = some octet) : m.byte i = octet := by
  obtain ⟨bound, value⟩ := List.getElem?_eq_some_iff.mp here
  have same := has i bound
  rwa [Nat.zero_add, value] at same

theorem extensionLoop_mono (result : extensionLoop m rounds pos = some e) {more : Nat}
    (enough : rounds ≤ more) : extensionLoop m more pos = some e := by
  induction rounds generalizing pos more with
  | zero => cases result
  | succ rounds ih =>
    obtain ⟨more, rfl⟩ : ∃ k, more = k + 1 := ⟨more - 1, by omega⟩
    rw [extensionLoop] at result ⊢
    split at result
    · next ends => rw [if_pos ends, result]
    · next goes_on =>
        rw [if_neg goes_on]
        exact ih result (Nat.le_of_succ_le_succ enough)

theorem ExtChain.loop (chain : ExtChain frame pos e) (has : m.HasAt 0 frame) :
    ∃ rounds, extensionLoop m rounds pos = some e := by
  induction chain with
  | last length ends =>
    refine ⟨1, ?_⟩
    rw [extensionLoop, byte_of_holds has length, if_pos (byte_of_holds has ends)]
  | more length type goes_on rest ih =>
    obtain ⟨rounds, walked⟩ := ih
    refine ⟨rounds + 1, ?_⟩
    rw [extensionLoop, byte_of_holds has length, byte_of_holds has type, if_neg goes_on, walked]

def flagsBehind (frame : List UInt8) : PktMbuf :=
  .ofOctets frame extensionHdrBit 0

theorem flagsBehind_byte (frame : List UInt8) (i : Nat) :
    (flagsBehind frame).byte i = frame.getD i extensionHdrBit :=
  ofOctets_byte ..

theorem flagsBehind_holds (frame : List UInt8) : (flagsBehind frame).Holds frame :=
  ofOctets_holds ..

theorem extChain_of_loop (walked : extensionLoop (flagsBehind frame) rounds pos = some e) :
    ExtChain frame pos e := by
  induction rounds generalizing pos with
  | zero => cases walked
  | succ rounds ih =>
    rw [extensionLoop] at walked
    -- A header that is not inside the frame is followed by one that starts behind it.
    have outside {k : Nat} (chain : ExtChain frame k e) : ¬ frame.length ≤ k :=
      Nat.not_le.mpr chain.start_lt
    have behind {k : Nat} (bound : frame.length ≤ k) : (flagsBehind frame).byte k = 4 := by
      rw [flagsBehind_byte, getD_eq_default _ _ bound]
      rfl
    by_cases start : pos < frame.length
    · have length : (flagsBehind frame).byte pos = frame[pos] := by
        rw [flagsBehind_byte, getD_eq_getElem _ _ start]
      rw [length] at walked
      by_cases last : pos + frame[pos].toNat - 1 < frame.length
      · have type : (flagsBehind frame).byte (pos + frame[pos].toNat - 1) =
            frame[pos + frame[pos].toNat - 1] := by
          rw [flagsBehind_byte, getD_eq_getElem _ _ last]
        rw [type] at walked
        split at walked
        · next ends =>
            obtain rfl := some.inj walked
            refine .last (getElem?_eq_getElem start) ?_
            rw [getElem?_eq_getElem last, ends]
        · next goes_on =>
            exact .more (getElem?_eq_getElem start) (getElem?_eq_getElem last) goes_on
              (ih walked)
      · rw [behind (Nat.le_of_not_lt last), if_neg (by decide)] at walked
        exact absurd (by omega) (outside (ih walked))
    · have four : UInt8.toNat 4 = 4 := rfl
      rw [behind (Nat.le_of_not_lt start), four, behind (by omega), if_neg (by decide)] at walked
      exact absurd (by omega) (outside (ih walked))

end

section

variable {frame : List UInt8} {m : PktMbuf} {rounds ipLen : Nat}

def walkEnd (rounds : Nat) (m : PktMbuf) (ipLen : Nat) : Option Nat :=
  let gtpu := ethHdrSize + ipLen + udpHdrSize
  let flags := m.byte gtpu
  if flags &&& extensionHdrBit ≠ 0 then extensionLoop m rounds (extensionStart gtpu flags)
  else some (extensionStart gtpu flags)

theorem calculateUserDataLen_eq :
    calculateUserDataLen rounds m = (ipHeaderLen rounds m).bind fun ipLen =>
      (walkEnd rounds m ipLen).map fun (len : Nat) =>
        Int.bmod ((m.dataLen : Int) - ((len : Int) - ethHdrSize)) (2 ^ 32) :=
  rfl

theorem calculateUserDataLen_mono {len : Int} (result : calculateUserDataLen rounds m = some len)
    {more : Nat} (enough : rounds ≤ more) : calculateUserDataLen more m = some len := by
  rw [calculateUserDataLen_eq] at result ⊢
  obtain ⟨ipLen, header, walk⟩ := bind_eq_some_iff.mp result
  obtain ⟨e, walked, value⟩ := map_eq_some_iff.mp walk
  have further : walkEnd more m ipLen = some e := by
    rw [walkEnd] at walked ⊢
    split at walked
    · next exts => rw [if_pos exts, extensionLoop_mono walked enough]
    · next noExts => rw [if_neg noExts, walked]
  rw [ipHeaderLen_congr rfl header (fun _ _ => rfl) enough, bind_some, further, map_some, value]

/-- The flags of the GTP-U header and its extension headers are inside the frame. -/
def WalksInside (frame : List UInt8) (ipLen : Nat) : Prop :=
  ∃ flags, frame[ethHdrSize + ipLen + udpHdrSize]? = some flags ∧
    (flags &&& extensionHdrBit = 0 ∨
      ∃ e, ExtChain frame (extensionStart (ethHdrSize + ipLen + udpHdrSize) flags) e)

theorem walkEnd_of_walksInside (inside : WalksInside frame ipLen) (has : m.HasAt 0 frame) :
    ∃ rounds, ∀ more, rounds ≤ more → (walkEnd more m ipLen).isSome = true := by
  obtain ⟨flags, here, noExts | ⟨e, chain⟩⟩ := inside
  · refine ⟨0, fun more _ => ?_⟩
    rw [walkEnd, byte_of_holds has here]
    rw [if_neg (not_not_intro noExts), isSome_some]
  · obtain ⟨rounds, walked⟩ := chain.loop has
    refine ⟨rounds, fun more enough => ?_⟩
    rw [walkEnd, byte_of_holds has here]
    split
    · rw [extensionLoop_mono walked enough, isSome_some]
    · rw [isSome_some]

theorem walksInside_of_walkEnd {e : Nat} (walked : walkEnd rounds (flagsBehind frame) ipLen = some e) :
    WalksInside frame ipLen := by
  rw [walkEnd] at walked
  by_cases inside : ethHdrSize + ipLen + udpHdrSize < frame.length
  · have flags := byte_of_holds (flagsBehind_holds frame).octets (getElem?_eq_getElem inside)
    rw [flags] at walked
    refine ⟨_, getElem?_eq_getElem inside, ?_⟩
    split at walked
    · exact Or.inr ⟨e, extChain_of_loop walked⟩
    · next noExts => exact Or.inl (not_not.mp noExts)
  · -- The flags are behind the frame, and say that extension headers follow.
    have flags : (flagsBehind frame).byte (ethHdrSize + ipLen + udpHdrSize) = extensionHdrBit := by
      rw [flagsBehind_byte, getD_eq_default _ _ (Nat.le_of_not_lt inside)]
    rw [flags, if_pos (by decide)] at walked
    have start := (extChain_of_loop walked).start_lt
    unfold extensionStart at start
    omega

end

/-- The walks over the headers of a frame end, whatever stands in memory behind it. -/
def WalksEnd (frame : List UInt8) : Prop :=
  ∀ m : PktMbuf, m.Holds frame → ∃ rounds, (calculateUserDataLen rounds m).isSome = true

theorem walksEnd_iff (frame : List UInt8) :
    WalksEnd frame ↔ ∃ ipLen, ipHeaderLen frame.length (flagsBehind frame) = some ipLen ∧
      WalksInside frame ipLen := by
  constructor
  · intro ends
    obtain ⟨rounds, result⟩ := ends (flagsBehind frame) (flagsBehind_holds frame)
    obtain ⟨len, result⟩ := isSome_iff_exists.mp result
    obtain ⟨ipLen, header, walk⟩ := bind_eq_some_iff.mp result
    obtain ⟨e, walked, -⟩ := map_eq_some_iff.mp walk
    have inside := walksInside_of_walkEnd walked
    obtain ⟨flags, here, -⟩ := id inside
    have bound := (List.getElem?_eq_some_iff.mp here).1
    obtain ⟨other, found⟩ := ipHeaderLen_ends (m := flagsBehind frame)
      (show ethHdrSize ≤ frame.length by omega)
    -- The length found in enough rounds is the one found here.
    have more := ipHeaderLen_congr rfl header (fun _ _ => rfl) (Nat.le_max_left rounds frame.length)
    have same := ipHeaderLen_congr rfl found (fun _ _ => rfl)
      (Nat.le_max_right rounds frame.length)
    obtain rfl := some.inj (more.symm.trans same)
    exact ⟨ipLen, found, inside⟩
  · rintro ⟨ipLen, header, inside⟩ m holds
    obtain ⟨flags, here, -⟩ := id inside
    have bound := (List.getElem?_eq_some_iff.mp here).1
    obtain ⟨rounds, walked⟩ := walkEnd_of_walksInside inside holds.octets
    refine ⟨max frame.length rounds, ?_⟩
    have same : ∀ i < ethHdrSize + ipLen, (flagsBehind frame).byte i = m.byte i := by
      intro i before
      have octet := getElem?_eq_getElem (show i < frame.length by omega)
      rw [byte_of_holds (flagsBehind_holds frame).octets octet, byte_of_holds holds.octets octet]
    have ip := ipHeaderLen_congr holds.length.symm header same (Nat.le_max_left _ rounds)
    rw [calculateUserDataLen_eq, ip, bind_some, isSome_map]
    exact walked _ (Nat.le_max_right ..)

theorem extensionLoop_stuck {m : PktMbuf} {pos : Nat} (zero : m.byte pos = 0)
    (before : m.byte (pos - 1) ≠ 0) (rounds : Nat) : extensionLoop m rounds pos = none := by
  induction rounds with
  | zero => rfl
  | succ rounds ih =>
    have here : pos + UInt8.toNat 0 = pos := rfl
    rw [extensionLoop, zero, here, if_neg before, ih]

/-- An extension header is announced and the sequence number is zero: the walk never leaves the
octet behind the tunnel endpoint. -/
theorem zero_length_never_ends :
    (∀ rounds, calculateUserDataLen rounds (flagsBehind (exampleFrame true false false).octets) =
      none) ∧ ¬ WalksEnd (exampleFrame true false false).octets := by
  have never (rounds : Nat) : calculateUserDataLen rounds
      (flagsBehind (exampleFrame true false false).octets) = none := by
    have ip : ipHeaderLen rounds (flagsBehind (exampleFrame true false false).octets) =
        some ipv4HdrSize := rfl
    have stuck : walkEnd rounds (flagsBehind (exampleFrame true false false).octets)
        ipv4HdrSize = none :=
      @extensionLoop_stuck _ 50 (by decide) (by decide) rounds
    rw [calculateUserDataLen_eq, ip, bind_some, stuck, map_none]
  refine ⟨never, fun ends => ?_⟩
  obtain ⟨rounds, result⟩ := ends _ (flagsBehind_holds _)
  rw [never] at result
  cases result

section

variable {m : PktMbuf} {rounds : Nat}

theorem length_le_ipv6Octets (exts : List Ipv6Ext) : exts.length ≤ (ipv6Octets exts).length := by
  induction exts with
  | nil => exact Nat.le_refl _
  | cons ext exts ih =>
    simp only [ipv6Octets, length_append, length_cons]
    omega

theorem ipHeaderLen_outer {o : Outer} {message : List UInt8}
    (fits : o.ip.covering (udpHdrSize + message.length) < 65536) (holds : m.Holds (o.octets message))
    (enough : m.dataLen ≤ rounds) : ipHeaderLen rounds m = some o.ip.length := by
  have total := holds.length
  have has := Outer.hasAt_ip (hasAt_append.mp holds.octets).1
  rw [Outer.length_octets, Outer.gtpu] at total
  unfold ipHeaderLen
  cases ip : o.ip with
  | v4 h =>
    rw [ip] at has
    rw [(hasAt_ipv4.mp has).1, if_pos (by decide)]
    rfl
  | v6 h exts =>
    rw [ip] at has total fits
    have count := length_le_ipv6Octets exts
    obtain ⟨version, -, lengths, next, -, -, -, chain⟩ := hasAt_ipv6.mp has
    have notV4 : ¬ m.byte ethHdrSize &&& versionFlagCheck = ipv4Version := by
      rw [version, h.version6]
      decide
    obtain ⟨pkt, byte, len, walk⟩ := getIPv6HeaderLen_eq (m := m)
      (by rw [total]; unfold ethHdrSize; omega)
    simp only [IpHeader.covering] at fits lengths
    simp only [IpHeader.length] at total
    have payload : 256 * (m.byte 18).toNat + (m.byte 19).toNat = _ := octets16_value lengths fits
    replace next : m.byte 20 = ipv6Next exts := next
    have pktChain : pkt.HasAt ipv6HdrSize (ipv6Octets exts) := by
      intro i bound
      rw [byte, ← Nat.add_assoc]
      exact chain i bound
    rw [if_neg notV4, walk, next]
    rw [payload, total] at len
    apply ipv6Loop_chain pktChain
    · rw [len]
      unfold ethHdrSize ipv6HdrSize udpHdrSize
      omega
    · omega

end

/-- The length of the user data of a frame, whatever stands in memory behind it. -/
def CountsTpdu (f : GpduFrame) : Prop :=
  ∀ m : PktMbuf, m.Holds f.octets →
    ∃ rounds, calculateUserDataLen rounds m = some (f.gpdu.tpdu.length : Int)

section

variable {f : GpduFrame} {m : PktMbuf}

theorem GpduFrame.length_octets_lt (f : GpduFrame) : f.octets.length < 70000 := by
  have fits := f.fits
  rw [octets, Outer.length_octets, Outer.gtpu]
  cases ip : f.outer.ip with
  | v4 h =>
    rw [ip] at fits
    simp only [IpHeader.covering, IpHeader.length, ethHdrSize, ipv4HdrSize, udpHdrSize] at fits ⊢
    omega
  | v6 h exts =>
    rw [ip] at fits
    simp only [IpHeader.covering, IpHeader.length, ethHdrSize, ipv6HdrSize, udpHdrSize] at fits ⊢
    omega

theorem userData_eq_iff {e : Nat} (bound : e ≤ f.octets.length) :
    Int.bmod ((f.octets.length : Int) - ((e : Int) - ethHdrSize)) (2 ^ 32) =
      (f.gpdu.tpdu.length : Int) ↔ e = f.tpduAt + ethHdrSize := by
  have small := f.length_octets_lt
  have total := f.length_octets
  have eth' : ethHdrSize = 14 := rfl
  rw [Int.bmod_eq_of_le (by omega) (by omega)]
  omega

theorem calculateUserDataLen_frame (holds : m.Holds f.octets) {rounds : Nat}
    (enough : m.dataLen ≤ rounds) :
    calculateUserDataLen rounds m =
      (if f.gpdu.e then
        extensionLoop m rounds (extensionStart f.outer.gtpu f.gpdu.flags)
      else some (extensionStart f.outer.gtpu f.gpdu.flags)).map fun (len : Nat) =>
        Int.bmod ((f.octets.length : Int) - ((len : Int) - ethHdrSize)) (2 ^ 32) := by
  have flags := Gpdu.hasAt_flags (GpduFrame.hasAt_gpdu holds.octets)
  have bit := f.gpdu.flags_bits.1
  rw [calculateUserDataLen_eq, ipHeaderLen_outer f.fits holds enough, bind_some, walkEnd]
  change (if m.byte f.outer.gtpu &&& extensionHdrBit ≠ 0 then
    extensionLoop m rounds (extensionStart f.outer.gtpu (m.byte f.outer.gtpu))
    else some (extensionStart f.outer.gtpu (m.byte f.outer.gtpu))).map _ = _
  rw [flags, holds.length]
  simp only [bit]

theorem extensionStart_le (g : Gpdu) (gtpu : Nat) :
    extensionStart gtpu g.flags ≤ gtpu + g.headerLen := by
  obtain ⟨-, s, pn⟩ := g.flags_bits
  simp only [extensionStart, s, pn, Gpdu.headerLen, g.length_optional]
  cases g.e <;> cases g.s <;> cases g.pn <;> simp <;> omega

end

theorem countsTpdu_iff (f : GpduFrame) :
    CountsTpdu f ↔ f.gpdu.e = true ∧
      ExtChain f.octets (extensionStart f.outer.gtpu f.gpdu.flags) (f.tpduAt + ethHdrSize) := by
  constructor
  · intro counts
    have holds := flagsBehind_holds f.octets
    obtain ⟨rounds, result⟩ := counts _ holds
    have more := calculateUserDataLen_mono result
      (Nat.le_max_left rounds (flagsBehind f.octets).dataLen)
    rw [calculateUserDataLen_frame holds (Nat.le_max_right ..)] at more
    obtain ⟨len, walked, value⟩ := map_eq_some_iff.mp more
    split at walked
    · next exts =>
        have chain := extChain_of_loop walked
        obtain rfl := (userData_eq_iff chain.end_le).mp value
        exact ⟨exts, chain⟩
    · have start := extensionStart_le f.gpdu f.outer.gtpu
      obtain rfl := some.inj walked
      have total := f.length_octets
      rw [GpduFrame.tpduAt] at total
      have wrong := (userData_eq_iff (by omega)).mp value
      rw [GpduFrame.tpduAt, ethHdrSize] at wrong
      omega
  · rintro ⟨exts, chain⟩ m holds
    obtain ⟨rounds, walked⟩ := chain.loop holds.octets
    refine ⟨max m.dataLen rounds, ?_⟩
    rw [calculateUserDataLen_frame holds (Nat.le_max_left ..), if_pos exts,
      extensionLoop_mono walked (Nat.le_max_right ..), map_some]
    rw [(userData_eq_iff chain.end_le).mpr rfl]

/-- Of a G-PDU without flags, the Ethernet header is counted as user data. -/
theorem plain_gpdu_miscounted :
    calculateUserDataLen 0 (flagsBehind (exampleFrame false false false).octets) = some 15 ∧
      (exampleFrame false false false).gpdu.tpdu.length = 1 ∧
      ¬ CountsTpdu (exampleFrame false false false) := by
  have result : calculateUserDataLen 0 (flagsBehind (exampleFrame false false false).octets) =
      some 15 := by decide
  refine ⟨result, rfl, fun counts => ?_⟩
  obtain ⟨rounds, one⟩ := counts _ (flagsBehind_holds _)
  rw [calculateUserDataLen_mono result (Nat.zero_le rounds)] at one
  exact absurd one (by decide)

end Epc.Up.Gtpu
