import Epc.Lib.Bytes
import Epc.Up.Proof.UserData
import Epc.Up.UserData

/-! Encapsulation and decapsulation of user packets (`dp/gtpu.c`): `encap_gtpu_hdr_with_seqnb`,
`encap_gtpu_hdr_without_seqnb` and `decap_gtpu_hdr_dynamic_seqnb`. They have no result where the code
returns an error. Here: what decapsulation leaves of a G-PDU. -/

namespace Epc.Up.Gtpu

open Epc.Lib Epc.Lib.Bytes Option

def gpduHdrSizeWithoutSeqnb : Nat := 8
def gpduHdrSizeWithSeqnb : Nat := 12
def gtpGpdu : UInt8 := 0xff

def gpduHdrSizeDynamic (flags : UInt8) : Nat :=
  gpduHdrSizeWithoutSeqnb + if flags &&& seqNoBit ≠ 0 then 4 else 0

/-- The IP header in front of the UDP header; the type is zero for IPv4. -/
def ipHdrSize (ipType : UInt8) : Nat :=
  if ipType ≠ 0 then ipv6HdrSize else ipv4HdrSize

/-- `get_mtogtpu` and `get_mtogtpu_v6`. -/
def mtogtpu (ipType : UInt8) : Nat :=
  ethHdrSize + ipHdrSize ipType + udpHdrSize

def constructGtpuHdrWithSeqnb (m : PktMbuf) (teid : UInt32) (tpduLen : UInt16) (ipType : UInt8)
    (gtpuSeqnb : UInt16) : PktMbuf :=
  m.write (mtogtpu ipType)
    ([0x32, gtpGpdu] ++ store16 (htons (tpduLen + 4)) ++ store32 (htonl teid) ++
      store32 (htons gtpuSeqnb).toUInt32)

def constructGtpuHdrWithoutSeqnb (m : PktMbuf) (teid : UInt32) (tpduLen : UInt16)
    (ipType : UInt8) : PktMbuf :=
  m.write (mtogtpu ipType)
    ([0x30, gtpGpdu] ++ store16 (htons tpduLen) ++ store32 (htonl teid))

def decapGtpuHdrDynamicSeqnb (m : PktMbuf) (ipType : UInt8) : Option PktMbuf :=
  m.adj (gpduHdrSizeDynamic (m.byte (mtogtpu ipType)) + udpHdrSize + ipHdrSize ipType)

/-- `encap_gtpu_hdr_with_seqnb`, with the sequence number that is counted. -/
def encapGtpuHdrWithSeqnb (gtpuSeqnb : UInt16) (m : PktMbuf) (teid : UInt32) (ipType : UInt8) :
    Option (PktMbuf × UInt16) :=
  let tpduLen := UInt16.ofNat m.dataLen - UInt16.ofNat ethHdrSize
  (m.prepend (gpduHdrSizeWithSeqnb + udpHdrSize + ipHdrSize ipType)).map fun m =>
    (constructGtpuHdrWithSeqnb m teid tpduLen ipType gtpuSeqnb, gtpuSeqnb + 1)

def encapGtpuHdrWithoutSeqnb (m : PktMbuf) (teid : UInt32) (ipType : UInt8) : Option PktMbuf :=
  let tpduLen := UInt16.ofNat m.dataLen - UInt16.ofNat ethHdrSize
  (m.prepend (gpduHdrSizeWithoutSeqnb + udpHdrSize + ipHdrSize ipType)).map fun m =>
    constructGtpuHdrWithoutSeqnb m teid tpduLen ipType

def IpHeader.Plain (ipType : UInt8) : IpHeader → Prop
  | v4 _ => ipType = 0
  | v6 _ exts => ipType ≠ 0 ∧ exts = []

theorem IpHeader.Plain.length_eq {ipType : UInt8} {ip : IpHeader} (plain : ip.Plain ipType) :
    ip.length = ipHdrSize ipType := by
  unfold ipHdrSize
  cases ip with
  | v4 h =>
    have zero : ipType = 0 := plain
    rw [if_neg (not_not_intro zero)]
    rfl
  | v6 h exts =>
    rw [if_pos plain.1, plain.2]
    rfl

def afterEth (m : PktMbuf) : List UInt8 :=
  m.data.drop ethHdrSize

/-- Decapsulation succeeds, and behind the Ethernet header is then the T-PDU. -/
def Exposes (m : PktMbuf) (ipType : UInt8) (tpdu : List UInt8) : Prop :=
  ∃ m', decapGtpuHdrDynamicSeqnb m ipType = some m' ∧ afterEth m' = tpdu

/-- Given room for the headers, decapsulation takes off what encapsulation put on. -/
def Inverts (encap : PktMbuf → UInt32 → UInt8 → Option PktMbuf) (gpduHdrSize : Nat) : Prop :=
  ∀ m teid ipType, gpduHdrSize + udpHdrSize + ipHdrSize ipType ≤ m.dataOff →
    ∃ m', encap m teid ipType = some m' ∧ Exposes m' ipType (afterEth m)

section

variable {m m' : PktMbuf}

@[simp]
theorem length_afterEth (m : PktMbuf) : (afterEth m).length = m.dataLen - ethHdrSize := by
  simp [afterEth, PktMbuf.data]

theorem getElem_afterEth {i : Nat} (bound : i < (afterEth m).length) :
    (afterEth m)[i] = m.byte (ethHdrSize + i) := by
  simp [afterEth, PktMbuf.data]

theorem afterEth_eq {octets : List UInt8} (length : m.dataLen = ethHdrSize + octets.length)
    (has : m.HasAt ethHdrSize octets) : afterEth m = octets := by
  apply List.ext_getElem
  · rw [length_afterEth, length, Nat.add_sub_cancel_left]
  · intro i bound other
    rw [getElem_afterEth, has i other]

end

section

variable {f : GpduFrame} {m : PktMbuf} {ipType : UInt8}

theorem headerLen_eq_dynamic_iff (g : Gpdu) :
    g.headerLen = gpduHdrSizeDynamic g.flags ↔
      (g.e = false ∧ g.s = false ∧ g.pn = false) ∨ g.s = true ∧ g.exts = [] := by
  have seq := g.flags_bits.2.1
  have chain : (gtpuOctets g.exts).length = 0 ↔ g.exts = [] := by
    cases g.exts with
    | nil => simp [gtpuOctets]
    | cons ext exts => simp [gtpuOctets]
  have noExts := g.noExts
  simp only [Gpdu.headerLen, g.length_optional, gpduHdrSizeDynamic, seq, gtpHdrSize,
    gpduHdrSizeWithoutSeqnb]
  cases e : g.e <;> cases s : g.s <;> cases pn : g.pn <;> simp_all
  · omega
  · omega

theorem exposes_iff_headerLen (plain : f.outer.ip.Plain ipType) (holds : m.Holds f.octets) :
    Exposes m ipType f.gpdu.tpdu ↔ f.gpdu.headerLen = gpduHdrSizeDynamic f.gpdu.flags := by
  have gtpu : f.outer.gtpu = mtogtpu ipType := by
    rw [Outer.gtpu, plain.length_eq, mtogtpu]
  have flags := Gpdu.hasAt_flags (GpduFrame.hasAt_gpdu holds.octets)
  rw [gtpu] at flags
  have total := holds.length
  rw [f.length_octets, GpduFrame.tpduAt, gtpu, mtogtpu] at total
  have least : gpduHdrSizeDynamic f.gpdu.flags ≤ f.gpdu.headerLen := by
    have seq := f.gpdu.flags_bits.2.1
    simp only [Gpdu.headerLen, f.gpdu.length_optional, gpduHdrSizeDynamic, seq, gtpHdrSize,
      gpduHdrSizeWithoutSeqnb]
    split
    · next s => simp [s]
    · omega
  unfold Exposes decapGtpuHdrDynamicSeqnb
  rw [flags]
  have enough : gpduHdrSizeDynamic f.gpdu.flags + udpHdrSize + ipHdrSize ipType ≤ m.dataLen := by
    omega
  obtain ⟨m', adjusted, off, len, memory⟩ := PktMbuf.adj_of_le enough
  rw [adjusted]
  constructor
  · rintro ⟨_, same, exposed⟩
    obtain rfl := some.inj same
    have length := congrArg List.length exposed
    rw [length_afterEth, len] at length
    omega
  · intro size
    refine ⟨m', rfl, afterEth_eq (by omega) fun i bound => ?_⟩
    have tpdu := Gpdu.hasAt_tpdu (GpduFrame.hasAt_gpdu holds.octets) i bound
    rw [gtpu, size, mtogtpu] at tpdu
    rw [PktMbuf.byte_of_moved memory off, ← tpdu]
    congr 1
    omega

theorem exposes_of_header {header : List UInt8} {flags : UInt8} {rest : List UInt8}
    (starts : header = flags :: rest) (sized : gpduHdrSizeDynamic flags = header.length)
    {m' : PktMbuf} (moved : m.dataOff = m'.dataOff + (header.length + udpHdrSize + ipHdrSize ipType))
    (longer : m'.dataLen = m.dataLen + (header.length + udpHdrSize + ipHdrSize ipType))
    (memory : m'.memory = m.memory) :
    Exposes (m'.write (mtogtpu ipType) header) ipType (afterEth m) := by
  have first : (m'.write (mtogtpu ipType) header).byte (mtogtpu ipType) = flags := by
    have written : (m'.write (mtogtpu ipType) header).HasAt (mtogtpu ipType) header :=
      PktMbuf.write_hasAt
    rw [starts] at written ⊢
    exact (PktMbuf.hasAt_cons.mp written).1
  unfold Exposes decapGtpuHdrDynamicSeqnb
  rw [first, sized]
  have enough : header.length + udpHdrSize + ipHdrSize ipType ≤
      (m'.write (mtogtpu ipType) header).dataLen := by
    rw [PktMbuf.write_dataLen]
    omega
  obtain ⟨m'', adjusted, off, len, kept⟩ := PktMbuf.adj_of_le enough
  rw [PktMbuf.write_dataLen] at len
  refine ⟨m'', adjusted, ?_⟩
  apply List.ext_getElem
  · rw [length_afterEth, length_afterEth]
    omega
  · intro i bound other
    rw [getElem_afterEth, getElem_afterEth, PktMbuf.byte_of_moved kept off, PktMbuf.write_byte,
      if_pos (by rw [mtogtpu]; omega), List.getD_eq_default _ _ (by rw [mtogtpu]; omega),
      PktMbuf.byte_of_moved memory.symm moved]

end

theorem encapGtpuHdrWithSeqnb_inverts (gtpuSeqnb : UInt16) :
    Inverts (fun m teid ipType => (encapGtpuHdrWithSeqnb gtpuSeqnb m teid ipType).map Prod.fst)
      gpduHdrSizeWithSeqnb := by
  intro m teid ipType headroom
  obtain ⟨m', prepended, off, len, memory⟩ := PktMbuf.prepend_of_le headroom
  simp only [encapGtpuHdrWithSeqnb, prepended, map_some]
  refine ⟨_, rfl, exposes_of_header rfl rfl ?_ len memory⟩
  change m.dataOff = m'.dataOff + (gpduHdrSizeWithSeqnb + udpHdrSize + ipHdrSize ipType)
  omega

theorem encapGtpuHdrWithoutSeqnb_inverts :
    Inverts encapGtpuHdrWithoutSeqnb gpduHdrSizeWithoutSeqnb := by
  intro m teid ipType headroom
  obtain ⟨m', prepended, off, len, memory⟩ := PktMbuf.prepend_of_le headroom
  simp only [encapGtpuHdrWithoutSeqnb, prepended, map_some]
  refine ⟨_, rfl, exposes_of_header rfl rfl ?_ len memory⟩
  change m.dataOff = m'.dataOff + (gpduHdrSizeWithoutSeqnb + udpHdrSize + ipHdrSize ipType)
  omega

/-- The T-PDU is exposed if no flag is set, or if the sequence number flag is and there are no
extension headers. What the gateway encapsulates is always exposed. -/
theorem decap_exposes_iff (f : GpduFrame) (m : PktMbuf) (ipType : UInt8)
    (plain : f.outer.ip.Plain ipType) (holds : m.Holds f.octets) :
    (Exposes m ipType f.gpdu.tpdu ↔
      (f.gpdu.e = false ∧ f.gpdu.s = false ∧ f.gpdu.pn = false) ∨
        f.gpdu.s = true ∧ f.gpdu.exts = []) ∧
    (∀ gtpuSeqnb, Inverts
      (fun m teid ipType => (encapGtpuHdrWithSeqnb gtpuSeqnb m teid ipType).map Prod.fst)
      gpduHdrSizeWithSeqnb) ∧
    Inverts encapGtpuHdrWithoutSeqnb gpduHdrSizeWithoutSeqnb := by
  refine ⟨?_, encapGtpuHdrWithSeqnb_inverts, encapGtpuHdrWithoutSeqnb_inverts⟩
  rw [exposes_iff_headerLen plain holds, headerLen_eq_dynamic_iff]

theorem sequence_gpdu_exposed : Exposes (flagsBehind (exampleFrame false true false).octets) 0 [0xab] :=
  (decap_exposes_iff (exampleFrame false true false) _ 0 rfl (flagsBehind_holds _)).1.mpr
    (Or.inr ⟨rfl, rfl⟩)

/-- With an N-PDU number, the optional part is left in front of the T-PDU. -/
theorem npdu_gpdu_not_exposed :
    (∃ m', decapGtpuHdrDynamicSeqnb (flagsBehind (exampleFrame false false true).octets) 0 =
        some m' ∧ afterEth m' = [0, 0, 0, 0, 0xab]) ∧
      ¬ Exposes (flagsBehind (exampleFrame false false true).octets) 0
        (exampleFrame false false true).gpdu.tpdu := by
  refine ⟨⟨_, rfl, by decide⟩, ?_⟩
  rintro ⟨m', decapped, exposed⟩
  obtain rfl := some.inj decapped
  exact absurd exposed (by decide)

end Epc.Up.Gtpu
