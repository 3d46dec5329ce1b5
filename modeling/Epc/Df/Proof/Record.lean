import Epc.Ddf.Packet
import Epc.Df.Record

/-! What D-DF and DF rebuild of a packet from the record they wrote for it. -/

namespace Epc.Df

open Epc.Lib Epc.Lib.Bytes Epc.Lib.Text Epc.Lib.Scanf List Option
open Epc.Ddf (sendBufSize)

section

variable {buffer source : List UInt8}

theorem memcpyAt_of_le {place : Nat} (inside : place + source.length ≤ buffer.length) :
    memcpyAt buffer place source =
      some (buffer.take place ++ (source ++ buffer.drop (place + source.length))) :=
  if_pos inside

theorem memcpyAt_append {before old after : List UInt8} (same : old.length = source.length) :
    memcpyAt (before ++ (old ++ after)) before.length source = some (before ++ (source ++ after)) := by
  have inside : before.length + source.length ≤ (before ++ (old ++ after)).length := by
    simp only [length_append]
    omega
  have behind : (before ++ (old ++ after)).drop (before.length + source.length) = after := by
    rw [← same, ← drop_drop, drop_left, drop_left]
  rw [memcpyAt_of_le inside, take_left, behind]

theorem replicate_split {n k : Nat} (le : k ≤ n) :
    List.replicate n (0 : UInt8) = .replicate k 0 ++ .replicate (n - k) 0 := by
  rw [replicate_append_replicate, Nat.add_sub_cancel' le]

end

section

def HeaderChar (c : Char) : Prop :=
  c.isDigit ∨ c = ','

theorem HeaderChar.ascii {c : Char} (header : HeaderChar c) : 44 ≤ c.toNat ∧ c.toNat < 58 := by
  rcases header with digit | rfl
  · obtain ⟨low, high⟩ := toNat_lt_of_isDigit digit
    exact ⟨by omega, high⟩
  · decide

theorem HeaderChar.octet_ne_zero {c : Char} (header : HeaderChar c) : octet c ≠ 0 := by
  obtain ⟨low, high⟩ := header.ascii
  intro zero
  have value := congrArg UInt8.toNat zero
  rw [octet, UInt8.toNat_ofNat_of_lt' (by rw [UInt8.size]; omega)] at value
  exact absurd value (by rw [UInt8.toNat_zero]; omega)

theorem headerChar_of_mem_headerText {a b d e f : Nat} {c : Char} (mem : c ∈ headerText a b d e f) :
    HeaderChar c := by
  simp only [headerText, mem_append, mem_cons, not_mem_nil, or_false] at mem
  have digits : ∀ n, c ∈ decimal n → HeaderChar c := fun n inside => .inl (isDigit_of_mem_decimal inside)
  rcases mem with h | h | h | h | h | h | h | h | h | h
  all_goals first | exact digits _ h | exact .inr h

variable (packet : DfPacket)

theorem length_text_le : packet.text.length ≤ 75 := by
  have first := length_decimal_le (by decide : 0 < 10)
    (show (ntohl packet.packetLength).toNat < 10 ^ 10 from (UInt32.toNat_lt _).trans (by decide))
  have second := length_decimal_le (by decide : 0 < 10)
    (show (ntohl packet.sequenceNumber).toNat < 10 ^ 10 from (UInt32.toNat_lt _).trans (by decide))
  have third := length_decimal_le (by decide : 0 < 20)
    (show packet.liIdentifier.toNat < 10 ^ 20 from (UInt64.toNat_lt _).trans (by decide))
  have fourth := length_decimal_le (by decide : 0 < 20)
    (show packet.imsiNumber.toNat < 10 ^ 20 from (UInt64.toNat_lt _).trans (by decide))
  have fifth := length_decimal_le (by decide : 0 < 10)
    (show (ntohl packet.dataLength).toNat < 10 ^ 10 from (UInt32.toNat_lt _).trans (by decide))
  simp only [DfPacket.text, headerText, length_append, length_cons, length_nil]
  omega

theorem cString_text (rest : List UInt8) :
    cString (packet.text.map octet ++ rest) = packet.text ++ cString rest :=
  cString_append
    (fun _ mem => (headerChar_of_mem_headerText mem).ascii.2.trans (by decide))
    (fun _ mem => (headerChar_of_mem_headerText mem).octet_ne_zero) rest

theorem sscanf_text (rest : List Char) :
    sscanf headerFormat (packet.text ++ rest) =
      [(ntohl packet.packetLength).toNat, (ntohl packet.sequenceNumber).toNat,
        packet.liIdentifier.toNat, packet.imsiNumber.toNat, (ntohl packet.dataLength).toNat] := by
  simp only [DfPacket.text, headerText, append_assoc, cons_append, nil_append]
  simp only [headerFormat, sscanf_decimal, sscanf_literal, UInt32.toNat_lt, UInt64.toNat_lt, Nat.reduceLeDiff]
  rfl

theorem skipDelimiters_of_digits {digits : List Char} (all : ∀ c ∈ digits, c.isDigit) {cnt : Nat}
    (fewer : cnt < numbOfDelimiters) (iter : Nat) (rest : List UInt8) :
    skipDelimiters cnt iter (digits.map octet ++ rest) =
      skipDelimiters cnt (iter + digits.length) rest := by
  induction digits generalizing iter with
  | nil => rfl
  | cons c cs ih =>
    obtain ⟨digit, others⟩ := forall_mem_cons.mp all
    have other : octet c ≠ octet ',' := by
      intro same
      have bounds := toNat_lt_of_isDigit digit
      have comma := octet_injective (bounds.2.trans (by decide)) (by decide) same
      rw [comma] at digit
      cases digit
    rw [map_cons, cons_append, skipDelimiters, if_neg other, if_neg (Nat.ne_of_lt fewer),
      ih others, length_cons]
    congr 1
    omega

theorem skipDelimiters_decimal {cnt : Nat} (fewer : cnt + 1 < numbOfDelimiters) (iter n : Nat)
    (rest : List UInt8) :
    skipDelimiters cnt iter ((decimal n).map octet ++ (octet ',' :: rest)) =
      skipDelimiters (cnt + 1) (iter + (decimal n).length + 1) rest := by
  rw [skipDelimiters_of_digits (fun _ => isDigit_of_mem_decimal) (Nat.lt_of_succ_lt fewer), skipDelimiters,
    if_pos rfl, if_neg (Nat.ne_of_lt fewer)]

theorem skipDelimiters_text (rest : List UInt8) :
    skipDelimiters 0 0 (packet.text.map octet ++ rest) = packet.text.length := by
  simp only [DfPacket.text, headerText, map_append, map_cons, map_nil, append_assoc,
    cons_append, nil_append, length_append, length_cons, length_nil]
  rw [skipDelimiters_decimal (by decide), skipDelimiters_decimal (by decide),
    skipDelimiters_decimal (by decide), skipDelimiters_decimal (by decide),
    skipDelimiters_of_digits (fun _ => isDigit_of_mem_decimal) (by decide), skipDelimiters, if_pos rfl]
  simp only [numbOfDelimiters, if_true]
  omega

end

section

variable (packet : DfPacket)

def record : List UInt8 :=
  packet.text.map octet ++
    (packet.data ++ .replicate (sendBufSize - packet.text.length - packet.data.length) 0)

def copiedData : List UInt8 :=
  if packet.text.length + packet.data.length < sendBufSize then packet.data
  else packet.data.dropLast ++ [0]

variable {packet} (textFits : packet.text.length + packet.data.length ≤ sendBufSize)

include textFits

theorem writeBuf_eq : writeBuf packet = some (record packet) := by
  have short := length_text_le packet
  have behind : packet.text.length + 1 ≤ sendBufSize := by
    rw [sendBufSize]
    omega
  have printed : snprintf (.replicate sendBufSize 0) packet.text =
      some (packet.text.map octet ++ .replicate (sendBufSize - packet.text.length) 0) := by
    have uncut : packet.text.take (sendBufSize - 1) = packet.text :=
      take_of_length_le (by omega)
    have zeros : List.replicate (sendBufSize - packet.text.length) (0 : UInt8) =
        [0] ++ .replicate (sendBufSize - (packet.text.length + 1)) 0 := by
      rw [show sendBufSize - packet.text.length = sendBufSize - (packet.text.length + 1) + 1 by omega]
      rfl
    rw [snprintf, length_replicate, uncut, memcpyAt_of_le (by simpa using behind), zeros]
    simp [drop_replicate]
  have place : (UInt16.ofNat packet.text.length).toNat = (packet.text.map octet).length := by
    rw [UInt16.toNat_ofNat_of_lt' (by rw [UInt16.size]; omega), length_map]
  rw [writeBuf, printed, bind_eq_bind, bind_some]
  dsimp only
  rw [place, replicate_split (show packet.data.length ≤ sendBufSize - packet.text.length by omega),
    memcpyAt_append (length_replicate ..)]
  rfl

theorem length_record : (record packet).length = sendBufSize := by
  simp only [record, length_append, length_map, length_replicate]
  omega

theorem take_payloadBuf :
    let copied := ((record packet).drop packet.text.length).take
      (sendBufSize - packet.text.length - 1)
    (copied ++ List.replicate (sendBufSize - copied.length) 0).take packet.data.length =
      copiedData packet := by
  have short := length_text_le packet
  have behind : (record packet).drop packet.text.length =
      packet.data ++ .replicate (sendBufSize - packet.text.length - packet.data.length) 0 := by
    rw [record]
    exact drop_left' (length_map _)
  intro copied
  by_cases room : packet.text.length + packet.data.length < sendBufSize
  · have kept : copied = packet.data ++
        .replicate (sendBufSize - packet.text.length - 1 - packet.data.length) 0 := by
      show ((record packet).drop _).take _ = _
      rw [behind, take_append, take_of_length_le (by omega), take_replicate]
      congr 2
      omega
    rw [kept, append_assoc, take_left, copiedData, if_pos room]
  · have full : sendBufSize - packet.text.length = packet.data.length := by omega
    have kept : copied = packet.data.dropLast := by
      show ((record packet).drop _).take _ = _
      rw [behind, full, Nat.sub_self, replicate_zero, append_nil, dropLast_eq_take]
    have some : 0 < packet.data.length := by
      rw [← full, sendBufSize]
      omega
    have last : packet.data.length = packet.data.dropLast.length + 1 := by
      rw [length_dropLast]
      omega
    have zero : List.replicate (sendBufSize - packet.data.dropLast.length) (0 : UInt8) =
        [0] ++ .replicate (sendBufSize - packet.data.dropLast.length - 1) 0 := by
      rw [show sendBufSize - packet.data.dropLast.length =
        sendBufSize - packet.data.dropLast.length - 1 + 1 by rw [sendBufSize] at *; omega]
      rfl
    rw [kept, zero, ← append_assoc, copiedData, if_neg room]
    exact take_left' (by rw [length_append, length_singleton, last])

theorem readFields_record :
    ∃ fields, readFields (record packet) = some fields ∧ fields.pktLen = ntohl packet.packetLength ∧
      fields.seqNum = ntohl packet.sequenceNumber ∧ fields.liId = packet.liIdentifier ∧
      fields.imsi = packet.imsiNumber ∧ fields.dataLen = ntohl packet.dataLength ∧
      fields.payloadBuf.length = sendBufSize ∧
      fields.payloadBuf.take packet.data.length = copiedData packet := by
  have short := length_text_le packet
  have inside : packet.text.length < sendBufSize := by
    rw [sendBufSize]
    omega
  have text : cString (record packet) = packet.text ++ cString _ := cString_text packet _
  have iter : skipDelimiters 0 0 (record packet) = packet.text.length := skipDelimiters_text packet _
  have read := readFields.eq_1 (record packet)
  dsimp only at read
  rw [text, sscanf_text, iter, if_pos inside] at read
  refine ⟨_, read, UInt32.ofNat_toNat, UInt32.ofNat_toNat, UInt64.ofNat_toNat, UInt64.ofNat_toNat,
    UInt32.ofNat_toNat, ?_, take_payloadBuf textFits⟩
  have whole := length_record textFits
  simp only [length_append, length_replicate, length_take, length_drop, whole]
  omega

end

section

theorem length_encodeHeader (packetLength sequenceNumber : UInt32) (liIdentifier imsiNumber : UInt64)
    (dataLength : UInt32) :
    (encodeHeader packetLength sequenceNumber liIdentifier imsiNumber dataLength).length =
      dfPacketSize := by
  simp [encodeHeader, dfPacketSize]

theorem sendFields_eq {size : Nat} {fields : Fields}
    (framed : fields.pktLen.toNat = dfPacketSize + fields.dataLen.toNat)
    (fits : dfPacketSize + fields.dataLen.toNat ≤ size)
    (payload : fields.dataLen.toNat ≤ fields.payloadBuf.length) :
    sendFields size fields =
      some (encodeHeader (htonl fields.pktLen) (htonl fields.seqNum) fields.liId fields.imsi
        (htonl fields.dataLen) ++ fields.payloadBuf.take fields.dataLen.toNat) := by
  have header := length_encodeHeader (htonl fields.pktLen) (htonl fields.seqNum) fields.liId fields.imsi
    (htonl fields.dataLen)
  have taken : (fields.payloadBuf.take fields.dataLen.toNat).length = fields.dataLen.toNat :=
    length_take_of_le payload
  rw [sendFields]
  generalize encodeHeader (htonl fields.pktLen) (htonl fields.seqNum) fields.liId fields.imsi
    (htonl fields.dataLen) = octets at header ⊢
  have first : memcpyAt (.replicate size 0) 0 octets =
      some (octets ++ (.replicate fields.dataLen.toNat 0 ++
        .replicate (size - dfPacketSize - fields.dataLen.toNat) 0)) := by
    have inside : 0 + octets.length ≤ (List.replicate size (0 : UInt8)).length := by
      rw [length_replicate]
      omega
    rw [memcpyAt_of_le inside, take_zero, nil_append, Nat.zero_add, header,
      drop_replicate, replicate_split (show fields.dataLen.toNat ≤ size - dfPacketSize by omega)]
  have second : memcpyAt (octets ++ (.replicate fields.dataLen.toNat 0 ++
      .replicate (size - dfPacketSize - fields.dataLen.toNat) 0)) octets.length
        (fields.payloadBuf.take fields.dataLen.toNat) = _ :=
    memcpyAt_append (by rw [length_replicate, taken])
  rw [header] at second
  simp only [first, bind_eq_bind, bind_some, if_pos payload, second]
  rw [← append_assoc, if_pos, take_left']
  · rw [length_append, header, taken, framed]
  · rw [length_append, length_append, header, taken, framed]
    exact Nat.le_add_right _ _

variable (packet : DfPacket)

def DfPacket.Framed : Prop :=
  packet.packetLength = htonl (.ofNat (dfPacketSize + packet.data.length))

def RoomBehind : Prop :=
  packet.text.length + packet.data.length = sendBufSize → packet.data.getLast? = some 0

variable {packet} (textFits : packet.text.length + packet.data.length ≤ sendBufSize)

include textFits

theorem copiedData_eq_iff : copiedData packet = packet.data ↔ RoomBehind packet := by
  have short := length_text_le packet
  by_cases room : packet.text.length + packet.data.length < sendBufSize
  · rw [copiedData, if_pos room]
    exact iff_of_true rfl fun full => absurd full (Nat.ne_of_lt room)
  · have full : packet.text.length + packet.data.length = sendBufSize := by omega
    have nonempty : packet.data ≠ [] := by
      rintro empty
      rw [empty, length_nil, sendBufSize] at full
      omega
    rw [copiedData, if_neg room, RoomBehind, imp_iff_right full, getLast?_eq_some_getLast nonempty,
      some_inj]
    constructor
    · intro same
      have last := getLast_append_singleton packet.data.dropLast (a := 0)
      simpa only [same] using last
    · intro last
      rw [← last, dropLast_append_getLast]

variable (fits : dfPacketSize + packet.data.length ≤ sendBufSize) (framed : packet.Framed)

include fits framed

theorem sendFields_record :
    ∃ fields, readFields (record packet) = some fields ∧
      fields.pktLen.toNat = dfPacketSize + packet.data.length ∧
      ∀ size, dfPacketSize + packet.data.length ≤ size →
        sendFields size fields =
          some (encodeHeader packet.packetLength packet.sequenceNumber packet.liIdentifier
            packet.imsiNumber packet.dataLength ++ copiedData packet) := by
  obtain ⟨fields, read, pktLen, seqNum, liId, imsi, dataLen, payload, copied⟩ :=
    readFields_record textFits
  have length : fields.dataLen.toNat = packet.data.length := by
    rw [dataLen, packet.whole]
  have small : dfPacketSize + packet.data.length < UInt32.size := by
    rw [sendBufSize] at fits
    exact fits.trans_lt (by decide)
  have total : fields.pktLen.toNat = dfPacketSize + packet.data.length := by
    rw [pktLen, framed, ntohl_htonl, UInt32.toNat_ofNat_of_lt' small]
  refine ⟨fields, read, total, fun size room => ?_⟩
  rw [sendFields_eq (by rw [total, length]) (by rwa [length]) (by rw [length, payload]; omega), length,
    copied, pktLen, seqNum, liId, imsi, dataLen]
  rw [show htonl (ntohl packet.packetLength) = packet.packetLength from ntohl_htonl _,
    show htonl (ntohl packet.sequenceNumber) = packet.sequenceNumber from ntohl_htonl _,
    show htonl (ntohl packet.dataLength) = packet.dataLength from ntohl_htonl _]

theorem ddf_rebuilt :
    (Ddf.TCPListener.sendPacketToDf packet).bind Ddf.TCPListener.sendPending =
      some (encodeHeader packet.packetLength packet.sequenceNumber packet.liIdentifier
        packet.imsiNumber packet.dataLength ++ copiedData packet) := by
  obtain ⟨fields, read, -, sent⟩ := sendFields_record textFits fits framed
  rw [Ddf.TCPListener.sendPacketToDf, writeBuf_eq textFits, bind_some,
    Ddf.TCPListener.sendPending, read, bind_eq_bind, bind_some]
  exact sent sendBufSize fits

theorem df_rebuilt :
    (TCPListener.processData packet).bind TCPListener.sendPending =
      some (encodeHeader packet.packetLength packet.sequenceNumber packet.liIdentifier
        packet.imsiNumber packet.dataLength ++ copiedData packet) := by
  obtain ⟨fields, read, total, sent⟩ := sendFields_record textFits fits framed
  -- the length that DF computes is the one that the packet came with
  have same : TCPListener.processData packet = writeBuf packet := by
    rw [TCPListener.processData]
    congr 1
    rw [DfPacket.mk.injEq, ← packet.whole]
    exact ⟨framed.symm, rfl, rfl, rfl, rfl, rfl⟩
  rw [same, writeBuf_eq textFits, bind_some, TCPListener.sendPending, read, bind_eq_bind, bind_some]
  exact sent _ (Nat.le_of_eq total.symm)

omit textFits fits framed in
theorem octets_eq_iff (data : List UInt8) :
    some (encodeHeader packet.packetLength packet.sequenceNumber packet.liIdentifier
      packet.imsiNumber packet.dataLength ++ data) = some packet.octets ↔ data = packet.data := by
  rw [some_inj, DfPacket.octets, append_cancel_left_eq]

end

section

/-- Each of the two rebuilds the packet that its record was written for. -/
def Restored (packet : DfPacket) : Prop :=
  (Ddf.TCPListener.sendPacketToDf packet).bind Ddf.TCPListener.sendPending = some packet.octets ∧
    (TCPListener.processData packet).bind TCPListener.sendPending = some packet.octets

/-- A packet is restored unless its record fills the block and its last byte is not zero. -/
theorem restored_iff (packet : DfPacket) (framed : packet.Framed)
    (textFits : packet.text.length + packet.data.length ≤ sendBufSize)
    (fits : dfPacketSize + packet.data.length ≤ sendBufSize) : Restored packet ↔ RoomBehind packet := by
  rw [Restored, ddf_rebuilt textFits fits framed, df_rebuilt textFits fits framed, octets_eq_iff,
    and_self, copiedData_eq_iff textFits]

def onesPacket (size : Nat) (small : size < 2 ^ 32) : DfPacket where
  packetLength := htonl (.ofNat (dfPacketSize + size))
  sequenceNumber := htonl 7
  liIdentifier := 1000000001
  imsiNumber := 404995556666777
  dataLength := htonl (.ofNat size)
  data := .replicate size 1
  whole := by rw [ntohl_htonl, List.length_replicate, UInt32.toNat_ofNat_of_lt' small]

theorem text_onesPacket {size : Nat} (small : dfPacketSize + size < 2 ^ 32) :
    (onesPacket size (by omega)).text =
      headerText (dfPacketSize + size) 7 1000000001 404995556666777 size := by
  rw [DfPacket.text, onesPacket]
  dsimp only
  rw [ntohl_htonl, ntohl_htonl, ntohl_htonl, UInt32.toNat_ofNat_of_lt' small,
    UInt32.toNat_ofNat_of_lt' (by rw [UInt32.size]; omega)]
  rfl

theorem framed_onesPacket (size : Nat) (small : size < 2 ^ 32) : (onesPacket size small).Framed := by
  rw [DfPacket.Framed, onesPacket, length_replicate]

theorem restored_hundred_bytes : Restored (onesPacket 100 (by decide)) := by
  have text : (onesPacket 100 (by decide)).text.length = 37 := by
    rw [text_onesPacket (by decide)]
    decide
  have data : (onesPacket 100 (by decide)).data.length = 100 := length_replicate ..
  refine (restored_iff _ (framed_onesPacket _ _) ?_ ?_).mpr ?_
  · rw [text, data]
    decide
  · rw [data]
    decide
  · rw [RoomBehind, text, data]
    exact fun full => absurd full (by decide)

/-- A packet whose record fills the block comes back with a zero for its last byte. -/
theorem full_block_not_restored :
    let packet := onesPacket 4057 (by decide)
    packet.Framed ∧ packet.text.length + packet.data.length ≤ sendBufSize ∧
      dfPacketSize + packet.data.length ≤ sendBufSize ∧ ¬ Restored packet := by
  intro packet
  have text : packet.text.length = 39 := by
    rw [show packet = onesPacket 4057 (by decide) from rfl, text_onesPacket (by decide)]
    decide
  have data : packet.data.length = 4057 := length_replicate ..
  have framed : packet.Framed := framed_onesPacket _ _
  have textFits : packet.text.length + packet.data.length ≤ sendBufSize := by
    rw [text, data]
    decide
  have fits : dfPacketSize + packet.data.length ≤ sendBufSize := by
    rw [data]
    decide
  have last : packet.data.getLast? = some 1 := by
    show (List.replicate 4057 (1 : UInt8)).getLast? = some 1
    rw [getLast?_replicate]
    rfl
  refine ⟨framed, textFits, fits, fun restored => ?_⟩
  rw [Restored, ddf_rebuilt textFits fits framed, octets_eq_iff, copiedData_eq_iff textFits,
    RoomBehind, text, data, last] at restored
  exact absurd (restored.1 rfl) (by decide)

end

end Epc.Df
