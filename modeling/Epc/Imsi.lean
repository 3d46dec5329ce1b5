import Epc.Up.TeidRange

/-! The IMSI in the User ID IE and in the Subscription-Id AVP: `encode_imsi_to_bin` on the control
plane, `decode_imsi_to_u64` on the user plane and `bin_to_str` towards the PCRF. -/

namespace Epc

open Lib.Text Up List

def binaryImsiLen : Nat := 8

/-- `buf[i]` after `snprintf (buf, 32, PRIu64, imsi)`; the array is zeroed before. -/
def imsiBuf (imsi : UInt64) (i : Nat) : UInt8 :=
  ((decimal imsi.toNat)[i]?.map fun c => c.toUInt8).getD 0

/-- `encode_imsi_to_bin`, by the bytes written. -/
def encodeImsiToBin (imsi : UInt64) (imsiLen : Nat) : List UInt8 :=
  let buf := imsiBuf imsi
  let binImsi := (List.range imsiLen).map fun i =>
    ((buf (i * 2 + 1) &&& 0xF) <<< 4) ||| (buf (i * 2) &&& 0xF)
  if (decimal imsi.toNat).length % 2 = 1 then
    binImsi.set (imsiLen - 1) (((0xF : UInt8) <<< 4) ||| (buf ((imsiLen - 1) * 2) &&& 0xF))
  else binImsi

/-- The last byte ends in a filler. -/
def fillerAt (buf : List UInt8) (len i : Nat) : Bool :=
  i = len - 1 && (buf.getD i 0 &&& 0xF0) >>> 4 = 0x0F

/-- What one round of the loop of `decode_imsi_to_u64` prints. -/
def imsiHex (buf : List UInt8) (len i : Nat) : List Char :=
  let byte := buf.getD i 0
  if fillerAt buf len i then hexByte ((byte &&& 0x0F) <<< 4)
  else hexByte (((byte &&& 0x0F) <<< 4) ||| ((byte &&& 0xF0) >>> 4))

/-- `decode_imsi_to_u64`. Without a digit nothing is stored. For eight bytes the terminator of `hex`
is one byte behind it. -/
def decodeImsiToU64 (buf : List UInt8) (len : Nat) : Option UInt64 :=
  let hex := (List.range len).flatMap (imsiHex buf len)
  let (value, rest) := scanDigits 10 0 hex
  if rest.length = hex.length then none
  else
    let imsi := UInt64.ofNat (min value (2 ^ 64 - 1))
    some (if fillerAt buf len (len - 1) then imsi / 10 else imsi)

/-- The text `bin_to_str` leaves at `s_val`, with room for `2 * b_len` bytes. -/
def binToStr (bVal : List UInt8) (bLen : Nat) : List Char :=
  let sVal : List UInt8 := (List.range bLen).flatMap fun i =>
    let byte : UInt8 := bVal.getD i 0
    [(0x30 : UInt8) + (byte &&& 0x0F), (0x30 : UInt8) + ((byte >>> 4) &&& 0x0F)]
  ((sVal.set (bLen * 2 - 1) 0).takeWhile (· ≠ 0)).map fun c => Char.ofNat c.toNat

theorem exists_digitChar_of_isDigit {c : Char} (digit : c.isDigit) : ∃ d < 10, c = d.digitChar := by
  have bounds := toNat_lt_of_isDigit digit
  obtain ⟨d, code⟩ := Nat.exists_eq_add_of_le bounds.1
  have small : d < 10 := by omega
  have char : c = Char.ofNat (48 + d) := by rw [← code, Char.ofNat_toNat]
  refine ⟨d, small, char.trans ?_⟩
  interval_cases d <;> rfl

theorem digitByte_spec : ∀ low high : Fin 10,
    let byte := (UInt8.ofNat high <<< 4) ||| UInt8.ofNat low
    (byte &&& 0xF0) >>> 4 ≠ 0x0F ∧
      hexByte (((byte &&& 0x0F) <<< 4) ||| ((byte &&& 0xF0) >>> 4)) =
        [low.val.digitChar, high.val.digitChar] ∧
      (0x30 : UInt8) + (byte &&& 0x0F) = low.val.digitChar.toUInt8 ∧
      (0x30 : UInt8) + ((byte >>> 4) &&& 0x0F) = high.val.digitChar.toUInt8 := by
  decide

theorem fillerByte_spec : ∀ low : Fin 10,
    let byte := 0xF0 ||| UInt8.ofNat low
    (byte &&& 0xF0) >>> 4 = 0x0F ∧
      hexByte ((byte &&& 0x0F) <<< 4) = [low.val.digitChar, '0'] ∧
      (0x30 : UInt8) + (byte &&& 0x0F) = low.val.digitChar.toUInt8 := by
  decide

section

variable (imsi : UInt64) {i : Nat}

/-- The nibble both encodings take from a position of the decimal text. -/
def imsiDigit (j : Nat) : Nat :=
  (imsiBuf imsi j &&& 0xF).toNat

theorem imsiBuf_and (j : Nat) : imsiBuf imsi j &&& 0xF = UInt8.ofNat (imsiDigit imsi j) :=
  (UInt8.ofNat_toNat).symm

theorem imsiDigit_inside {j : Nat} {c : Char} (inside : (decimal imsi.toNat)[j]? = some c) :
    imsiDigit imsi j < 10 ∧ (imsiDigit imsi j).digitChar = c := by
  obtain ⟨d, small, rfl⟩ := exists_digitChar_of_isDigit
    (isDigit_of_mem_decimal (mem_of_getElem? inside))
  rw [imsiDigit, imsiBuf, inside]
  interval_cases d <;> decide

theorem imsiDigit_behind {j : Nat} (behind : (decimal imsi.toNat).length ≤ j) :
    imsiDigit imsi j = 0 := by
  rw [imsiDigit, imsiBuf, getElem?_eq_none behind]
  rfl

theorem imsiDigit_lt (j : Nat) : imsiDigit imsi j < 10 := by
  rcases Nat.lt_or_ge j (decimal imsi.toNat).length with inside | behind
  · exact (imsiDigit_inside imsi (getElem?_eq_getElem inside)).1
  · rw [imsiDigit_behind imsi behind]
    decide

theorem map_imsiDigit {k : Nat} (room : (decimal imsi.toNat).length ≤ k) :
    (List.range k).map (fun j => (imsiDigit imsi j).digitChar) =
      decimal imsi.toNat ++ List.replicate (k - (decimal imsi.toNat).length) '0' := by
  apply ext_getElem?
  intro j
  rcases Nat.lt_or_ge j (decimal imsi.toNat).length with inside | behind
  · have char := getElem?_eq_getElem inside
    rw [getElem?_append_left inside, char, getElem?_map,
      getElem?_range (inside.trans_le room), Option.map_some, (imsiDigit_inside imsi char).2]
  · rw [getElem?_append_right behind, getElem?_map, getElem?_replicate]
    rcases Nat.lt_or_ge j k with within | beyond
    · rw [getElem?_range within, if_pos (by omega), Option.map_some, imsiDigit_behind imsi behind]
      rfl
    · rw [getElem?_eq_none (by simpa using beyond), if_neg (by omega), Option.map_none]

theorem encodeImsiToBin_getD (inside : i < binaryImsiLen) :
    (encodeImsiToBin imsi binaryImsiLen).getD i 0 =
      if i = 7 ∧ (decimal imsi.toNat).length % 2 = 1 then
        0xF0 ||| UInt8.ofNat (imsiDigit imsi 14)
      else
        (UInt8.ofNat (imsiDigit imsi (i * 2 + 1)) <<< 4) ||| UInt8.ofNat (imsiDigit imsi (i * 2)) := by
  rw [binaryImsiLen] at inside
  simp only [encodeImsiToBin, imsiBuf_and, binaryImsiLen]
  by_cases odd : (decimal imsi.toNat).length % 2 = 1
  · have filler : (0xF : UInt8) <<< 4 = 0xF0 := rfl
    rw [if_pos odd, filler]
    interval_cases i <;> simp [odd, range_succ]
  · rw [if_neg odd, if_neg fun both => odd both.2]
    interval_cases i <;> rfl

theorem fillerAt_encode (inside : i < binaryImsiLen) :
    fillerAt (encodeImsiToBin imsi binaryImsiLen) binaryImsiLen i =
      decide (i = 7 ∧ (decimal imsi.toNat).length % 2 = 1) := by
  have digits := digitByte_spec ⟨_, imsiDigit_lt imsi (i * 2)⟩ ⟨_, imsiDigit_lt imsi (i * 2 + 1)⟩
  have filler := fillerByte_spec ⟨_, imsiDigit_lt imsi 14⟩
  rw [fillerAt, encodeImsiToBin_getD imsi inside]
  by_cases last : i = 7 ∧ (decimal imsi.toNat).length % 2 = 1
  · rw [if_pos last, filler.1]
    simp [last, binaryImsiLen]
  · rw [if_neg last, decide_eq_false last, decide_eq_false digits.1, Bool.and_false]

theorem imsiHex_encode (short : (decimal imsi.toNat).length ≤ 15) (inside : i < binaryImsiLen) :
    imsiHex (encodeImsiToBin imsi binaryImsiLen) binaryImsiLen i =
      [(imsiDigit imsi (i * 2)).digitChar, (imsiDigit imsi (i * 2 + 1)).digitChar] := by
  rw [imsiHex, fillerAt_encode imsi inside, encodeImsiToBin_getD imsi inside]
  by_cases last : i = 7 ∧ (decimal imsi.toNat).length % 2 = 1
  · have filler := fillerByte_spec ⟨_, imsiDigit_lt imsi 14⟩
    rw [if_pos last, decide_eq_true last, last.1, imsiDigit_behind imsi short]
    exact filler.2.1
  · have digits := digitByte_spec ⟨_, imsiDigit_lt imsi (i * 2)⟩ ⟨_, imsiDigit_lt imsi (i * 2 + 1)⟩
    rw [if_neg last, decide_eq_false last]
    exact digits.2.1

theorem flatMap_pairs {α : Type} (f : Nat → α) :
    (List.range binaryImsiLen).flatMap (fun i => [f (i * 2), f (i * 2 + 1)]) =
      (List.range 16).map f :=
  rfl

theorem hex_encode (short : (decimal imsi.toNat).length ≤ 15) :
    (List.range binaryImsiLen).flatMap
        (imsiHex (encodeImsiToBin imsi binaryImsiLen) binaryImsiLen) =
      decimal imsi.toNat ++ List.replicate (16 - (decimal imsi.toNat).length) '0' := by
  rw [← map_imsiDigit imsi (short.trans (by decide)), ← flatMap_pairs]
  apply flatMap_congr
  intro i mem
  exact imsiHex_encode imsi short (mem_range.mp mem)

theorem scanDigits_zeros (acc k : Nat) :
    scanDigits 10 acc (List.replicate k '0') = (acc * 10 ^ k, []) := by
  induction k generalizing acc with
  | zero => simp [scanDigits]
  | succ k ih =>
    have zero : '0' = Nat.digitChar 0 := rfl
    rw [replicate_succ]
    nth_rewrite 1 [zero]
    rw [scanDigits_digit (by decide) (by decide), ih, pow_succ']
    ring_nf

/-- The decoded number: shorter numbers come back with zeros behind them. -/
theorem decodeImsiToU64_encode (short : (decimal imsi.toNat).length ≤ 15) :
    ∃ decoded,
      decodeImsiToU64 (encodeImsiToBin imsi binaryImsiLen) binaryImsiLen = some decoded ∧
        decoded.toNat =
          if (decimal imsi.toNat).length % 2 = 1 then
            imsi.toNat * 10 ^ (15 - (decimal imsi.toNat).length)
          else imsi.toNat * 10 ^ (16 - (decimal imsi.toNat).length) := by
  have small : imsi.toNat < 10 ^ (decimal imsi.toNat).length :=
    (Nat.length_toDigits_le_iff (by decide) (length_pos_iff.mpr (decimal_ne_nil _))).mp le_rfl
  have bound : imsi.toNat * 10 ^ (16 - (decimal imsi.toNat).length) < 10 ^ 16 := by
    calc imsi.toNat * 10 ^ (16 - (decimal imsi.toNat).length)
        < 10 ^ (decimal imsi.toNat).length * 10 ^ (16 - (decimal imsi.toNat).length) :=
          Nat.mul_lt_mul_of_pos_right small (by positivity)
      _ = 10 ^ 16 := by rw [← pow_add, Nat.add_sub_cancel' (short.trans (by decide))]
  have scanned : scanDigits 10 0
      (decimal imsi.toNat ++ List.replicate (16 - (decimal imsi.toNat).length) '0') =
        (imsi.toNat * 10 ^ (16 - (decimal imsi.toNat).length), []) := by
    rw [decimal, scanDigits_toDigits_from (by decide) (by decide), scanDigits_zeros, zero_mul,
      zero_add]
  have width : (decimal imsi.toNat ++
      List.replicate (16 - (decimal imsi.toNat).length) '0').length ≠ 0 := by
    simp [decimal_ne_nil]
  have fits : min (imsi.toNat * 10 ^ (16 - (decimal imsi.toNat).length)) (2 ^ 64 - 1) =
      imsi.toNat * 10 ^ (16 - (decimal imsi.toNat).length) :=
    Nat.min_eq_left (bound.le.trans (by norm_num))
  rw [decodeImsiToU64, hex_encode imsi short, scanned]
  dsimp only
  rw [length_nil, if_neg width.symm, fits, fillerAt_encode imsi (by decide)]
  refine ⟨_, rfl, ?_⟩
  have value : (UInt64.ofNat (imsi.toNat * 10 ^ (16 - (decimal imsi.toNat).length))).toNat =
      imsi.toNat * 10 ^ (16 - (decimal imsi.toNat).length) :=
    UInt64.toNat_ofNat_of_lt' (bound.trans (by norm_num [UInt64.size]))
  by_cases odd : (decimal imsi.toNat).length % 2 = 1
  · have split : 16 - (decimal imsi.toNat).length = 15 - (decimal imsi.toNat).length + 1 := by omega
    rw [if_pos odd, if_pos (decide_eq_true ⟨rfl, odd⟩), UInt64.toNat_div, value, split, pow_succ,
      ← mul_assoc]
    exact Nat.mul_div_cancel _ (by decide)
  · rw [if_neg odd, if_neg (by simp [odd]), value]

theorem strByte_encode (inside : i < binaryImsiLen) :
    let byte := (encodeImsiToBin imsi binaryImsiLen).getD i 0
    (0x30 : UInt8) + (byte &&& 0x0F) = (imsiDigit imsi (i * 2)).digitChar.toUInt8 ∧
      (i < 7 → (0x30 : UInt8) + ((byte >>> 4) &&& 0x0F) =
        (imsiDigit imsi (i * 2 + 1)).digitChar.toUInt8) := by
  rw [encodeImsiToBin_getD imsi inside]
  by_cases last : i = 7 ∧ (decimal imsi.toNat).length % 2 = 1
  · rw [if_pos last, last.1]
    exact ⟨(fillerByte_spec ⟨_, imsiDigit_lt imsi 14⟩).2.2, fun less => absurd less (by decide)⟩
  · have digits := digitByte_spec ⟨_, imsiDigit_lt imsi (i * 2)⟩ ⟨_, imsiDigit_lt imsi (i * 2 + 1)⟩
    rw [if_neg last]
    exact ⟨digits.2.2.1, fun _ => digits.2.2.2⟩

theorem digitChar_toUInt8 : ∀ d : Fin 10,
    d.val.digitChar.toUInt8 ≠ 0 ∧ Char.ofNat d.val.digitChar.toUInt8.toNat = d.val.digitChar := by
  decide

theorem sVal_set (f g : Nat → UInt8) :
    ((List.range binaryImsiLen).flatMap fun i => [f i, g i]).set (binaryImsiLen * 2 - 1) 0 =
      ((List.range 7).flatMap fun i => [f i, g i]) ++ [f 7, 0] :=
  rfl

theorem binToStr_encode (short : (decimal imsi.toNat).length ≤ 15) :
    binToStr (encodeImsiToBin imsi binaryImsiLen) binaryImsiLen =
      decimal imsi.toNat ++ List.replicate (15 - (decimal imsi.toNat).length) '0' := by
  have written : (((List.range binaryImsiLen).flatMap fun i =>
      let byte : UInt8 := (encodeImsiToBin imsi binaryImsiLen).getD i 0
      [(0x30 : UInt8) + (byte &&& 0x0F), (0x30 : UInt8) + ((byte >>> 4) &&& 0x0F)]).set
        (binaryImsiLen * 2 - 1) 0) =
      (List.range 15).map (fun j => (imsiDigit imsi j).digitChar.toUInt8) ++ [0] := by
    have front : ((List.range 7).flatMap fun i =>
        let byte : UInt8 := (encodeImsiToBin imsi binaryImsiLen).getD i 0
        [(0x30 : UInt8) + (byte &&& 0x0F), (0x30 : UInt8) + ((byte >>> 4) &&& 0x0F)]) =
        (List.range 7).flatMap fun i =>
          [(imsiDigit imsi (i * 2)).digitChar.toUInt8,
            (imsiDigit imsi (i * 2 + 1)).digitChar.toUInt8] := by
      apply flatMap_congr
      intro i mem
      have less : i < 7 := mem_range.mp mem
      have both := strByte_encode imsi (less.trans (by decide : 7 < binaryImsiLen))
      dsimp only at both ⊢
      rw [both.1, both.2 less]
    have last := (strByte_encode imsi (by decide : 7 < binaryImsiLen)).1
    rw [sVal_set, front, last]
    rfl
  have nonzero : ∀ c ∈ (List.range 15).map (fun j => (imsiDigit imsi j).digitChar.toUInt8),
      decide (c ≠ 0) = true := by
    intro c mem
    obtain ⟨j, -, rfl⟩ := mem_map.mp mem
    exact decide_eq_true (digitChar_toUInt8 ⟨_, imsiDigit_lt imsi j⟩).1
  rw [binToStr, written, takeWhile_append_of_pos nonzero, ← map_imsiDigit imsi short,
    map_append, map_map]
  have chars : ∀ j ∈ List.range 15,
      Char.ofNat (imsiDigit imsi j).digitChar.toUInt8.toNat = (imsiDigit imsi j).digitChar :=
    fun j _ => (digitChar_toUInt8 ⟨_, imsiDigit_lt imsi j⟩).2
  simpa using map_congr_left chars

end

/-- The IMSI is found again by both readers exactly when it has fifteen digits. -/
theorem imsi_decoded_iff (imsi : UInt64) (atLeast : 10 ^ 5 ≤ imsi.toNat) (atMost : imsi.toNat < 10 ^ 15) :
    (decodeImsiToU64 (encodeImsiToBin imsi binaryImsiLen) binaryImsiLen = some imsi ∧
        binToStr (encodeImsiToBin imsi binaryImsiLen) binaryImsiLen = decimal imsi.toNat) ↔
      10 ^ 14 ≤ imsi.toNat := by
  have short : (decimal imsi.toNat).length ≤ 15 := length_decimal_le (by decide) atMost
  have full : 10 ^ 14 ≤ imsi.toNat ↔ (decimal imsi.toNat).length = 15 := by
    have fourteen : (decimal imsi.toNat).length ≤ 14 ↔ imsi.toNat < 10 ^ 14 :=
      Nat.length_toDigits_le_iff (by decide) (by decide)
    omega
  obtain ⟨decoded, decodes, value⟩ := decodeImsiToU64_encode imsi short
  rw [full, decodes, binToStr_encode imsi short]
  constructor
  · rintro ⟨-, printed⟩
    have zeros : 15 - (decimal imsi.toNat).length = 0 := by simpa using printed
    omega
  · intro fifteen
    rw [fifteen, if_pos (by decide), Nat.sub_self, pow_zero, mul_one] at value
    rw [UInt64.toNat.inj value, fifteen]
    simp

theorem imsi_decoded_fifteenDigits :
    decodeImsiToU64 (encodeImsiToBin 404123456789012 binaryImsiLen) binaryImsiLen =
        some 404123456789012 ∧
      binToStr (encodeImsiToBin 404123456789012 binaryImsiLen) binaryImsiLen =
        decimal 404123456789012 :=
  (imsi_decoded_iff 404123456789012 (by decide) (by decide)).mpr (by decide)

/-- Six digits come back as sixteen. -/
theorem sixDigits_not_decoded :
    decodeImsiToU64 (encodeImsiToBin 123456 binaryImsiLen) binaryImsiLen =
        some 1234560000000000 ∧
      binToStr (encodeImsiToBin 123456 binaryImsiLen) binaryImsiLen =
        "123456000000000".toList ∧
      decodeImsiToU64 (encodeImsiToBin 123456 binaryImsiLen) binaryImsiLen ≠ some 123456 ∧
      binToStr (encodeImsiToBin 123456 binaryImsiLen) binaryImsiLen ≠ decimal 123456 := by
  decide

end Epc
