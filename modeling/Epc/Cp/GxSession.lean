import Epc.Lib.Text

/-! The session ids of the Gx interface (`pfcp_messages/pfcp_init.c`): a timestamp and the call id, which is
read back from them. -/

namespace Epc.Cp.GxSession

open Epc.Lib.Text List

def maxLen : Nat := 128
def gxSessIdLen : Nat := 256
def timestampLen : Nat := 14

/-- `tmp_buf` behind the loop of `int_to_str`: the digits, the last one first. -/
def tmpBuf (val : Nat) : List Char :=
  if val = 0 then [] else Char.ofNat (val % 10 + 48) :: tmpBuf (val / 10)

/-- `int_to_str`; none where the terminator is written behind the ten octets of `tmp_buf`. -/
def intToStr (val : UInt32) : Option (List Char) :=
  let tmpBuf := tmpBuf val.toNat
  if tmpBuf.length < 10 then
    some ((List.range tmpBuf.length).map fun idx => tmpBuf.getD (tmpBuf.length - 1 - idx) '0')
  else none

/-- `gen_sess_id_string`; none also for its -1. -/
def genSessIdString (timestamp : List Char) (value : UInt32) : Option (List Char) :=
  match intToStr value with
  | none | some [] => none
  | some buf => some ((timestamp ++ buf).take (gxSessIdLen - 1))

/-- `retrieve_call_id` on a string with a timestamp; none for -1, and where `buf` is too short. -/
def retrieveCallId (str : List Char) : Option UInt32 :=
  let buf := str.drop timestampLen
  if buf.length < maxLen then
    let callId : UInt32 := .ofInt (atoi buf)
    if callId = 0 then none else some callId
  else none

theorem ofNat_digit {d : Nat} (small : d < 10) : Char.ofNat (d + 48) = d.digitChar := by
  interval_cases d <;> rfl

theorem reverse_tmpBuf {n : Nat} (pos : n ≠ 0) : (tmpBuf n).reverse = decimal n := by
  induction n using Nat.strong_induction_on with
  | _ n ih =>
    rw [tmpBuf, if_neg pos, reverse_cons, ofNat_digit (Nat.mod_lt n (by decide)), decimal]
    by_cases small : n < 10
    · rw [Nat.div_eq_of_lt small, Nat.mod_eq_of_lt small, Nat.toDigits_of_lt_base small, tmpBuf]
      rfl
    · rw [ih (n / 10) (by omega) (by omega), Nat.toDigits_of_base_le (by decide) (by omega)]
      rfl

theorem intToStr_eq {val : UInt32} (pos : val ≠ 0) (small : val.toNat < 10 ^ 9) :
    intToStr val = some (decimal val.toNat) := by
  have digits := reverse_tmpBuf fun zero => pos (UInt32.toNat_inj.mp zero)
  have few : (tmpBuf val.toNat).length ≤ 9 := by
    rw [← length_reverse, digits]
    exact length_decimal_le (by decide) small
  rw [intToStr, if_pos (by omega), ← digits]
  congr 1
  refine ext_getElem (by simp) fun i inside _ => ?_
  simp at inside
  simp [getElem_reverse, show (tmpBuf val.toNat).length - 1 - i < (tmpBuf val.toNat).length by omega]

theorem retrieveCallId_genSessIdString {timestamp : List Char} (length : timestamp.length = timestampLen)
    {c : UInt32} (pos : c ≠ 0) (small : c.toNat < 10 ^ 9) :
    (genSessIdString timestamp c).bind retrieveCallId = some c := by
  have few := length_decimal_le (by decide) small
  have whole : (timestamp ++ decimal c.toNat).take (gxSessIdLen - 1) = timestamp ++ decimal c.toNat := by
    refine take_of_length_le ?_
    rw [length_append, length]
    exact Nat.add_le_add_left few _ |>.trans (by decide)
  have given : genSessIdString timestamp c = some (timestamp ++ decimal c.toNat) := by
    rw [genSessIdString, intToStr_eq pos small]
    split
    · next none => cases none
    · next empty => exact absurd (Option.some.inj empty) (decimal_ne_nil _)
    · next buf _ given => rw [← Option.some.inj given, whole]
  have value : UInt32.ofInt (atoi (decimal c.toNat)) = c := by
    have same : ((c.toNat : Int) % 2 ^ 32).toNat = c.toNat := by omega
    rw [atoi_decimal (by omega), UInt32.ofInt, same, UInt32.ofNat_toNat]
  rw [given, Option.bind_some, retrieveCallId, ← length, drop_left, if_pos, value, if_neg pos]
  exact few.trans_lt (by decide)

/-- The call id is read back from the session id, so that session ids of one timestamp differ. -/
theorem sessId_carries_callId (timestamp : List Char) (length : timestamp.length = timestampLen) (c : UInt32)
    (pos : c ≠ 0) (small : c.toNat < 10 ^ 9) :
    (genSessIdString timestamp c).bind retrieveCallId = some c ∧
      ∀ c' : UInt32, c' ≠ 0 → c'.toNat < 10 ^ 9 → c' ≠ c →
        genSessIdString timestamp c' ≠ genSessIdString timestamp c := by
  have read := retrieveCallId_genSessIdString length pos small
  refine ⟨read, fun c' pos' small' ne same => ne ?_⟩
  have read' := retrieveCallId_genSessIdString length pos' small'
  rw [same, read] at read'
  exact (Option.some.inj read').symm

theorem sessId_carries_callId_noon :
    let timestamp := ['2', '0', '2', '4', '0', '1', '3', '1', '1', '2', '0', '0', '0', '0']
    (genSessIdString timestamp 100200300).bind retrieveCallId = some 100200300 ∧
      ∀ c' : UInt32, c' ≠ 0 → c'.toNat < 10 ^ 9 → c' ≠ 100200300 →
        genSessIdString timestamp c' ≠ genSessIdString timestamp 100200300 :=
  sessId_carries_callId _ rfl 100200300 (by decide) (by decide)

end Epc.Cp.GxSession
