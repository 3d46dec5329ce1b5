import Mathlib

/-! The 64-bit packet masks of a burst. -/

namespace Epc.Up

abbrev PktMask := BitVec 64

def issetBit (mask : PktMask) (n : Nat) : Bool :=
  mask &&& (1#64 <<< n) != 0#64

def resetBit (mask : PktMask) (n : Nat) : PktMask :=
  mask &&& ~~~(1#64 <<< n)

theorem getLsbD_one_shiftLeft (n i : Nat) :
    (1#64 <<< n).getLsbD i = (decide (i < 64) && decide (i = n)) := by
  by_cases same : i = n
  · simp [same]
  · by_cases before : i < n
    · simp [same, before]
    · have shifted : i - n ≠ 0 := by omega
      simp [same, shifted]

theorem issetBit_eq (mask : PktMask) {n : Nat} (bound : n < 64) : issetBit mask n = mask.getLsbD n := by
  rw [issetBit, Bool.eq_iff_iff, bne_iff_ne]
  constructor
  · intro nonzero
    by_contra unset
    apply nonzero
    apply BitVec.eq_of_getLsbD_eq
    intro i _
    rw [BitVec.getLsbD_and, getLsbD_one_shiftLeft, BitVec.getLsbD_zero]
    by_cases same : i = n
    · subst same
      simp [Bool.eq_false_iff.mpr unset]
    · simp [same]
  · intro set zero
    have bit : (mask &&& (1#64 <<< n)).getLsbD n = false := by rw [zero, BitVec.getLsbD_zero]
    rw [BitVec.getLsbD_and, getLsbD_one_shiftLeft, set] at bit
    simp [bound] at bit

theorem issetBit_resetBit (mask : PktMask) (m : Nat) {n : Nat} (bound : n < 64) :
    issetBit (resetBit mask m) n = (issetBit mask n && decide (n ≠ m)) := by
  rw [issetBit_eq _ bound, issetBit_eq _ bound, resetBit, BitVec.getLsbD_and,
    BitVec.getLsbD_not, getLsbD_one_shiftLeft]
  by_cases same : n = m <;> simp [same, bound]

end Epc.Up
