import Epc.Node

/-! The IPv6 subnet test of `pfcp_messages/pfcp_util.c`: `validate_ipv6_network` and `retrieve_ipv6_prefix`
work on the whole octets of a prefix. -/

namespace Epc.Ipv6Network

open NodeAddress

def octet (addr : Ipv6Address) (inx : Nat) : UInt8 :=
  addr[inx]?.getD 0

/-- The comparison of octets with its flag `match`, left at the first difference. -/
def matchLoop (addr localAddr : Ipv6Address) : List Nat → Bool → Bool
  | [], found => found
  | inx :: rest, _ =>
    if octet addr inx = octet localAddr inx then matchLoop addr localAddr rest true else false

def validateIpv6Network (addr localAddr : Ipv6Address) (localPrefix : UInt8) : Nat :=
  if matchLoop addr localAddr (List.range (localPrefix.toNat / 8)) false then 1 else 0

def copyOctet (addr tmp : Ipv6Address) (inx : Nat) : Ipv6Address :=
  tmp.setIfInBounds inx (octet addr inx)

def retrieveIpv6Prefix (addr : Ipv6Address) (localPrefix : UInt8) : Ipv6Address :=
  (List.range (localPrefix.toNat / 8)).foldl (copyOctet addr) zeroIpv6

/-- Bit `i` of an address, counted from the front. -/
def bit (addr : Ipv6Address) (i : Nat) : Bool :=
  (octet addr (i / 8)).toBitVec.getMsbD (i % 8)

def SameBits (a b : Ipv6Address) (p : Nat) : Prop :=
  ∀ i < p, bit a i = bit b i

/-- Both functions go by the first `p` bits. -/
structure SubnetTest (p : UInt8) (a b : Ipv6Address) : Prop where
  validates : validateIpv6Network a b p = 1 ↔ SameBits a b p.toNat
  retrieves : SameBits a b p.toNat ↔ retrieveIpv6Prefix a p = retrieveIpv6Prefix b p
  keeps : ∀ i < 128, bit (retrieveIpv6Prefix a p) i = (decide (i < p.toNat) && bit a i)

section

variable {a b : Ipv6Address} {p : UInt8}

theorem matchLoop_iff (inxs : List Nat) (found : Bool) :
    matchLoop a b inxs found = true ↔
      (inxs = [] → found = true) ∧ ∀ inx ∈ inxs, octet a inx = octet b inx := by
  induction inxs generalizing found with
  | nil => simp [matchLoop]
  | cons inx rest ih =>
    rw [matchLoop]
    split
    · next same => simp [ih, same]
    · next differ => simp [differ]

theorem validateIpv6Network_iff :
    validateIpv6Network a b p = 1 ↔ 8 ≤ p.toNat ∧ ∀ inx < p.toNat / 8, octet a inx = octet b inx := by
  simp [validateIpv6Network, ite_eq_left_iff, matchLoop_iff]

theorem octet_copyOctet (tmp : Ipv6Address) {inx : Nat} (inside : inx < 16) (k : Nat) :
    octet (copyOctet a tmp inx) k = if k = inx then octet a k else octet tmp k := by
  by_cases same : k = inx
  · subst same
    simp [octet, copyOctet, inside]
  · simp [octet, copyOctet, same, Ne.symm same]

theorem octet_retrieveIpv6Prefix (fits : p.toNat ≤ 128) (k : Nat) :
    octet (retrieveIpv6Prefix a p) k = if k < p.toNat / 8 then octet a k else 0 := by
  have copied : ∀ n ≤ 16, octet ((List.range n).foldl (copyOctet a) zeroIpv6) k =
      if k < n then octet a k else 0 := by
    intro n
    induction n with
    | zero =>
      intro _
      by_cases inside : k < 16 <;> simp [octet, zeroIpv6, inside]
    | succ n ih =>
      intro bound
      rw [List.range_succ, List.foldl_concat, octet_copyOctet _ bound, ih (by omega)]
      by_cases last : k = n
      · simp [last]
      · simp only [last, if_false, show k < n + 1 ↔ k < n by omega]
  exact copied (p.toNat / 8) (by omega)

theorem retrieveIpv6Prefix_eq_iff (fits : p.toNat ≤ 128) :
    retrieveIpv6Prefix a p = retrieveIpv6Prefix b p ↔ ∀ k < p.toNat / 8, octet a k = octet b k := by
  constructor
  · intro same k inside
    have octets := congrArg (octet · k) same
    simpa only [octet_retrieveIpv6Prefix fits, inside, if_true] using octets
  · intro same
    have octets (k : Nat) : octet (retrieveIpv6Prefix a p) k = octet (retrieveIpv6Prefix b p) k := by
      rw [octet_retrieveIpv6Prefix fits, octet_retrieveIpv6Prefix fits]
      split
      · next inside => exact same k inside
      · rfl
    apply Vector.ext
    intro k inside
    simpa [octet, inside] using octets k

theorem bit_retrieveIpv6Prefix (fits : p.toNat ≤ 128) (i : Nat) :
    bit (retrieveIpv6Prefix a p) i = (decide (i < p.toNat / 8 * 8) && bit a i) := by
  rw [bit, octet_retrieveIpv6Prefix fits, bit]
  split
  · next inside => simp [show i < p.toNat / 8 * 8 by omega]
  · next outside => simp [show ¬ i < p.toNat / 8 * 8 by omega]

theorem sameBits_octets (n : Nat) : SameBits a b (n * 8) ↔ ∀ k < n, octet a k = octet b k := by
  constructor
  · intro same k inside
    apply UInt8.toBitVec_inj.mp
    apply BitVec.eq_of_getMsbD_eq
    intro j within
    have here := same (8 * k + j) (by omega)
    rwa [bit, bit, show (8 * k + j) / 8 = k by omega, show (8 * k + j) % 8 = j by omega] at here
  · intro same i inside
    rw [bit, bit, same (i / 8) (by omega)]

end

def ones : Ipv6Address := Vector.replicate 16 0xff

theorem bit_ones {i : Nat} (inside : i < 128) : bit ones i = true := by
  have byte : octet ones (i / 8) = 0xff := by simp [octet, ones, show i / 8 < 16 by omega]
  rw [bit, byte]
  have small : i % 8 < 8 := by omega
  interval_cases i % 8 <;> rfl

/-- The test is right for all addresses exactly for the prefixes of one or more whole octets. -/
theorem subnetTest_iff (p : UInt8) (fits : p.toNat ≤ 128) :
    (∀ a b, SubnetTest p a b) ↔ 0 < p.toNat ∧ 8 ∣ p.toNat := by
  constructor
  · intro test
    have whole : 8 ∣ p.toNat := by
      by_contra part
      -- The last bit of the prefix is in no whole octet, and is lost.
      have kept := (test ones ones).keeps (p.toNat - 1) (by omega)
      rw [bit_retrieveIpv6Prefix fits, bit_ones (by omega), decide_eq_false (by omega),
        decide_eq_true (by omega)] at kept
      cases kept
    refine ⟨Nat.pos_of_ne_zero fun zero => ?_, whole⟩
    have same : SameBits ones ones p.toNat := fun _ _ => rfl
    have long := (validateIpv6Network_iff.mp ((test ones ones).validates.mpr same)).1
    omega
  · rintro ⟨pos, whole⟩ a b
    have octets : p.toNat / 8 * 8 = p.toNat := Nat.div_mul_cancel whole
    have same : SameBits a b p.toNat ↔ ∀ k < p.toNat / 8, octet a k = octet b k := by
      rw [← sameBits_octets, octets]
    refine ⟨?_, ?_, fun i _ => ?_⟩
    · rw [validateIpv6Network_iff, same]
      exact and_iff_right (by omega)
    · rw [same, retrieveIpv6Prefix_eq_iff fits]
    · rw [bit_retrieveIpv6Prefix fits, octets]

theorem subnetTest_slash64 : (64 : UInt8).toNat ≤ 128 ∧ ∀ a b, SubnetTest 64 a b :=
  ⟨by decide, (subnetTest_iff 64 (by decide)).mpr ⟨by decide, by decide⟩⟩

/-- An address is outside its own `/4`, and inside a `/12` of which it has only the first octet. -/
theorem subnetTest_not_bits :
    validateIpv6Network ones ones 4 = 0 ∧
      validateIpv6Network ones (ones.setIfInBounds 1 0) 12 = 1 ∧
      ¬ SameBits ones (ones.setIfInBounds 1 0) 12 := by
  refine ⟨by decide, by decide, fun same => ?_⟩
  exact absurd (same 8 (by decide)) (by decide)

end Epc.Ipv6Network
