import Mathlib.Data.Nat.Notation
import Mathlib.Tactic.Ring

/-! Integers in memory on a little-endian machine, the conversions to network byte order, and fields read
one after another. -/

namespace Epc.Lib.Bytes

open List

def memory : Nat → Nat → List UInt8
  | 0, _ => []
  | n + 1, v => UInt8.ofNat v :: memory n (v / 256)

def value : List UInt8 → Nat
  | [] => 0
  | b :: bs => b.toNat + 256 * value bs

@[simp]
theorem length_memory (n v : Nat) : (memory n v).length = n := by
  induction n generalizing v with
  | zero => rfl
  | succ n ih => rw [memory, length_cons, ih]

theorem value_lt (bytes : List UInt8) : value bytes < 256 ^ bytes.length := by
  induction bytes with
  | nil => decide
  | cons b bs ih =>
    have byte := b.toNat_lt
    rw [value, length_cons, pow_succ]
    omega

theorem value_memory_mod (n v : Nat) : value (memory n v) = v % 256 ^ n := by
  induction n generalizing v with
  | zero => exact (Nat.mod_one v).symm
  | succ n ih => rw [memory, value, ih, UInt8.toNat_ofNat', pow_succ' 256, Nat.mod_mul]

theorem value_memory {n v : Nat} (fits : v < 256 ^ n) : value (memory n v) = v := by
  rw [value_memory_mod, Nat.mod_eq_of_lt fits]

theorem take_memory {n m : Nat} (le : n ≤ m) (v : Nat) : (memory m v).take n = memory n v := by
  induction n generalizing m v with
  | zero => rfl
  | succ n ih =>
    cases m with
    | zero => omega
    | succ m => rw [memory, take_succ_cons, ih (by omega), memory]

theorem memory_value (bytes : List UInt8) : memory bytes.length (value bytes) = bytes := by
  induction bytes with
  | nil => rfl
  | cons b bs ih =>
    have byte := b.toNat_lt
    have low : UInt8.ofNat (b.toNat + 256 * value bs) = b := by
      apply UInt8.toNat_inj.mp
      rw [UInt8.toNat_ofNat']
      omega
    have high : (b.toNat + 256 * value bs) / 256 = value bs := by omega
    rw [value, length_cons, memory, low, high, ih]

theorem memory_eq_iff {n v w : Nat} : memory n v = memory n w ↔ v % 256 ^ n = w % 256 ^ n := by
  rw [← value_memory_mod, ← value_memory_mod]
  refine ⟨congrArg value, fun same => ?_⟩
  have first := memory_value (memory n v)
  have second := memory_value (memory n w)
  rw [length_memory] at first second
  rw [← first, same, second]

section

def store16 (x : UInt16) : List UInt8 := memory 2 x.toNat

def store32 (x : UInt32) : List UInt8 := memory 4 x.toNat

def store64 (x : UInt64) : List UInt8 := memory 8 x.toNat

def load8 (bytes : List UInt8) : UInt8 := bytes.headD 0

def load16 (bytes : List UInt8) : UInt16 := .ofNat (value bytes)

def load32 (bytes : List UInt8) : UInt32 := .ofNat (value bytes)

def load64 (bytes : List UInt8) : UInt64 := .ofNat (value bytes)

@[simp]
theorem length_store16 (x : UInt16) : (store16 x).length = 2 := length_memory ..

@[simp]
theorem length_store32 (x : UInt32) : (store32 x).length = 4 := length_memory ..

@[simp]
theorem length_store64 (x : UInt64) : (store64 x).length = 8 := length_memory ..

@[simp]
theorem load16_store16 (x : UInt16) : load16 (store16 x) = x := by
  rw [load16, store16, value_memory x.toNat_lt, UInt16.ofNat_toNat]

@[simp]
theorem load32_store32 (x : UInt32) : load32 (store32 x) = x := by
  rw [load32, store32, value_memory x.toNat_lt, UInt32.ofNat_toNat]

@[simp]
theorem load64_store64 (x : UInt64) : load64 (store64 x) = x := by
  rw [load64, store64, value_memory x.toNat_lt, UInt64.ofNat_toNat]

theorem store16_load16 {bytes : List UInt8} (two : bytes.length = 2) : store16 (load16 bytes) = bytes := by
  have fits := value_lt bytes
  rw [two] at fits
  rw [store16, load16, UInt16.toNat_ofNat', Nat.mod_eq_of_lt (by simpa using fits), ← two, memory_value]

theorem store32_load32 {bytes : List UInt8} (four : bytes.length = 4) : store32 (load32 bytes) = bytes := by
  have fits := value_lt bytes
  rw [four] at fits
  rw [store32, load32, UInt32.toNat_ofNat', Nat.mod_eq_of_lt (by simpa using fits), ← four, memory_value]

end

section

def htons (x : UInt16) : UInt16 := load16 (store16 x).reverse

def htonl (x : UInt32) : UInt32 := load32 (store32 x).reverse

def ntohs (x : UInt16) : UInt16 := htons x

def ntohl (x : UInt32) : UInt32 := htonl x

theorem store16_htons (x : UInt16) : store16 (htons x) = (store16 x).reverse :=
  store16_load16 (by simp)

theorem store32_htonl (x : UInt32) : store32 (htonl x) = (store32 x).reverse :=
  store32_load32 (by simp)

@[simp]
theorem ntohs_htons (x : UInt16) : ntohs (htons x) = x := by
  rw [ntohs, htons, store16_htons, reverse_reverse, load16_store16]

@[simp]
theorem ntohl_htonl (x : UInt32) : ntohl (htonl x) = x := by
  rw [ntohl, htonl, store32_htonl, reverse_reverse, load32_store32]

theorem toNat_load32 {bytes : List UInt8} (four : bytes.length = 4) :
    (load32 bytes).toNat = value bytes := by
  have fits := value_lt bytes
  rw [four] at fits
  rw [load32, UInt32.toNat_ofNat', Nat.mod_eq_of_lt (by simpa using fits)]

theorem toNat_ntohl_load32 {bytes : List UInt8} (four : bytes.length = 4) :
    (ntohl (load32 bytes)).toNat = value bytes.reverse := by
  rw [ntohl, htonl, store32_load32 four, toNat_load32 (by simpa using four)]

theorem htonl_octet (octet : UInt8) : htonl octet.toUInt32 = load32 [0, 0, 0, octet] := by
  have stored : store32 octet.toUInt32 = [octet, 0, 0, 0] := by
    rw [store32, UInt8.toNat_toUInt32]
    simp only [memory, UInt8.ofNat_toNat, Nat.div_eq_of_lt octet.toNat_lt]
    rfl
  rw [htonl, stored]
  rfl

theorem load32_sub (a b c d e : UInt8) :
    load32 [a, b, c, d] - load32 [0, 0, 0, e] = load32 [a, b, c, d - e] := by
  have bounds := And.intro a.toNat_lt (And.intro b.toNat_lt (And.intro c.toNat_lt d.toNat_lt))
  have small := e.toNat_lt
  rw [← UInt32.toNat_inj, UInt32.toNat_sub, toNat_load32 rfl, toNat_load32 rfl, toNat_load32 rfl]
  simp only [value, UInt8.toNat_sub, UInt8.toNat_zero]
  omega

theorem memory_or (n a b : Nat) : memory n (a ||| b) = zipWith (· ||| ·) (memory n a) (memory n b) := by
  induction n generalizing a b with
  | zero => rfl
  | succ n ih =>
    have rest : (a ||| b) / 256 = a / 256 ||| b / 256 := Nat.or_div_two_pow (n := 8)
    rw [memory, memory, memory, zipWith_cons_cons, rest, ih, UInt8.ofNat_or]

theorem value_or {as bs : List UInt8} (same : as.length = bs.length) :
    value (zipWith (· ||| ·) as bs) = value as ||| value bs := by
  induction as generalizing bs with
  | nil => cases bs <;> simp_all [value]
  | cons a as ih =>
    obtain ⟨b, bs, rfl⟩ := exists_cons_of_length_eq_add_one same.symm
    rw [zipWith_cons_cons, value, ih (Nat.succ.inj same), UInt8.toNat_or, value, value]
    apply Nat.eq_of_testBit_eq
    intro i
    have octets : a.toNat ||| b.toNat < 2 ^ 8 := Nat.or_lt_two_pow a.toNat_lt b.toNat_lt
    rw [Nat.testBit_or, Nat.add_comm, Nat.add_comm a.toNat, Nat.add_comm b.toNat,
      show 256 = 2 ^ 8 from rfl, Nat.testBit_two_pow_mul_add _ octets,
      Nat.testBit_two_pow_mul_add _ a.toNat_lt, Nat.testBit_two_pow_mul_add _ b.toNat_lt]
    split <;> rw [Nat.testBit_or]

theorem htonl_or (x y : UInt32) : htonl (x ||| y) = htonl x ||| htonl y := by
  have same : (memory 4 x.toNat).length = (memory 4 y.toNat).length := by simp
  rw [htonl, store32, UInt32.toNat_or, memory_or, reverse_zipWith same, load32,
    value_or (by simp), UInt32.ofNat_or]
  rfl

theorem or_two_pow_sub_one (a h : Nat) : a ||| (2 ^ h - 1) = 2 ^ h * (a / 2 ^ h) + (2 ^ h - 1) := by
  apply Nat.eq_of_testBit_eq
  intro i
  rw [Nat.testBit_or, Nat.testBit_two_pow_mul_add _ (Nat.sub_lt (Nat.two_pow_pos h) Nat.one_pos),
    Nat.testBit_two_pow_sub_one, Nat.testBit_div_two_pow]
  split <;> grind

end

/-- The next `n` bytes and the rest. -/
def field (n : Nat) (bytes : List UInt8) : Option (List UInt8 × List UInt8) :=
  if n ≤ bytes.length then some (bytes.take n, bytes.drop n) else none

theorem field_append {n : Nat} {bytes : List UInt8} (whole : bytes.length = n) (rest : List UInt8) :
    field n (bytes ++ rest) = some (bytes, rest) := by
  subst whole
  simp [field]

theorem field_bind {n : Nat} {β : Type} {bytes : List UInt8} (whole : bytes.length = n)
    (rest : List UInt8) (f : List UInt8 × List UInt8 → Option β) :
    (field n (bytes ++ rest) >>= f) = f (bytes, rest) := by
  rw [field_append whole]
  rfl

end Epc.Lib.Bytes
