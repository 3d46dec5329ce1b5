import Epc.Lib.Bytes
import Epc.Node

/-! The addresses that `acquire_ip` and `acquire_ipv6` give to UEs from the pools of an APN. -/

namespace Epc.Cp

open Epc.Lib.Bytes List

def allDynamicAddressesOccupied : UInt32 := 84

def ldbEntriesDefault : UInt32 := 1024 * 512

/-- `GET_UE_IP`; pool and mask are in network order. -/
def getUeIp (ipPool ipPoolMask ueIndex : UInt32) : UInt32 :=
  ((ipPool ||| ~~~ipPoolMask) - htonl ueIndex) - 0x01000000

/-- `acquire_ip`: `next_ip_index` afterwards, and the address or the value returned without one. -/
def acquireIp (ipPool ipPoolMask nextIpIndex : UInt32) : UInt32 × Except UInt32 UInt32 :=
  if nextIpIndex = ldbEntriesDefault then (nextIpIndex, .error allDynamicAddressesOccupied)
  else (nextIpIndex + 1, .ok (getUeIp ipPool ipPoolMask nextIpIndex))

/-- The results of a number of calls. -/
def ipv4Run (ipPool ipPoolMask nextIpIndex : UInt32) : Nat → List (Except UInt32 UInt32)
  | 0 => []
  | n + 1 =>
    let (index, result) := acquireIp ipPool ipPoolMask nextIpIndex
    result :: ipv4Run ipPool ipPoolMask index n

/-- The mask with `h` host bits, in network order. -/
def contiguousMask (h : Nat) : UInt32 := ~~~htonl (.ofNat (2 ^ h - 1))

/-- The `i`-th of `n` calls from process start succeeds with an address. -/
def Ipv4Given (ipPool : UInt32) (h n i : Nat) (address : UInt32) : Prop :=
  (ipv4Run ipPool (contiguousMask h) 0 n)[i]? = some (.ok address)

/-- The addresses given, as numbers in host order, are host addresses of the subnet, no two the
same. -/
structure Ipv4PoolRight (ipPool : UInt32) (h n : Nat) : Prop where
  subnet : ∀ i a, Ipv4Given ipPool h n i a →
    (ntohl a).toNat / 2 ^ h = (ntohl ipPool).toNat / 2 ^ h
  host : ∀ i a, Ipv4Given ipPool h n i a →
    (ntohl a).toNat % 2 ^ h ≠ 0 ∧ (ntohl a).toNat % 2 ^ h ≠ 2 ^ h - 1
  distinct : ∀ i j a b, i < j → Ipv4Given ipPool h n i a → Ipv4Given ipPool h n j b → a ≠ b

/-- The calls before the last octet has gone through its host part. -/
def ipv4Capacity (h : Nat) : Nat := if h ≤ 8 then 2 ^ h - 2 else 255

section

variable {ipPool ipPoolMask : UInt32}

theorem length_ipv4Run (index : UInt32) (n : Nat) : (ipv4Run ipPool ipPoolMask index n).length = n := by
  induction n generalizing index with
  | zero => rfl
  | succ n ih => rw [ipv4Run, length_cons, ih]

theorem getElem?_ipv4Run {index : UInt32} {n i : Nat} (inside : i < n)
    (room : index.toNat + i < ldbEntriesDefault.toNat) : (ipv4Run ipPool ipPoolMask index n)[i]? =
      some (.ok (getUeIp ipPool ipPoolMask (index + .ofNat i))) := by
  induction n generalizing index i with
  | zero => omega
  | succ n ih =>
    have more : index ≠ ldbEntriesDefault := by
      rintro rfl
      omega
    rw [ipv4Run, acquireIp, if_neg more]
    cases i with
    | zero => simp
    | succ i =>
      have small : ldbEntriesDefault.toNat = 524288 := rfl
      have next : (index + 1).toNat = index.toNat + 1 := by
        rw [UInt32.toNat_add, UInt32.toNat_one]
        omega
      rw [getElem?_cons_succ, ih (by omega) (by omega), UInt32.ofNat_add, UInt32.ofNat_one,
        UInt32.add_assoc, UInt32.add_comm 1]

theorem ipv4Given_iff {h n i : Nat} (octet : i < 256) {a : UInt32} :
    Ipv4Given ipPool h n i a ↔ i < n ∧ a = getUeIp ipPool (contiguousMask h) (.ofNat i) := by
  have room : (0 : UInt32).toNat + i < ldbEntriesDefault.toNat := by
    have small : ldbEntriesDefault.toNat = 524288 := rfl
    rw [UInt32.toNat_zero]
    omega
  unfold Ipv4Given
  by_cases inside : i < n
  · rw [getElem?_ipv4Run inside room, UInt32.zero_add]
    simp [inside, eq_comm]
  · rw [getElem?_eq_none (by rw [length_ipv4Run]; omega)]
    simp [inside]

/-- Subtracting the index in network order lowers the last octet only. -/
theorem getUeIp_octet {a b c d : UInt8} (word : ipPool ||| ~~~ipPoolMask = load32 [a, b, c, d])
    {i : Nat} (octet : i < 256) :
    getUeIp ipPool ipPoolMask (.ofNat i) = load32 [a, b, c, d - .ofNat i - 1] := by
  have index : UInt32.ofNat i = (UInt8.ofNat i).toUInt32 := by
    rw [← UInt32.toNat_inj, UInt8.toNat_toUInt32, UInt32.toNat_ofNat', UInt8.toNat_ofNat']
    omega
  have one : (0x01000000 : UInt32) = load32 [0, 0, 0, 1] := rfl
  rw [getUeIp, word, index, htonl_octet, one, load32_sub, load32_sub]

/-- The broadcast address of the pool, in host order. -/
def broadcast (ipPool : UInt32) (h : Nat) : Nat :=
  2 ^ h * ((ntohl ipPool).toNat / 2 ^ h) + (2 ^ h - 1)

theorem ntohl_broadcast (ipPool : UInt32) {h : Nat} (few : h ≤ 24) :
    (ntohl (ipPool ||| ~~~contiguousMask h)).toNat = broadcast ipPool h := by
  have fits : 2 ^ h - 1 < 2 ^ 32 := by
    have le := Nat.pow_le_pow_right (n := 2) (by decide) few
    omega
  rw [contiguousMask, UInt32.not_not, ntohl, htonl_or, ← ntohl, ← ntohl, ntohl_htonl, UInt32.toNat_or,
    UInt32.toNat_ofNat', Nat.mod_eq_of_lt fits, or_two_pow_sub_one, broadcast]

variable {h : Nat} (two_le : 2 ≤ h) (few : h ≤ 24)

include few in
theorem ntohl_getUeIp {i : Nat} (octet : i < 256) :
    (ntohl (getUeIp ipPool (contiguousMask h) (.ofNat i))).toNat =
      if i < broadcast ipPool h % 256 then broadcast ipPool h - (i + 1)
      else broadcast ipPool h + 256 - (i + 1) := by
  obtain ⟨a, b, c, d, stored⟩ : ∃ a b c d, store32 (ipPool ||| ~~~contiguousMask h) = [a, b, c, d] :=
    ⟨_, _, _, _, rfl⟩
  have word : ipPool ||| ~~~contiguousMask h = load32 [a, b, c, d] := by
    rw [← stored, load32_store32]
  have highest := ntohl_broadcast ipPool few
  rw [word, toNat_ntohl_load32 rfl] at highest
  rw [getUeIp_octet word octet, toNat_ntohl_load32 rfl, ← highest]
  have last := d.toNat_lt
  simp only [reverse_cons, reverse_nil, nil_append, cons_append, value, UInt8.toNat_sub,
    UInt8.toNat_ofNat', UInt8.toNat_one]
  split <;> omega

theorem capacity_lt (h : Nat) : ipv4Capacity h < 256 := by
  unfold ipv4Capacity
  split
  · next small =>
      have le := Nat.pow_le_pow_right (n := 2) (by decide) small
      omega
  · decide

theorem last_octet (ipPool : UInt32) (h : Nat) : (h ≤ 8 ∧ 2 ^ h ≤ 256 ∧ 2 ^ h - 1 ≤ broadcast ipPool h % 256) ∨
    (8 < h ∧ 512 ≤ 2 ^ h ∧ broadcast ipPool h % 256 = 255) := by
  have pos := Nat.two_pow_pos h
  unfold broadcast
  rcases Nat.lt_or_ge 8 h with large | small
  · obtain ⟨t, parts⟩ := Nat.pow_dvd_pow 2 large
    rw [parts, Nat.mul_assoc]
    omega
  · obtain ⟨t, parts⟩ := Nat.pow_dvd_pow 2 small
    have below : (2 ^ h * ((ntohl ipPool).toNat / 2 ^ h) + (2 ^ h - 1)) % 256 % 2 ^ h = 2 ^ h - 1 := by
      rw [Nat.mod_mod_of_dvd _ ⟨t, parts⟩, Nat.mul_add_mod, Nat.mod_eq_of_lt (by omega)]
    have le := Nat.mod_le ((2 ^ h * ((ntohl ipPool).toNat / 2 ^ h) + (2 ^ h - 1)) % 256) (2 ^ h)
    exact .inl ⟨small, Nat.pow_le_pow_right (by decide) small, below.symm.trans_le le⟩

include two_le few

/-- Up to the capacity the last octet does not wrap and stays inside the host part. -/
theorem given_lt_capacity {i : Nat} (inside : i < ipv4Capacity h) :
    (ntohl (getUeIp ipPool (contiguousMask h) (.ofNat i))).toNat =
      2 ^ h * ((ntohl ipPool).toNat / 2 ^ h) + (2 ^ h - (i + 2)) ∧ i + 2 < 2 ^ h := by
  unfold ipv4Capacity at inside
  rcases last_octet ipPool h with ⟨small, le, octet⟩ | ⟨large, le, octet⟩
  · rw [if_pos small] at inside
    rw [ntohl_getUeIp few (by omega), if_pos (by omega), broadcast]
    omega
  · rw [if_neg (by omega)] at inside
    rw [ntohl_getUeIp few (by omega), if_pos (by omega), broadcast]
    omega

/-- The next address is that of the network or the broadcast address. -/
theorem given_capacity (ipPool : UInt32) :
    (ntohl (getUeIp ipPool (contiguousMask h) (.ofNat (ipv4Capacity h)))).toNat % 2 ^ h = 0 ∨
    (ntohl (getUeIp ipPool (contiguousMask h) (.ofNat (ipv4Capacity h)))).toNat % 2 ^ h = 2 ^ h - 1 := by
  have four_le := Nat.pow_le_pow_right (n := 2) (by decide) two_le
  unfold ipv4Capacity
  rcases last_octet ipPool h with ⟨small, le, octet⟩ | ⟨large, le, octet⟩
  · rw [if_pos small, ntohl_getUeIp few (by omega), if_pos (by omega), broadcast]
    left
    rw [Nat.add_sub_assoc (by omega), Nat.mul_add_mod, show 2 ^ h - 1 - (2 ^ h - 2 + 1) = 0 by omega,
      Nat.zero_mod]
  · rw [if_neg (by omega), ntohl_getUeIp few (by omega), if_neg (by omega), broadcast]
    right
    rw [show 255 + 1 = 256 from rfl, Nat.add_sub_cancel, Nat.mul_add_mod, Nat.mod_eq_of_lt (by omega)]

/-- A pool gives out its host addresses once each for as many calls as the last octet has host
addresses, whatever the pool's size, and no longer. -/
theorem ipv4PoolRight_iff {n : Nat} : Ipv4PoolRight ipPool h n ↔ n ≤ ipv4Capacity h := by
  have capacity := capacity_lt h
  constructor
  · intro right
    by_contra more
    obtain ⟨low, high⟩ :=
      right.host _ _ ((ipv4Given_iff capacity).mpr ⟨Nat.lt_of_not_le more, rfl⟩)
    rcases given_capacity two_le few ipPool with network | broadcast
    · exact low network
    · exact high broadcast
  · intro enough
    have known : ∀ i a, Ipv4Given ipPool h n i a → (ntohl a).toNat =
        2 ^ h * ((ntohl ipPool).toNat / 2 ^ h) + (2 ^ h - (i + 2)) ∧ i + 2 < 2 ^ h := by
      intro i a given
      have inside : i < n := by
        have lt := (List.getElem?_eq_some_iff.mp given).1
        rwa [length_ipv4Run] at lt
      rw [((ipv4Given_iff (by omega)).mp given).2]
      exact given_lt_capacity two_le few (by omega)
    have pos := Nat.two_pow_pos h
    refine ⟨fun i a given => ?_, fun i a given => ?_, fun i j a b order given given' same => ?_⟩
    · obtain ⟨address, room⟩ := known i a given
      rw [address, Nat.mul_add_div pos, Nat.div_eq_of_lt (a := 2 ^ h - (i + 2)) (by omega), Nat.add_zero]
    · obtain ⟨address, room⟩ := known i a given
      rw [address, Nat.mul_add_mod, Nat.mod_eq_of_lt (by omega)]
      omega
    · obtain ⟨address, room⟩ := known i a given
      obtain ⟨address', room'⟩ := known j b given'
      rw [same, address'] at address
      omega

end

/-- The pool 10.0.0.0/24 for 254 UEs. -/
theorem ipv4PoolRight_class_c : Ipv4PoolRight (htonl 0x0a000000) 8 254 :=
  (ipv4PoolRight_iff (by decide) (by decide)).mpr (by decide)

/-- Of the pool 10.0.0.0/16 the 256th UE is given the broadcast address. -/
theorem broadcast_given : ¬ Ipv4PoolRight (htonl 0x0a000000) 16 256 := by
  intro right
  have host := right.host 255 _ ((ipv4Given_iff (by decide)).mpr ⟨by decide, rfl⟩)
  revert host
  decide

/-- A network id and a prefix length in octets, so that the counter fills what follows the prefix. -/
structure Ipv6Pool where
  networkId : Ipv6Address
  prefixLen : Nat
  eight_le : 8 ≤ prefixLen
  le_fifteen : prefixLen ≤ 15
  deriving DecidableEq

/-- `fill_ipv6`: `next_ipv6_index`, the returned value and the octets copied. -/
def fillIpv6 (nextIpv6Index : UInt64) (prefixLen : Nat) : UInt64 × UInt32 × List UInt8 :=
  (nextIpv6Index + 1, 0, (store64 (nextIpv6Index + 1)).take (16 - prefixLen))

/-- `acquire_ipv6`: `next_ipv6_index`, and the address or the value returned without one. -/
def acquireIpv6 (nextIpv6Index : UInt64) (pool : Ipv6Pool) : UInt64 × Except UInt32 (List UInt8) :=
  let (index, ret, suffix) := fillIpv6 nextIpv6Index pool.prefixLen
  if ret ≠ 0 then (index, .error allDynamicAddressesOccupied)
  else (index, .ok (pool.networkId.toList.take pool.prefixLen ++ suffix))

/-- The results of calls on any pools. -/
def ipv6Run (nextIpv6Index : UInt64) : List Ipv6Pool → List (Except UInt32 (List UInt8))
  | [] => []
  | pool :: calls =>
    let (index, result) := acquireIpv6 nextIpv6Index pool
    result :: ipv6Run index calls

/-- The `i`-th call from process start is on the pool and succeeds with an address. -/
def Ipv6Given (calls : List Ipv6Pool) (pool : Ipv6Pool) (i : Nat) (address : List UInt8) : Prop :=
  calls[i]? = some pool ∧ (ipv6Run 0 calls)[i]? = some (.ok address)

/-- The addresses of a pool have its prefix, no two are the same, and a call that finds all of them
given reports it. -/
structure Ipv6PoolRight (calls : List Ipv6Pool) (pool : Ipv6Pool) : Prop where
  network : ∀ i a, Ipv6Given calls pool i a →
    a.take pool.prefixLen = pool.networkId.toList.take pool.prefixLen
  distinct : ∀ i j a b, i < j → Ipv6Given calls pool i a → Ipv6Given calls pool j b → a ≠ b
  depleted : ∀ j, calls[j]? = some pool →
    (∀ suffix : List UInt8, suffix.length = 16 - pool.prefixLen →
      ∃ i < j, Ipv6Given calls pool i (pool.networkId.toList.take pool.prefixLen ++ suffix)) →
    (ipv6Run 0 calls)[j]? = some (.error allDynamicAddressesOccupied)

/-- No two calls on the pool have a whole cycle of its suffixes between them. -/
def Ipv6Pool.CallsApart (pool : Ipv6Pool) (calls : List Ipv6Pool) : Prop :=
  ∀ i j, i < j → calls[i]? = some pool → calls[j]? = some pool →
    ¬ 256 ^ (16 - pool.prefixLen) ∣ j - i

section

variable {calls : List Ipv6Pool} {pool : Ipv6Pool}

theorem getElem?_ipv6Run (index : UInt64) (calls : List Ipv6Pool) (i : Nat) :
    (ipv6Run index calls)[i]? =
      calls[i]?.map fun pool => (acquireIpv6 (index + .ofNat i) pool).2 := by
  induction calls generalizing index i with
  | nil => rfl
  | cons pool calls ih =>
    cases i with
    | zero => simp [ipv6Run]
    | succ i =>
      have next : (acquireIpv6 index pool).1 = index + 1 := rfl
      rw [ipv6Run, getElem?_cons_succ, getElem?_cons_succ, ih, next, UInt64.ofNat_add,
        UInt64.add_assoc, UInt64.add_comm 1]
      rfl

/-- The address of the `i`-th call. -/
def Ipv6Pool.address (pool : Ipv6Pool) (i : Nat) : List UInt8 :=
  pool.networkId.toList.take pool.prefixLen ++ memory (16 - pool.prefixLen) (i + 1)

theorem ipv6Given_iff {i : Nat} {a : List UInt8} :
    Ipv6Given calls pool i a ↔ calls[i]? = some pool ∧ a = pool.address i := by
  refine and_congr_right fun called => ?_
  have octets : 16 - pool.prefixLen ≤ 8 := by
    have eight_le := pool.eight_le
    omega
  have suffix : (store64 (0 + .ofNat i + 1)).take (16 - pool.prefixLen) =
      memory (16 - pool.prefixLen) (i + 1) := by
    rw [store64, take_memory octets, memory_eq_iff, UInt64.zero_add, ← UInt64.ofNat_one,
      ← UInt64.ofNat_add, UInt64.toNat_ofNat']
    exact Nat.mod_mod_of_dvd _ (pow_dvd_pow 256 octets)
  have returned : (acquireIpv6 (0 + .ofNat i) pool).2 = .ok (pool.address i) := by
    rw [Ipv6Pool.address, ← suffix]
    rfl
  rw [getElem?_ipv6Run, called, Option.map_some, returned]
  simp [eq_comm]

theorem address_eq_iff {i j : Nat} (le : i ≤ j) :
    pool.address i = pool.address j ↔ 256 ^ (16 - pool.prefixLen) ∣ j - i := by
  rw [Ipv6Pool.address, Ipv6Pool.address, append_cancel_left_eq, memory_eq_iff]
  exact (Nat.modEq_iff_dvd' (Nat.succ_le_succ le)).trans (by rw [Nat.succ_sub_succ])

/-- Whatever the calls on other pools, a pool's addresses are right exactly if no two of its calls are
a multiple of the number of its suffixes apart. -/
theorem ipv6PoolRight_iff : Ipv6PoolRight calls pool ↔ pool.CallsApart calls := by
  constructor
  · intro right i j order first second divides
    exact right.distinct i j _ _ order (ipv6Given_iff.mpr ⟨first, rfl⟩)
      (ipv6Given_iff.mpr ⟨second, rfl⟩) ((address_eq_iff order.le).mpr divides)
  · intro apart
    have differ : ∀ i j a b, i < j → Ipv6Given calls pool i a → Ipv6Given calls pool j b → a ≠ b := by
      intro i j a b order first second same
      obtain ⟨called, rfl⟩ := ipv6Given_iff.mp first
      obtain ⟨called', rfl⟩ := ipv6Given_iff.mp second
      exact apart i j order called called' ((address_eq_iff order.le).mp same)
    refine ⟨fun i a given => ?_, differ, fun j called full => ?_⟩
    · obtain ⟨-, rfl⟩ := ipv6Given_iff.mp given
      have le := pool.le_fifteen
      exact take_left' (by simp; omega)
    · obtain ⟨i, order, given⟩ := full (memory (16 - pool.prefixLen) (j + 1)) (length_memory ..)
      exact absurd rfl (differ i j _ _ order given (ipv6Given_iff.mpr ⟨called, rfl⟩))

end

/-- One octet is left for the UEs of the pool 2001:db8::/120. -/
def smallPool : Ipv6Pool where
  networkId := #v[0x20, 0x01, 0x0d, 0xb8, 0, 0, 0, 0, 0, 0, 0, 0, 0, 0, 0, 0]
  prefixLen := 15
  eight_le := by decide
  le_fifteen := by decide

/-- The 257th call returns the first address again. -/
theorem ipv6_address_repeated : ¬ Ipv6PoolRight (replicate 257 smallPool) smallPool := by
  intro right
  have first : Ipv6Given (replicate 257 smallPool) smallPool 0 (smallPool.address 0) :=
    ipv6Given_iff.mpr ⟨getElem?_replicate_of_lt (by decide), rfl⟩
  have again : Ipv6Given (replicate 257 smallPool) smallPool 256 (smallPool.address 256) :=
    ipv6Given_iff.mpr ⟨getElem?_replicate_of_lt (by decide), rfl⟩
  exact right.distinct 0 256 _ _ (by decide) first again (by decide)

end Epc.Cp
