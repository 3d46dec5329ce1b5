import Epc.Lib.Text

/-! Text forms of IP addresses: `inet_ntoa` and `inet_pton`. An IPv4 address is the list of its four
octets in network order. -/

namespace Epc.Lib.Inet

open Epc.Lib.Text List

instance neZero_sixteen : NeZero 16 := ⟨by decide⟩

def inetNtoa (octets : List UInt8) : List Char :=
  ['.'].intercalate (octets.map fun octet => decimal octet.toNat)

/-- The loop of `inet_pton` for IPv4: the octets read and the running one, if it has a digit. -/
def scanIpv4 : List UInt8 → Option Nat → List Char → Option (List UInt8)
  | octets, none, [] => if octets.length = 4 then some octets else none
  | octets, some value, [] =>
    if octets.length = 3 then some (octets ++ [UInt8.ofNat value]) else none
  | octets, current, c :: cs =>
    if c.isDigit then
      match current with
      | none => if octets.length = 4 then none else scanIpv4 octets (some (c.toNat - 48)) cs
      | some value =>
        if value = 0 ∨ 255 < value * 10 + (c.toNat - 48) then none
        else scanIpv4 octets (some (value * 10 + (c.toNat - 48))) cs
    else
      match current with
      | some value =>
        if c = '.' ∧ octets.length ≠ 3 then scanIpv4 (octets ++ [UInt8.ofNat value]) none cs
        else none
      | none => none

def inetPton4 (s : List Char) : Option (List UInt8) :=
  scanIpv4 [] none s

section

variable {octets : List UInt8}

theorem scanIpv4_first {d : Nat} (small : d < 10) (room : octets.length ≠ 4) (cs : List Char) :
    scanIpv4 octets none (d.digitChar :: cs) = scanIpv4 octets (some d) cs := by
  rw [scanIpv4, if_pos (isDigit_digitChar_of_lt small), if_neg room,
    Nat.toNat_digitChar_sub_48_of_lt_ten small]

theorem scanIpv4_next {value d : Nat} (small : d < 10) (pos : value ≠ 0)
    (fits : value * 10 + d ≤ 255) (cs : List Char) :
    scanIpv4 octets (some value) (d.digitChar :: cs) =
      scanIpv4 octets (some (value * 10 + d)) cs := by
  rw [scanIpv4, if_pos (isDigit_digitChar_of_lt small),
    Nat.toNat_digitChar_sub_48_of_lt_ten small, if_neg]
  rintro (zero | large)
  · exact pos zero
  · omega

theorem scanIpv4_decimal {n : Nat} (fits : n ≤ 255) (room : octets.length ≠ 4) (cs : List Char) :
    scanIpv4 octets none (decimal n ++ cs) = scanIpv4 octets (some n) cs := by
  induction n using Nat.strong_induction_on generalizing cs with
  | _ n ih =>
    by_cases small : n < 10
    · rw [decimal, Nat.toDigits_of_lt_base small, singleton_append, scanIpv4_first small room]
    · have last : n % 10 < 10 := Nat.mod_lt _ (by decide)
      rw [decimal, Nat.toDigits_of_base_le (by decide) (Nat.not_lt.mp small), append_assoc,
        singleton_append]
      change scanIpv4 octets none (decimal (n / 10) ++ _) = _
      rw [ih (n / 10) (by omega) (by omega), scanIpv4_next last (by omega) (by omega),
        Nat.div_add_mod']

theorem scanIpv4_dot {value : Nat} (room : octets.length ≠ 3) (cs : List Char) :
    scanIpv4 octets (some value) ('.' :: cs) = scanIpv4 (octets ++ [UInt8.ofNat value]) none cs := by
  rw [scanIpv4, if_neg (by decide)]
  exact if_pos ⟨rfl, room⟩

theorem inetPton4_inetNtoa (a b c d : UInt8) :
    inetPton4 (inetNtoa [a, b, c, d]) = some [a, b, c, d] := by
  have small (octet : UInt8) : octet.toNat ≤ 255 := Nat.le_of_lt_succ octet.toNat_lt
  have text : inetNtoa [a, b, c, d] = decimal a.toNat ++ '.' :: (decimal b.toNat ++ '.' ::
      (decimal c.toNat ++ '.' :: (decimal d.toNat ++ []))) := by
    simp [inetNtoa, List.intercalate]
  rw [inetPton4, text, scanIpv4_decimal (small a) (by decide), scanIpv4_dot (by decide),
    scanIpv4_decimal (small b) (by simp), scanIpv4_dot (by simp),
    scanIpv4_decimal (small c) (by simp), scanIpv4_dot (by simp),
    scanIpv4_decimal (small d) (by simp)]
  simp [scanIpv4]

end

/-- The first of the longest runs of at least two zero groups, by start and length. -/
def zeroRun (groups : List Nat) : Option (Nat × Nat) :=
  ((List.range groups.length).map fun i =>
    (i, ((groups.drop i).takeWhile (· == 0)).length)).foldl
      (fun best run =>
        if 2 ≤ run.2 ∧ (best.map Prod.snd).getD 0 < run.2 then some run else best) none

def inetNtop6 (octets : List UInt8) : List Char :=
  let groups := (List.range 8).map fun i =>
    (octets.getD (2 * i) 0).toNat * 256 + (octets.getD (2 * i + 1) 0).toNat
  let print (groups : List Nat) : List Char :=
    [':'].intercalate (groups.map (Nat.toDigits 16))
  match zeroRun groups with
  | none => print groups
  | some (start, length) =>
    if start = 0 ∧ (length = 6 ∨ (length = 5 ∧ groups.getD 5 0 = 0xffff)) then
      "::".toList ++ (if length = 5 then "ffff:".toList else []) ++ inetNtoa (octets.drop 12)
    else
      print (groups.take start) ++ "::".toList ++ print (groups.drop (start + length))

/-- The state of `inet_pton` for IPv6: octets written, place of a double colon, digits of the
running group, and the text from its start. -/
structure Ipv6Scan where
  octets : List UInt8
  gap : Option Nat
  digits : List Nat
  group : List Char

def Ipv6Scan.value (scan : Ipv6Scan) : Nat :=
  scan.digits.foldl (fun value digit => value * 16 + digit) 0

def Ipv6Scan.written (scan : Ipv6Scan) : List UInt8 :=
  scan.octets ++ [UInt8.ofNat (scan.value / 256), UInt8.ofNat scan.value]

def fillGap (octets : List UInt8) : Option Nat → Option (List UInt8)
  | none => if octets.length = 16 then some octets else none
  | some place =>
    if octets.length = 16 then none
    else some (octets.take place ++ List.replicate (16 - octets.length) 0 ++ octets.drop place)

def scanIpv6 (scan : Ipv6Scan) : List Char → Option (List UInt8)
  | [] =>
    if scan.digits = [] then fillGap scan.octets scan.gap
    else if 16 < scan.octets.length + 2 then none
    else fillGap scan.written scan.gap
  | c :: cs =>
    match digitVal c with
    | some digit =>
      if scan.digits.length = 4 then none
      else scanIpv6 { scan with digits := scan.digits ++ [digit] } cs
    | none =>
      if c = ':' then
        if scan.digits = [] then
          if scan.gap.isSome then none
          else scanIpv6 { scan with gap := some scan.octets.length, group := cs } cs
        else if cs = [] ∨ 16 < scan.octets.length + 2 then none
        else scanIpv6 { scan with octets := scan.written, digits := [], group := cs } cs
      else if c = '.' ∧ scan.octets.length + 4 ≤ 16 then
        (inetPton4 scan.group).bind fun octets => fillGap (scan.octets ++ octets) scan.gap
      else none

def inetPton6 (s : List Char) : Option (List UInt8) :=
  let start : List Char → Option (List UInt8) := fun s =>
    scanIpv6 { octets := [], gap := none, digits := [], group := s } s
  match s with
  | [] => none
  | ':' :: rest => if rest.head? = some ':' then start rest else none
  | s => start s

section

variable {octets : List UInt8} {group : List Char}

/-- The four hexadecimal digits of two octets. -/
def hexGroup (a b : UInt8) : List Char :=
  [(a.toNat / 16).digitChar, (a.toNat % 16).digitChar, (b.toNat / 16).digitChar,
    (b.toNat % 16).digitChar]

theorem scanIpv6_digit {scan : Ipv6Scan} {d : Nat} (small : d < 16) (room : scan.digits.length ≠ 4)
    (cs : List Char) :
    scanIpv6 scan (d.digitChar :: cs) = scanIpv6 { scan with digits := scan.digits ++ [d] } cs := by
  rw [scanIpv6, digitVal_digitChar small]
  exact if_neg room

theorem scanIpv6_hexGroup (a b : UInt8) (cs : List Char) :
    scanIpv6 { octets, gap := none, digits := [], group } (hexGroup a b ++ cs) =
      scanIpv6
        { octets, gap := none, digits := [a.toNat / 16, a.toNat % 16, b.toNat / 16, b.toNat % 16],
          group } cs := by
  have high (octet : UInt8) : octet.toNat / 16 < 16 := by
    have bound := octet.toNat_lt
    omega
  have low (octet : UInt8) : octet.toNat % 16 < 16 := Nat.mod_lt _ (by decide)
  simp only [hexGroup, cons_append, nil_append]
  rw [scanIpv6_digit (high a) (by simp), scanIpv6_digit (low a) (by simp),
    scanIpv6_digit (high b) (by simp), scanIpv6_digit (low b) (by simp)]
  rfl

theorem written_hexGroup (a b : UInt8) :
    Ipv6Scan.written
        { octets, gap := none, digits := [a.toNat / 16, a.toNat % 16, b.toNat / 16, b.toNat % 16],
          group } = octets ++ [a, b] := by
  have value : Ipv6Scan.value
      { octets, gap := none, digits := [a.toNat / 16, a.toNat % 16, b.toNat / 16, b.toNat % 16],
        group } = a.toNat * 256 + b.toNat := by
    simp only [Ipv6Scan.value, foldl_cons, foldl_nil]
    omega
  have bound := b.toNat_lt
  have upper : (a.toNat * 256 + b.toNat) / 256 = a.toNat := by omega
  have lower : UInt8.ofNat (a.toNat * 256 + b.toNat) = b := by
    apply UInt8.toNat_inj.mp
    rw [UInt8.toNat_ofNat']
    omega
  rw [Ipv6Scan.written, value, upper, lower, UInt8.ofNat_toNat]

theorem scanIpv6_hexGroup_colon (a b : UInt8) {cs : List Char} (more : cs ≠ [])
    (room : octets.length + 2 ≤ 16) :
    scanIpv6 { octets, gap := none, digits := [], group } (hexGroup a b ++ ':' :: cs) =
      scanIpv6 { octets := octets ++ [a, b], gap := none, digits := [], group := cs } cs := by
  rw [scanIpv6_hexGroup, scanIpv6]
  simp only [show digitVal ':' = none by decide, if_true]
  rw [if_neg (by simp), if_neg (by simp only [not_or, more, not_false_eq_true, true_and]; omega),
    written_hexGroup]

theorem scanIpv6_hexGroup_last (a b : UInt8) (full : octets.length + 2 = 16) :
    scanIpv6 { octets, gap := none, digits := [], group } (hexGroup a b) =
      some (octets ++ [a, b]) := by
  rw [← append_nil (hexGroup a b), scanIpv6_hexGroup, scanIpv6, if_neg (by simp),
    if_neg (by simp only; omega), written_hexGroup, fillGap, if_pos (by simpa using full)]

theorem scanIpv6_hexGroups (groups : List (UInt8 × UInt8)) (nonempty : groups ≠ [])
    (full : octets.length + 2 * groups.length = 16) :
    scanIpv6 { octets, gap := none, digits := [], group }
        ([':'].intercalate (groups.map fun pair => hexGroup pair.1 pair.2)) =
      some (octets ++ groups.flatMap fun pair => [pair.1, pair.2]) := by
  induction groups generalizing octets group with
  | nil => exact absurd rfl nonempty
  | cons first rest ih =>
    cases rest with
    | nil =>
      simpa [List.intercalate] using scanIpv6_hexGroup_last first.1 first.2 (by simpa using full)
    | cons second rest =>
      have text : [':'].intercalate ((first :: second :: rest).map
          fun pair => hexGroup pair.1 pair.2) = hexGroup first.1 first.2 ++ ':' ::
            [':'].intercalate ((second :: rest).map fun pair => hexGroup pair.1 pair.2) := by
        simp [List.intercalate]
      have more : [':'].intercalate ((second :: rest).map
          fun pair => hexGroup pair.1 pair.2) ≠ [] := by
        cases rest <;> simp [List.intercalate, hexGroup]
      simp only [length_cons] at full
      rw [text, scanIpv6_hexGroup_colon _ _ more (by omega),
        ih (by simp) (by simp only [length_append, length_cons, length_nil]; omega)]
      simp

end

example : inetPton6 "fe80::1".toList =
    some [0xfe, 0x80, 0, 0, 0, 0, 0, 0, 0, 0, 0, 0, 0, 0, 0, 1] := by decide

example : inetNtop6 [0xfe, 0x80, 0, 0, 0, 0, 0, 0, 0, 0, 0, 0, 0, 0, 0, 1] = "fe80::1".toList := by
  decide +kernel

end Epc.Lib.Inet
