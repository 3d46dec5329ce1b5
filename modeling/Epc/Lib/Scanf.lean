import Epc.Lib.Text

/-! `sscanf` for unsigned numbers, and the octets of a text. -/

namespace Epc.Lib.Scanf

open Epc.Lib.Text List

def octet (c : Char) : UInt8 := .ofNat c.toNat

def char (b : UInt8) : Char := .ofNat b.toNat

/-- The text that starts a buffer, up to its terminator. -/
def cString (buffer : List UInt8) : List Char :=
  (buffer.takeWhile (· ≠ 0)).map char

/-- A directive of a format: an unsigned number of some bits, or a character. -/
inductive Directive where
  | unsigned (bits : Nat)
  | literal (c : Char)
  deriving DecidableEq, Repr

/-- `%u` and `%lu`: blanks, a sign and digits. Past 64 bits it is the largest number; the low bits
are stored. -/
def scanUnsigned (bits : Nat) (s : List Char) : Option (Nat × List Char) :=
  let digits (negative : Bool) (t : List Char) : Option (Nat × List Char) :=
    let scanned := scanDigits 10 0 t
    if scanned.2 = t then none
    else
      let value :=
        if 2 ^ 64 ≤ scanned.1 then 2 ^ 64 - 1
        else if negative then (2 ^ 64 - scanned.1) % 2 ^ 64
        else scanned.1
      some (value % 2 ^ bits, scanned.2)
  match s.dropWhile isSpace with
  | '-' :: cs => digits true cs
  | '+' :: cs => digits false cs
  | cs => digits false cs

/-- What `sscanf` stores, up to the first directive that does not match. -/
def sscanf : List Directive → List Char → List Nat
  | [], _ => []
  | .unsigned bits :: format, s =>
    match scanUnsigned bits s with
    | none => []
    | some (value, rest) => value :: sscanf format rest
  | .literal _ :: _, [] => []
  | .literal c :: format, d :: rest => if d = c then sscanf format rest else []

section

theorem char_octet {c : Char} (ascii : c.toNat < 256) : char (octet c) = c := by
  rw [char, octet, UInt8.toNat_ofNat_of_lt' ascii]
  exact Char.ofNat_toNat c

theorem octet_injective {c d : Char} (ascii : c.toNat < 256) (ascii' : d.toNat < 256)
    (same : octet c = octet d) : c = d := by
  rw [← char_octet ascii, same, char_octet ascii']

theorem cString_append {text : List Char} (ascii : ∀ c ∈ text, c.toNat < 256)
    (inside : ∀ c ∈ text, octet c ≠ 0) (rest : List UInt8) :
    cString (text.map octet ++ rest) = text ++ cString rest := by
  have kept : (text.map octet ++ rest).takeWhile (· ≠ 0) =
      text.map octet ++ rest.takeWhile (· ≠ 0) := by
    refine takeWhile_append_of_pos fun b mem => ?_
    obtain ⟨c, among, rfl⟩ := mem_map.mp mem
    exact decide_eq_true (inside c among)
  have back : (text.map octet).map char = text := by
    rw [map_map]
    exact (map_congr_left fun c mem => char_octet (ascii c mem)).trans (map_id text)
  rw [cString, kept, map_append, back, cString]

end

section

theorem scanUnsigned_decimal {bits n : Nat} (narrow : bits ≤ 64) (fits : n < 2 ^ bits)
    {rest : List Char} (stop : ∀ c ∈ rest.head?, ¬ isDigitIn 10 c) :
    scanUnsigned bits (decimal n ++ rest) = some (n, rest) := by
  obtain ⟨d, small, -, cs, printed⟩ := exists_digitChar_toDigits (by decide : 2 ≤ 10) n
  have scanned := scanDigits_toDigits (by decide : 2 ≤ 10) (by decide) n stop
  have moved : rest ≠ decimal n ++ rest := by
    intro same
    have shorter := length_lt_toDigits_append 10 n rest
    rw [← decimal, ← same] at shorter
    exact Nat.lt_irrefl _ shorter
  have fits64 : n < 2 ^ 64 := fits.trans_le (Nat.pow_le_pow_right (by decide) narrow)
  have whole : scanUnsigned bits (decimal n ++ rest) =
      if (scanDigits 10 0 (decimal n ++ rest)).2 = decimal n ++ rest then none
      else
        let value :=
          if 2 ^ 64 ≤ (scanDigits 10 0 (decimal n ++ rest)).1 then 2 ^ 64 - 1
          else (scanDigits 10 0 (decimal n ++ rest)).1
        some (value % 2 ^ bits, (scanDigits 10 0 (decimal n ++ rest)).2) := by
    rw [scanUnsigned, decimal, printed, cons_append,
      dropWhile_cons_of_neg (by interval_cases d <;> decide)]
    interval_cases d <;> rfl
  rw [whole, decimal, scanned, ← decimal]
  dsimp only
  rw [if_neg moved, if_neg (Nat.not_le.mpr fits64), Nat.mod_eq_of_lt fits]

theorem sscanf_decimal {bits n : Nat} (narrow : bits ≤ 64) (fits : n < 2 ^ bits)
    (format : List Directive) (rest : List Char) :
    sscanf (.unsigned bits :: format) (decimal n ++ (',' :: rest)) = n :: sscanf format (',' :: rest) := by
  have stop : ∀ c ∈ (',' :: rest).head?, ¬ isDigitIn 10 c := by
    rintro c ⟨⟩ ⟨d, -, value⟩
    cases value
  rw [sscanf, scanUnsigned_decimal narrow fits stop]

theorem sscanf_literal (c : Char) (format : List Directive) (rest : List Char) :
    sscanf (.literal c :: format) (c :: rest) = sscanf format rest :=
  if_pos rfl

end

end Epc.Lib.Scanf
