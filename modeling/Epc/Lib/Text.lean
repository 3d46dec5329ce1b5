import Mathlib

/-! The C library's conversions between numbers and text, over lists of characters. -/

namespace Epc.Lib.Text

open List

/-- The value of a digit in a base up to sixteen. -/
def digitVal (c : Char) : Option Nat :=
  if c.isDigit then some (c.toNat - 48)
  else if 'a' ≤ c ∧ c ≤ 'f' then some (c.toNat - 87)
  else if 'A' ≤ c ∧ c ≤ 'F' then some (c.toNat - 55)
  else none

def isDigitIn (base : Nat) (c : Char) : Prop :=
  ∃ d < base, digitVal c = some d

variable {d base n : Nat}

theorem digitVal_digitChar (small : d < 16) : digitVal d.digitChar = some d := by
  interval_cases d <;> decide

/-- Reads digits as long as there are any, on from a value. -/
def scanDigits (base : Nat) : Nat → List Char → Nat × List Char
  | acc, [] => (acc, [])
  | acc, c :: cs =>
    match digitVal c with
    | none => (acc, c :: cs)
    | some d => if d < base then scanDigits base (acc * base + d) cs else (acc, c :: cs)

theorem scanDigits_digit (small : d < base) (base_le : base ≤ 16) (acc : Nat) (rest : List Char) :
    scanDigits base acc (d.digitChar :: rest) = scanDigits base (acc * base + d) rest := by
  rw [scanDigits, digitVal_digitChar (small.trans_le base_le)]
  exact if_pos small

variable {rest : List Char}

theorem scanDigits_stop (stop : ∀ c ∈ rest.head?, ¬ isDigitIn base c) (acc : Nat) :
    scanDigits base acc rest = (acc, rest) := by
  cases rest with
  | nil => rfl
  | cons c cs =>
    have noDigit : ¬ isDigitIn base c := stop c rfl
    rw [scanDigits]
    cases value : digitVal c with
    | none => rfl
    | some d =>
      have large : ¬ d < base := fun small => noDigit ⟨d, small, value⟩
      exact if_neg large

theorem scanDigits_toDigits_from (two_le : 2 ≤ base) (base_le : base ≤ 16) (n acc : Nat)
    (rest : List Char) :
    scanDigits base acc (Nat.toDigits base n ++ rest) =
      scanDigits base (acc * base ^ (Nat.toDigits base n).length + n) rest := by
  induction n using Nat.strong_induction_on generalizing rest with
  | _ n ih =>
    by_cases small : n < base
    · rw [Nat.toDigits_of_lt_base small]
      simpa using scanDigits_digit small base_le acc rest
    · have large : base ≤ n := Nat.not_lt.mp small
      have lower : n / base < n := Nat.div_lt_self (by omega) (by omega)
      have last : n % base < base := Nat.mod_lt _ (by omega)
      rw [Nat.toDigits_of_base_le (by omega) large, append_assoc, ih _ lower,
        singleton_append, scanDigits_digit last base_le, length_append,
        length_singleton, pow_succ, add_mul, add_assoc, Nat.div_add_mod', mul_assoc]

theorem scanDigits_toDigits (two_le : 2 ≤ base) (base_le : base ≤ 16) (n : Nat)
    (stop : ∀ c ∈ rest.head?, ¬ isDigitIn base c) :
    scanDigits base 0 (Nat.toDigits base n ++ rest) = (n, rest) := by
  rw [scanDigits_toDigits_from two_le base_le, zero_mul, zero_add, scanDigits_stop stop]

def isSpace (c : Char) : Bool :=
  c = ' ' || ('\t' ≤ c && c ≤ '\r')

variable {c : Char}

theorem toNat_lt_of_isDigit (digit : c.isDigit) : 48 ≤ c.toNat ∧ c.toNat < 58 := by
  rw [Char.isDigit, Bool.and_eq_true_iff, decide_eq_true_iff, decide_eq_true_iff] at digit
  exact ⟨digit.1, Nat.lt_succ_of_le digit.2⟩

theorem not_isSpace_of_isDigit (digit : c.isDigit) : ¬ isSpace c ∧ c ≠ '-' ∧ c ≠ '+' := by
  have low := (toNat_lt_of_isDigit digit).1
  refine ⟨fun space => ?_, ?_, ?_⟩
  · simp only [isSpace, Bool.or_eq_true, Bool.and_eq_true, decide_eq_true_eq] at space
    rcases space with rfl | ⟨-, upper⟩
    · exact absurd low (by decide)
    · exact absurd (low.trans upper) (by decide)
  all_goals
    rintro rfl
    exact absurd low (by decide)

/-- `strtol` in base ten, by its value. -/
def strtol10 (s : List Char) : Int :=
  let value := match s.dropWhile isSpace with
    | '-' :: cs => -((scanDigits 10 0 cs).1 : Int)
    | '+' :: cs => (scanDigits 10 0 cs).1
    | cs => (scanDigits 10 0 cs).1
  max (-2 ^ 63) (min (2 ^ 63 - 1) value)

/-- `atoi`: the low half of the `long`. -/
def atoi (s : List Char) : Int :=
  (strtol10 s).bmod (2 ^ 32)

theorem exists_digitChar_toDigits (two_le : 2 ≤ base) (n : Nat) :
    ∃ d < base, (d = 0 → n = 0) ∧ ∃ cs, Nat.toDigits base n = d.digitChar :: cs := by
  induction n using Nat.strong_induction_on with
  | _ n ih =>
    by_cases small : n < base
    · exact ⟨n, small, id, [], Nat.toDigits_of_lt_base small⟩
    · have large : base ≤ n := Nat.not_lt.mp small
      have quotient : 0 < n / base := Nat.div_pos large (by omega)
      obtain ⟨d, bound, zero, cs, equal⟩ := ih (n / base) (Nat.div_lt_self (by omega) (by omega))
      refine ⟨d, bound, fun isZero => absurd (zero isZero) (by omega),
        cs ++ [(n % base).digitChar], ?_⟩
      rw [Nat.toDigits_of_base_le (by omega) large, equal, cons_append]

theorem digitVal_of_mem_toDigits (two_le : 2 ≤ base) (base_le : base ≤ 16)
    (mem : c ∈ Nat.toDigits base n) : (digitVal c).isSome := by
  induction n using Nat.strong_induction_on with
  | _ n ih =>
    by_cases small : n < base
    · rw [Nat.toDigits_of_lt_base small, mem_singleton] at mem
      rw [mem, digitVal_digitChar (small.trans_le base_le)]
      rfl
    · have last : n % base < base := Nat.mod_lt _ (by omega)
      rw [Nat.toDigits_of_base_le (by omega) (Nat.not_lt.mp small), mem_append,
        mem_singleton] at mem
      rcases mem with front | rfl
      · exact ih (n / base) (Nat.div_lt_self (by omega) (by omega)) front
      · rw [digitVal_digitChar (last.trans_le base_le)]
        rfl

theorem strtol10_toDigits {spaces : List Char} (blank : ∀ c ∈ spaces, isSpace c)
    (fits : n < 2 ^ 63) (stop : ∀ c ∈ rest.head?, ¬ isDigitIn 10 c) :
    strtol10 (spaces ++ Nat.toDigits 10 n ++ rest) = n := by
  obtain ⟨d, bound, -, cs, printed⟩ := exists_digitChar_toDigits (by decide : 2 ≤ 10) n
  have skipped : (spaces ++ Nat.toDigits 10 n ++ rest).dropWhile isSpace =
      Nat.toDigits 10 n ++ rest := by
    rw [append_assoc, dropWhile_append_of_pos blank, printed, cons_append, dropWhile_cons_of_neg]
    interval_cases d <;> decide
  have value := scanDigits_toDigits (by decide : 2 ≤ 10) (by decide) n stop
  have scanned : strtol10 (spaces ++ Nat.toDigits 10 n ++ rest) =
      max (-2 ^ 63) (min (2 ^ 63 - 1) ((scanDigits 10 0 (Nat.toDigits 10 n ++ rest)).1 : Int)) := by
    rw [strtol10, skipped, printed, cons_append]
    interval_cases d <;> rfl
  rw [scanned, value]
  omega

theorem atoi_toDigits {spaces : List Char} (blank : ∀ c ∈ spaces, isSpace c) (fits : n < 2 ^ 31)
    (stop : ∀ c ∈ rest.head?, ¬ isDigitIn 10 c) : atoi (spaces ++ Nat.toDigits 10 n ++ rest) = n := by
  rw [atoi, strtol10_toDigits blank (by omega) stop]
  exact Int.bmod_eq_of_le (by omega) (by omega)

/-- A number as `%u` prints it. -/
def decimal (n : Nat) : List Char :=
  Nat.toDigits 10 n

theorem isDigit_of_mem_decimal (mem : c ∈ decimal n) : c.isDigit :=
  Nat.isDigit_of_mem_toDigits (by decide) (by decide) mem

theorem ne_of_mem_decimal {d : Char} (noDigit : d.isDigit = false) (mem : c ∈ decimal n) : c ≠ d := by
  rintro rfl
  rw [isDigit_of_mem_decimal mem] at noDigit
  cases noDigit

theorem notMem_decimal (noDigit : c.isDigit = false) (n : Nat) : c ∉ decimal n :=
  fun mem => ne_of_mem_decimal noDigit mem rfl

theorem decimal_ne_nil (n : Nat) : decimal n ≠ [] :=
  Nat.toDigits_ne_nil

theorem length_decimal_le {k : Nat} (pos : 0 < k) (bound : n < 10 ^ k) : (decimal n).length ≤ k :=
  (Nat.length_toDigits_le_iff (by decide) pos).mpr bound

theorem atoi_blank_decimal_blank (fits : n < 2 ^ 31) {before : List Char}
    (blank : ∀ c ∈ before, isSpace c) : atoi (before ++ decimal n ++ [' ']) = n := by
  refine atoi_toDigits blank fits ?_
  rintro c ⟨⟩ ⟨d, -, value⟩
  cases value

theorem atoi_decimal (fits : n < 2 ^ 31) : atoi (decimal n) = n := by
  have read : atoi ([] ++ Nat.toDigits 10 n ++ []) = n :=
    atoi_toDigits (forall_mem_nil _) fits (by simp)
  rwa [nil_append, append_nil] at read

theorem ofInt_toNat_uint8 (n : UInt8) : UInt8.ofInt n.toNat = n := by
  have same : ((n.toNat : Int) % 2 ^ 8).toNat = n.toNat := by
    have bound := n.toNat_lt
    omega
  rw [UInt8.ofInt, same, UInt8.ofNat_toNat]

theorem ofInt_toNat_uint16 (n : UInt16) : UInt16.ofInt n.toNat = n := by
  have same : ((n.toNat : Int) % 2 ^ 16).toNat = n.toNat := by
    have bound := n.toNat_lt
    omega
  rw [UInt16.ofInt, same, UInt16.ofNat_toNat]

/-- The base that `strtoul` takes from the text, and the text from the first digit on. -/
def detectBase (s : List Char) : Nat × List Char :=
  match s with
  | '0' :: x :: d :: rest =>
    if (x = 'x' ∨ x = 'X') ∧ (digitVal d).isSome then (16, d :: rest) else (8, s)
  | '0' :: _ => (8, s)
  | _ => (10, s)

/-- `strtoul` in base zero: the value and the text after it, none out of range. Without a digit the
text is returned from its start. -/
def strtoul0 (s : List Char) : Option (Nat × List Char) :=
  let unsigned (t : List Char) : Option (Nat × List Char) :=
    let detected := detectBase t
    let scanned := scanDigits detected.1 0 detected.2
    if scanned.2 = detected.2 then some (0, s)
    else if 2 ^ 64 ≤ scanned.1 then none
    else some scanned
  match s.dropWhile isSpace with
  | '-' :: cs => (unsigned cs).map fun r => ((2 ^ 64 - r.1) % 2 ^ 64, r.2)
  | '+' :: cs => unsigned cs
  | cs => unsigned cs

/-- The rest of the text does not go on with a digit or, after a zero, with an `x`. -/
def Delimited (rest : List Char) : Prop :=
  ∀ c ∈ rest.head?, digitVal c = none ∧ c ≠ 'x' ∧ c ≠ 'X'

theorem Delimited.stop (delimited : Delimited rest) (base : Nat) :
    ∀ c ∈ rest.head?, ¬ isDigitIn base c := by
  rintro c head ⟨d, -, value⟩
  rw [(delimited c head).1] at value
  cases value

theorem detectBase_toDigits (pos : n ≠ 0) (rest : List Char) :
    detectBase (Nat.toDigits 10 n ++ rest) = (10, Nat.toDigits 10 n ++ rest) := by
  obtain ⟨d, bound, zero, cs, printed⟩ := exists_digitChar_toDigits (by decide : 2 ≤ 10) n
  have nonzero : d.digitChar ≠ '0' := fun same => pos (zero (Nat.digitChar_eq_zero.mp same))
  rw [printed, cons_append, detectBase]
  · exact fun _ _ _ same => nonzero (List.cons.inj same).1
  · exact fun _ same => nonzero (List.cons.inj same).1

theorem detectBase_zero (delimited : Delimited rest) : detectBase ('0' :: rest) = (8, '0' :: rest) := by
  match rest, delimited with
  | [], _ => rfl
  | [_], _ => rfl
  | x :: d :: rest, delimited =>
    have plain := (delimited x rfl).2
    rw [detectBase, if_neg]
    rintro ⟨lower | upper, -⟩
    · exact plain.1 lower
    · exact plain.2 upper

theorem detectBase_hex (n : Nat) (rest : List Char) :
    detectBase ('0' :: 'x' :: (Nat.toDigits 16 n ++ rest)) = (16, Nat.toDigits 16 n ++ rest) := by
  obtain ⟨d, bound, -, cs, printed⟩ := exists_digitChar_toDigits (by decide : 2 ≤ 16) n
  rw [printed, cons_append, detectBase, if_pos]
  exact ⟨Or.inl rfl, by rw [digitVal_digitChar bound]; rfl⟩

theorem strtoul0_of_scan {cs digits : List Char} {value : Nat}
    (digit : c.isDigit) (detected : detectBase (c :: cs) = (base, digits))
    (scanned : scanDigits base 0 digits = (value, rest)) (shorter : rest.length < digits.length)
    (fits : value < 2 ^ 64) : strtoul0 (c :: cs) = some (value, rest) := by
  obtain ⟨unblank, minus, plus⟩ := not_isSpace_of_isDigit digit
  have moved : rest ≠ digits := by
    rintro rfl
    exact Nat.lt_irrefl _ shorter
  unfold strtoul0
  rw [dropWhile_cons_of_neg unblank]
  split
  · rename_i same
    exact absurd (List.cons.inj same).1 minus
  · rename_i same
    exact absurd (List.cons.inj same).1 plus
  · dsimp only
    rw [detected, scanned]
    rw [if_neg moved, if_neg (Nat.not_le.mpr fits)]

theorem isDigit_digitChar_of_lt (small : d < 10) : d.digitChar.isDigit := by
  rw [Nat.isDigit_digitChar]
  exact decide_eq_true small

theorem length_lt_toDigits_append (base n : Nat) (rest : List Char) :
    rest.length < (Nat.toDigits base n ++ rest).length := by
  rw [length_append]
  exact Nat.lt_add_of_pos_left Nat.length_toDigits_pos

theorem strtoul0_decimal (fits : n < 2 ^ 64)
    (delimited : Delimited rest) : strtoul0 (decimal n ++ rest) = some (n, rest) := by
  obtain ⟨d, bound, zero, cs, printed⟩ := exists_digitChar_toDigits (by decide : 2 ≤ 10) n
  have digit := isDigit_digitChar_of_lt bound
  by_cases isZero : n = 0
  · subst isZero
    exact strtoul0_of_scan (by decide) (detectBase_zero delimited)
      (scanDigits_toDigits (by decide : 2 ≤ 8) (by decide) 0 (delimited.stop 8))
      (length_lt_toDigits_append 8 0 rest) fits
  · have detected := detectBase_toDigits isZero rest
    have scanned := scanDigits_toDigits (by decide : 2 ≤ 10) (by decide) n (delimited.stop 10)
    have shorter := length_lt_toDigits_append 10 n rest
    rw [decimal]
    rw [printed, cons_append] at detected scanned shorter ⊢
    exact strtoul0_of_scan digit detected scanned shorter fits

/-- A number as `0x%x` prints it. -/
def hexadecimal (n : Nat) : List Char :=
  '0' :: 'x' :: Nat.toDigits 16 n

theorem strtoul0_hexadecimal (fits : n < 2 ^ 64)
    (delimited : Delimited rest) : strtoul0 (hexadecimal n ++ rest) = some (n, rest) :=
  strtoul0_of_scan (by decide) (detectBase_hex n rest)
    (scanDigits_toDigits (by decide) (by decide) n (delimited.stop 16))
    (length_lt_toDigits_append 16 n rest) fits

/-- `strtok`: the next token and what the next call starts from. -/
def strtok (delim : Char → Bool) (s : List Char) : Option (List Char × List Char) :=
  match s.dropWhile delim with
  | [] => none
  | c :: cs =>
    some ((c :: cs).takeWhile (fun c => !delim c),
      ((c :: cs).dropWhile (fun c => !delim c)).drop 1)

variable {delim : Char → Bool} {str token rest : List Char}

section

variable (some_char : token ≠ []) (inside : ∀ c ∈ token, delim c = false)

include some_char inside

theorem strtok_token {tail : List Char}
    (stop : ∀ d ∈ tail.head?, delim d) : strtok delim (token ++ tail) = some (token, tail.drop 1) := by
  have kept : ∀ x ∈ token, (!delim x) = true := fun x mem => by simp [inside x mem]
  have stops : tail.takeWhile (fun c => !delim c) = [] ∧ tail.dropWhile (fun c => !delim c) = tail := by
    cases tail with
    | nil => exact ⟨rfl, rfl⟩
    | cons d rest => simp [stop d rfl]
  obtain ⟨c, cs, rfl⟩ := exists_cons_of_ne_nil some_char
  rw [strtok, cons_append, dropWhile_cons_of_neg (by simp [inside c mem_cons_self])]
  dsimp only
  rw [← cons_append, takeWhile_append_of_pos kept, dropWhile_append_of_pos kept, stops.1, stops.2, append_nil]

theorem strtok_append {d : Char}
    (stop : delim d = true) (rest : List Char) : strtok delim (token ++ d :: rest) = some (token, rest) :=
  strtok_token some_char inside (by simpa using stop)

theorem strtok_last : strtok delim token = some (token, []) := by
  simpa using @strtok_token _ _ some_char inside [] (by simp)

end

theorem strtok_split (next : strtok delim str = some (token, rest)) :
    ∃ lead tail, str = lead ++ (token ++ tail) ∧ (∀ c ∈ lead, delim c) ∧ token ≠ [] ∧
      (∀ c ∈ token, delim c = false) ∧
      ((tail = [] ∧ rest = []) ∨ ∃ d, delim d ∧ tail = d :: rest) := by
  unfold strtok at next
  cases words : str.dropWhile delim with
  | nil => simp [words] at next
  | cons c cs =>
    rw [words] at next
    obtain ⟨rfl, rfl⟩ := Prod.mk.inj (Option.some.inj next)
    have head : delim c = false := by
      have := dropWhile_get_zero_not delim str (by simp [words])
      simpa [words] using this
    refine ⟨str.takeWhile delim, (c :: cs).dropWhile (fun c => !delim c), ?_,
      fun _ => mem_takeWhile_imp, by simp [head], fun c mem => by simpa using mem_takeWhile_imp mem, ?_⟩
    · rw [takeWhile_append_dropWhile, ← words, takeWhile_append_dropWhile]
    · cases tail : (c :: cs).dropWhile (fun c => !delim c) with
      | nil => exact .inl ⟨rfl, rfl⟩
      | cons d ds =>
        have stop := dropWhile_get_zero_not (fun c => !delim c) (c :: cs) (by simp [tail])
        exact .inr ⟨d, by simpa [tail] using stop, rfl⟩

theorem strtok_lead {lead : List Char} (skipped : ∀ c ∈ lead, delim c) :
    strtok delim (lead ++ str) = strtok delim str := by
  rw [strtok, dropWhile_append_of_pos skipped, strtok]

theorem strtok_length (next : strtok delim str = some (token, rest)) (more : rest ≠ []) :
    token.length + rest.length < str.length := by
  obtain ⟨lead, tail, rfl, -, -, -, end_ | ⟨d, -, rfl⟩⟩ := strtok_split next
  · exact absurd end_.2 more
  · simp only [length_append, length_cons]
    omega

/-- What successive calls of `fgets` return, `line` being read by the running one. -/
def fgetsAll (size : Nat) : List Char → List Char → List (List Char)
  | [], [] => []
  | line, [] => [line]
  | line, c :: cs =>
    if c = '\n' ∨ line.length + 2 = size then (line ++ [c]) :: fgetsAll size [] cs
    else fgetsAll size (line ++ [c]) cs

theorem fgetsAll_line (size : Nat) (body line rest : List Char) (inside : '\n' ∉ body)
    (fits : line.length + body.length + 1 < size) :
    fgetsAll size line (body ++ '\n' :: rest) =
      (line ++ body ++ ['\n']) :: fgetsAll size [] rest := by
  induction body generalizing line with
  | nil => cases line <;> simp [fgetsAll]
  | cons c cs ih =>
    rw [mem_cons, not_or] at inside
    rw [length_cons] at fits
    have goesOn : ¬ (c = '\n' ∨ line.length + 2 = size) := by
      rintro (newline | full)
      · exact inside.1 newline.symm
      · omega
    have step : fgetsAll size line (c :: (cs ++ '\n' :: rest)) =
        fgetsAll size (line ++ [c]) (cs ++ '\n' :: rest) := by
      cases line <;> simp only [fgetsAll, if_neg goesOn]
    rw [cons_append, step, ih (line ++ [c]) inside.2 (by simp; omega)]
    simp

end Epc.Lib.Text
