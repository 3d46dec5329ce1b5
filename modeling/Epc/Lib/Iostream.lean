import Epc.Lib.Text

/-! The C++ library's reading of text from streams, over lists of characters. -/

namespace Epc.Lib.Iostream

open Epc.Lib.Text List

/-- What successive calls of `getline` return, `word` being read by the running one. An empty rest
is not returned. -/
def getlines (delim : Char) : List Char → List Char → List (List Char)
  | [], [] => []
  | word, [] => [word]
  | word, c :: cs =>
    if c = delim then word :: getlines delim [] cs else getlines delim (word ++ [c]) cs

/-- Reads an unsigned number below `bound`: the largest if out of range, zero without a digit. -/
def readUnsigned (bound : Nat) (s : List Char) : Nat :=
  let value (t : List Char) : Nat := min (bound - 1) (scanDigits 10 0 t).1
  match s.dropWhile isSpace with
  | '-' :: cs => if bound ≤ (scanDigits 10 0 cs).1 then bound - 1 else (bound - value cs) % bound
  | '+' :: cs => value cs
  | cs => value cs

section

variable {delim : Char}

theorem getlines_cons_of_ne {c : Char} (other : c ≠ delim) (word cs : List Char) :
    getlines delim word (c :: cs) = getlines delim (word ++ [c]) cs := by
  cases word <;> simp only [getlines, if_neg other]

theorem getlines_delim (word cs : List Char) :
    getlines delim word (delim :: cs) = word :: getlines delim [] cs := by
  cases word <;> simp only [getlines, if_true]

theorem getlines_append {body : List Char} (inside : delim ∉ body) (word rest : List Char) :
    getlines delim word (body ++ rest) = getlines delim (word ++ body) rest := by
  induction body generalizing word with
  | nil => rw [nil_append, append_nil]
  | cons c cs ih =>
    rw [mem_cons, not_or] at inside
    rw [cons_append, getlines_cons_of_ne (Ne.symm inside.1), ih inside.2, append_assoc,
      singleton_append]

theorem getlines_separated {first : List Char} {rest : List (List Char)}
    (inside : ∀ word ∈ first :: rest, delim ∉ word)
    (last : (first :: rest).getLast (cons_ne_nil _ _) ≠ []) :
    getlines delim [] (first ++ rest.flatMap (delim :: ·)) = first :: rest := by
  induction rest generalizing first with
  | nil =>
    rw [flatMap_nil, getlines_append (inside first mem_cons_self), nil_append]
    cases first with
    | nil => exact absurd rfl last
    | cons c cs => rfl
  | cons second rest ih =>
    obtain ⟨outside, others⟩ := forall_mem_cons.mp inside
    rw [flatMap_cons, cons_append, getlines_append outside, nil_append,
      getlines_delim, ih others last]

theorem getlines_lines {lines : List (List Char)} (inside : ∀ line ∈ lines, delim ∉ line) :
    getlines delim [] (lines.flatMap (· ++ [delim])) = lines := by
  induction lines with
  | nil => rfl
  | cons line lines ih =>
    obtain ⟨outside, others⟩ := forall_mem_cons.mp inside
    rw [flatMap_cons, append_assoc, getlines_append outside, nil_append,
      singleton_append, getlines_delim, ih others]

end

theorem readUnsigned_decimal {bound n : Nat} (fits : n < bound) :
    readUnsigned bound (decimal n) = n := by
  obtain ⟨d, small, -, cs, printed⟩ := exists_digitChar_toDigits (by decide : 2 ≤ 10) n
  have scanned := scanDigits_toDigits (by decide : 2 ≤ 10) (by decide) n
    (by simp : ∀ c ∈ ([] : List Char).head?, ¬isDigitIn 10 c)
  rw [append_nil] at scanned
  have whole : readUnsigned bound (decimal n) = min (bound - 1) (scanDigits 10 0 (decimal n)).1 := by
    rw [readUnsigned, decimal, printed, dropWhile_cons_of_neg (by interval_cases d <;> decide)]
    interval_cases d <;> rfl
  rw [whole, decimal, scanned]
  exact Nat.min_eq_right (by omega)

end Epc.Lib.Iostream
