import Epc.Lib.Text

/-! The filter indices of a predefined PCC rule: the part of `init_pcc_rules`
(`cp/packet_filters.c`) that reads `ADC_FILTER_IDX` and `SDF_FILTER_IDX`. -/

namespace Epc.Cp

open Epc.Lib.Text List

def maxSdfIdxCount : Nat := 16

def maxAdcIdxCount : Nat := 16

/-- `struct pcc_rules`, as far as the indices go. -/
structure PccIdx where
  sdfIdxCnt : UInt32 := 0
  sdfIdx : List UInt32 := replicate maxSdfIdxCount 0
  adcIdxCnt : UInt32 := 0
  adcIdx : List UInt32 := replicate maxAdcIdxCount 0

/-- `strtol` with its end pointer, and the value before it is cut to a `long`. -/
def strtolEnd (entry : List Char) : Int × List Char :=
  let signed := entry.dropWhile isSpace
  let digits := if signed.head? = some '-' ∨ signed.head? = some '+' then signed.tail else signed
  if digits.head?.any Char.isDigit then
    let (n, next) := scanDigits 10 0 digits
    (if signed.head? = some '-' then -n else n, next)
  else (0, entry)

/-- The indices that the rounds of the loop store. A value out of range ends in `rte_panic`. -/
def readIdx : Nat → List Char → Option (List UInt32)
  | 0, _ => some []
  | rounds + 1, entry =>
    let (value, next) := strtolEnd entry
    if value < -2 ^ 63 ∨ 2 ^ 63 ≤ value then none
    else if entry = [] then some []
    -- neither a number nor the end: one character is skipped
    else if entry = next ∧ value.bmod (2 ^ 32) = 0 then readIdx rounds next.tail
    else (readIdx rounds next).map (UInt32.ofInt value :: ·)

/-- The loop's array: the indices, and the zeros behind them. -/
def storeIdx (idx old : List UInt32) : List UInt32 :=
  idx ++ old.drop idx.length

/-- `init_pcc_rules` from the two entries of a section on. -/
def initPccRules (adcFilterIdx sdfFilterIdx : Option (List Char)) : Option PccIdx :=
  let tmpPcc : PccIdx := {}
  match adcFilterIdx with
  | none => do
    let idx ← readIdx maxSdfIdxCount (← sdfFilterIdx)
    some { tmpPcc with
      sdfIdx := storeIdx idx tmpPcc.sdfIdx, sdfIdxCnt := UInt32.ofNat idx.length }
  | some entry => do
    let idx ← readIdx maxAdcIdxCount entry
    some { tmpPcc with
      adcIdx := storeIdx idx tmpPcc.adcIdx, adcIdxCnt := UInt32.ofNat idx.length }

/-- A number of the list, its digits as they are written. -/
structure Number where
  digits : List Char
  nonempty : digits ≠ []
  decimal : ∀ c ∈ digits, c.isDigit
  fits : Nat.ofDigitChars 10 digits 0 < 2 ^ 31

def Number.value (n : Number) : Nat := Nat.ofDigitChars 10 n.digits 0

def Separates (chars : List Char) : Prop := ∀ c ∈ chars, c = ',' ∨ c = ':' ∨ c = ' ' ∨ c = '\t'

structure Separator where
  chars : List Char
  nonempty : chars ≠ []
  separates : Separates chars

/-- Numbers with a separator in front of each but the first. -/
structure IdxList where
  first : Number
  rest : List (Separator × Number)

def IdxList.numbers (list : IdxList) : List Number := list.first :: list.rest.map Prod.snd

def IdxList.text (list : IdxList) : List Char :=
  list.first.digits ++ list.rest.flatMap fun item => item.1.chars ++ item.2.digits

def Reads (list : IdxList) (cnt : UInt32) (idx : List UInt32) : Prop :=
  cnt.toNat = list.numbers.length ∧
    idx.take list.numbers.length = list.numbers.map fun n => UInt32.ofNat n.value

/-- The list is stored, whichever of the two entries it is. -/
def IdxStored (list : IdxList) (sdfFilterIdx : Option (List Char)) : Prop :=
  (∃ pcc, initPccRules none (some list.text) = some pcc ∧ Reads list pcc.sdfIdxCnt pcc.sdfIdx) ∧
    ∃ pcc, initPccRules (some list.text) sdfFilterIdx = some pcc ∧
      Reads list pcc.adcIdxCnt pcc.adcIdx

/-- The characters of a separator up to its last `,` or `:`. Each takes a round; `strtol` passes
over the blanks behind them. -/
def markedLength : List Char → Nat
  | [] => 0
  | c :: cs => if markedLength cs = 0 ∧ isSpace c then 0 else markedLength cs + 1

def IdxList.rounds (list : IdxList) : Nat :=
  (list.rest.map fun item => markedLength item.1.chars + 1).sum + 1

variable {chars rest entry : List Char} {n : Number} {rounds : Nat}

theorem scanDigits_ofDigitChars {digits : List Char} (decimal : ∀ c ∈ digits, c.isDigit) (acc : Nat)
    (stop : ∀ c ∈ rest.head?, ¬ isDigitIn 10 c) :
    scanDigits 10 acc (digits ++ rest) = (Nat.ofDigitChars 10 digits acc, rest) := by
  induction digits generalizing acc with
  | nil => exact scanDigits_stop stop acc
  | cons c cs ih =>
    rw [forall_mem_cons] at decimal
    have small : c.toNat - 48 < 10 := by
      have bounds := toNat_lt_of_isDigit decimal.1
      omega
    rw [cons_append, scanDigits, digitVal, if_pos decimal.1]
    simp only [small, if_true]
    rw [ih decimal.2, Nat.mul_comm]
    rfl

theorem Number.head (n : Number) : ∃ c cs, n.digits = c :: cs ∧ c.isDigit := by
  obtain ⟨c, cs, equal⟩ := exists_cons_of_ne_nil n.nonempty
  exact ⟨c, cs, equal, n.decimal c (equal ▸ mem_cons_self)⟩

/-- Blanks and a number are read as one. -/
theorem strtolEnd_number (blank : ∀ c ∈ chars, isSpace c) (stop : ∀ c ∈ rest.head?, ¬ isDigitIn 10 c) :
    strtolEnd (chars ++ (n.digits ++ rest)) = ((n.value : Int), rest) := by
  obtain ⟨c, cs, equal, digit⟩ := n.head
  obtain ⟨noSpace, noMinus, noPlus⟩ := not_isSpace_of_isDigit digit
  have skipped : (chars ++ (n.digits ++ rest)).dropWhile isSpace = n.digits ++ rest := by
    rw [dropWhile_append_of_pos blank, equal, cons_append, dropWhile_cons_of_neg noSpace]
  have first : (n.digits ++ rest).head? = some c := by rw [equal]; rfl
  have scanned := scanDigits_ofDigitChars n.decimal 0 stop
  simp [strtolEnd, skipped, first, noMinus, noPlus, digit, scanned, Number.value]

/-- In front of a `,` or `:` nothing is read. -/
theorem strtolEnd_mark {mark : Char} (marked : mark = ',' ∨ mark = ':')
    (skipped : entry.dropWhile isSpace = mark :: rest) : strtolEnd entry = (0, entry) := by
  rw [strtolEnd, skipped]
  rcases marked with rfl | rfl <;> rfl

theorem blank_of_markedLength (none : markedLength chars = 0) : ∀ c ∈ chars, isSpace c := by
  induction chars with
  | nil => exact forall_mem_nil _
  | cons c cs ih =>
    rw [markedLength] at none
    split at none
    case isTrue blank => exact forall_mem_cons.mpr ⟨blank.2, ih blank.1⟩
    case isFalse => cases none

theorem mark_of_markedLength (separates : Separates chars)
    (some : markedLength chars ≠ 0) (rest : List Char) :
    ∃ mark tail, (mark = ',' ∨ mark = ':') ∧
      (chars ++ rest).dropWhile isSpace = mark :: tail := by
  induction chars with
  | nil => exact absurd rfl some
  | cons c cs ih =>
    obtain ⟨first, others⟩ := forall_mem_cons.mp separates
    by_cases blank : isSpace c
    · have later : markedLength cs ≠ 0 := fun none => some (by rw [markedLength, if_pos ⟨none, blank⟩])
      rw [cons_append, dropWhile_cons_of_pos blank]
      exact ih others later
    · refine ⟨c, cs ++ rest, ?_, by rw [cons_append, dropWhile_cons_of_neg blank]⟩
      rcases first with rfl | rfl | rfl | rfl
      · exact .inl rfl
      · exact .inr rfl
      all_goals exact absurd rfl blank

theorem readIdx_number (blank : ∀ c ∈ chars, isSpace c) (stop : ∀ c ∈ rest.head?, ¬ isDigitIn 10 c) :
    readIdx (rounds + 1) (chars ++ (n.digits ++ rest)) =
      (readIdx rounds rest).map (UInt32.ofNat n.value :: ·) := by
  have fits : n.value < 2 ^ 31 := n.fits
  have longer : 0 < n.digits.length := length_pos_of_ne_nil n.nonempty
  have moved : chars ++ (n.digits ++ rest) ≠ rest := fun same => by
    have equal := congrArg length same
    simp only [length_append] at equal
    omega
  have cast : ((n.value : Int) % 2 ^ 32).toNat = n.value := by omega
  rw [readIdx, strtolEnd_number blank stop]
  dsimp only
  rw [if_neg (by omega), if_neg (by simp [n.nonempty]), if_neg fun skip => moved skip.1,
    UInt32.ofInt, cast]

/-- An item is read behind the rounds of its separator, if there are so many and one more. -/
theorem readIdx_item_iff (separates : Separates chars) (stop : ∀ c ∈ rest.head?, ¬ isDigitIn 10 c)
    {idx : List UInt32} {needed : Nat}
    (later : ∀ rounds, readIdx rounds rest = some idx ↔ needed ≤ rounds) (rounds : Nat) :
    readIdx rounds (chars ++ (n.digits ++ rest)) = some (UInt32.ofNat n.value :: idx) ↔
      markedLength chars + 1 + needed ≤ rounds := by
  induction marks : markedLength chars generalizing chars rounds with
  | zero =>
    cases rounds with
    | zero => simp [readIdx]
    | succ rounds =>
      rw [readIdx_number (blank_of_markedLength marks) stop]
      simp only [Option.map_eq_some_iff, cons.injEq, true_and, exists_eq_right, later]
      omega
  | succ marked ih =>
    obtain ⟨mark, tail, isMark, skipped⟩ :=
      mark_of_markedLength separates (by omega) (n.digits ++ rest)
    cases chars with
    | nil => cases marks
    | cons c cs =>
      rw [markedLength] at marks
      split at marks
      case isTrue => cases marks
      case isFalse =>
        cases rounds with
        | zero => simp [readIdx]
        | succ rounds =>
          have next := ih (forall_mem_cons.mp separates).2 rounds (Nat.succ.inj marks)
          have nothing := strtolEnd_mark isMark skipped
          rw [readIdx, nothing]
          simp only
          exact next.trans (by omega)

theorem separator_stop (rest : List (Separator × Number)) :
    ∀ c ∈ (rest.flatMap fun item => item.1.chars ++ item.2.digits).head?, ¬ isDigitIn 10 c := by
  cases rest with
  | nil => simp
  | cons item items =>
    obtain ⟨c, cs, equal⟩ := exists_cons_of_ne_nil item.1.nonempty
    have mark := item.1.separates c (equal ▸ mem_cons_self)
    rw [flatMap_cons, equal]
    rintro _ ⟨⟩ ⟨d, -, value⟩
    rcases mark with rfl | rfl | rfl | rfl <;> cases value

theorem readIdx_nil (rounds : Nat) : readIdx rounds [] = some [] := by
  cases rounds <;> rfl

theorem readIdx_items (items : List (Separator × Number)) (rounds : Nat) :
    readIdx rounds (items.flatMap fun item => item.1.chars ++ item.2.digits) =
        some (items.map fun item => UInt32.ofNat item.2.value) ↔
      (items.map fun item => markedLength item.1.chars + 1).sum ≤ rounds := by
  induction items generalizing rounds with
  | nil => simp [readIdx_nil]
  | cons item items ih =>
    rw [flatMap_cons, append_assoc]
    exact readIdx_item_iff item.1.separates (separator_stop items) ih rounds

/-- The indices read are those written if the rounds suffice, and only then. -/
theorem readIdx_text (list : IdxList) (rounds : Nat) :
    readIdx rounds list.text = some (list.numbers.map fun n => UInt32.ofNat n.value) ↔
      list.rounds ≤ rounds := by
  rw [IdxList.numbers, map_cons, map_map, IdxList.rounds, add_comm]
  exact readIdx_item_iff (forall_mem_nil _) (separator_stop list.rest) (readIdx_items list.rest) rounds

theorem length_readIdx {idx : List UInt32} (read : readIdx rounds entry = some idx) :
    idx.length ≤ rounds := by
  induction rounds generalizing entry idx with
  | zero =>
    cases read
    exact Nat.le_refl _
  | succ rounds ih =>
    rw [readIdx] at read
    dsimp only at read
    split_ifs at read
    · cases read
      exact Nat.zero_le _
    · exact (ih read).trans (Nat.le_succ _)
    · obtain ⟨later, done, rfl⟩ := Option.map_eq_some_iff.mp read
      exact Nat.succ_le_succ (ih done)

theorem reads_iff (list : IdxList) (old : List UInt32) :
    (∃ idx, readIdx maxSdfIdxCount list.text = some idx ∧
      Reads list (UInt32.ofNat idx.length) (storeIdx idx old)) ↔ list.rounds ≤ maxSdfIdxCount := by
  rw [← readIdx_text]
  constructor
  · rintro ⟨idx, read, number, same⟩
    have short : idx.length < 2 ^ 32 := (length_readIdx read).trans_lt (by decide)
    rw [UInt32.toNat_ofNat_of_lt' short] at number
    rw [storeIdx, ← number, take_left] at same
    rw [read, same]
  · intro read
    have short := (length_readIdx read).trans_lt (by decide : maxSdfIdxCount < 2 ^ 32)
    refine ⟨_, read, ?_, ?_⟩
    · rw [UInt32.toNat_ofNat_of_lt' short, length_map]
    · rw [storeIdx, take_left' (length_map _)]

/-- A list of indices is stored as it is written exactly if the numbers and the separators'
characters, up to the last `,` or `:` of each, fit the rounds of the loop. -/
theorem idxStored_iff (list : IdxList) (sdfFilterIdx : Option (List Char)) :
    IdxStored list sdfFilterIdx ↔ list.rounds ≤ maxSdfIdxCount := by
  rw [IdxStored, ← and_self (_ ≤ _)]
  refine and_congr ?_ ?_ <;>
    simpa [initPccRules, Option.bind_eq_some_iff, maxAdcIdxCount, maxSdfIdxCount] using
      reads_iff list (replicate maxSdfIdxCount 0)

def digit (c : Char) (decimal : c.isDigit ∧ c.toNat < 58) : Number where
  digits := [c]
  nonempty := cons_ne_nil _ _
  decimal := by simpa using decimal.1
  fits := by
    change 10 * 0 + (c.toNat - 48) < 2 ^ 31
    omega

def oneToNine : IdxList where
  first := digit '1' (by decide)
  rest := [digit '2' (by decide), digit '3' (by decide), digit '4' (by decide),
    digit '5' (by decide), digit '6' (by decide), digit '7' (by decide), digit '8' (by decide),
    digit '9' (by decide)].map (⟨[','], by simp, by simp [Separates]⟩, ·)

/-- `1,2,3,4,5,6,7,8,9`: the ninth number is not read. -/
theorem ninth_not_stored : oneToNine.text = "1,2,3,4,5,6,7,8,9".toList ∧
    (initPccRules none (some oneToNine.text)).map PccIdx.sdfIdxCnt = some 8 ∧
    ¬ IdxStored oneToNine none := by
  have eight : (initPccRules none (some oneToNine.text)).map PccIdx.sdfIdxCnt = some 8 := by decide
  refine ⟨by decide, eight, ?_⟩
  rintro ⟨⟨pcc, done, number, -⟩, -⟩
  rw [done] at eight
  cases (Option.some_inj.mp eight ▸ number : (8 : UInt32).toNat = oneToNine.numbers.length)

end Epc.Cp
