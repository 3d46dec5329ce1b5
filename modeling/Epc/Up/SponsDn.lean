import Epc.Lib.Run

/-! The table of sponsored domain names (`lib/libsponsdn/sponsdn.c`): host names and rule ids in parallel
arrays of which the first `free_idx` entries are in use. What a deletion leaves of it. -/

namespace Epc.Up

open Lib.Run List

def maxDnsNameLen : Nat := 256

/-- A domain name as a C string; it fits a row with its terminator. -/
structure DomainName where
  text : List Char
  nonempty : text ≠ []
  terminated : '\x00' ∉ text
  fits : text.length < maxDnsNameLen

/-- `host_names[i]` up to its terminator and `rule_ids[i]`. -/
structure HostEntry where
  hostName : List Char := []
  ruleId : UInt32 := 0
  deriving DecidableEq, Repr, Inhabited

def HostEntry.named (e : HostEntry) : Bool :=
  e.hostName ≠ []

structure SponsDn where
  maxHostNames : UInt32
  rows : List HostEntry
  freeIdx : UInt32 := 0
  deriving DecidableEq, Repr

def einval : Int := 22

namespace SponsDn

/-- `epc_sponsdn_create`, with memory for the arrays. -/
def create (maxDn : UInt32) : SponsDn :=
  { maxHostNames := maxDn, rows := List.replicate maxDn.toNat {} }

section

-- whether the pattern compiler accepts a list of names
variable (hsCompile : List (List Char) → Bool)

def compileTbl (t : SponsDn) : Int :=
  if t.freeIdx = 0 then 0
  else if hsCompile ((t.rows.take t.freeIdx.toNat).map (·.hostName)) then 0
  else -1

def dnAddSingle (t : SponsDn) (dn : DomainName) (rule : UInt32) : SponsDn × Int :=
  if t.freeIdx + 1 > t.maxHostNames ∨ t.freeIdx + 1 < t.freeIdx then (t, -einval)
  else
    let t' := { t with
      rows := t.rows.set t.freeIdx.toNat { hostName := dn.text, ruleId := rule }
      freeIdx := t.freeIdx + 1 }
    (t', t'.compileTbl hsCompile)

/-- One round of `epc_sponsdn_dn_add_multi`; without `rules` the rule id stays. -/
def addRow (freeIdx : Nat) (dn : Nat → DomainName) (rules : Option (Nat → UInt32))
    (rows : List HostEntry) (i : Nat) : List HostEntry :=
  rows.modify (i + freeIdx) fun e =>
    { hostName := (dn i).text, ruleId := (rules.map (· i)).getD e.ruleId }

def dnAddMulti (t : SponsDn) (dn : Nat → DomainName) (rules : Option (Nat → UInt32))
    (num : UInt32) : SponsDn × Int :=
  if t.freeIdx + num > t.maxHostNames ∨ t.freeIdx + num < t.freeIdx then (t, -einval)
  else
    let t' := { t with
      rows := (List.range num.toNat).foldl (addRow t.freeIdx.toNat dn rules) t.rows
      freeIdx := t.freeIdx + num }
    (t', t'.compileTbl hsCompile)

/-- The inner loop of the first pass of `epc_sponsdn_dn_del`: a match is reset and the rest of `dn`
compared with the empty name. -/
def resetEntry : List (List Char) → HostEntry → UInt32 → HostEntry × UInt32
  | [], e, numDel => (e, numDel)
  | d :: dn, e, numDel =>
    if d = e.hostName then resetEntry dn { e with hostName := [] } (numDel + 1)
    else resetEntry dn e numDel

def resetEntries (dn : List (List Char)) : List HostEntry → UInt32 → List HostEntry × UInt32
  | [], numDel => ([], numDel)
  | e :: es, numDel =>
    let (e', numDel) := resetEntry dn e numDel
    let (es', numDel) := resetEntries dn es numDel
    (e' :: es', numDel)

/-- The inner loop of the second pass: `j` goes down to an entry with a name, not to `i`. -/
def searchBack (rows : List HostEntry) (i : Nat) : Nat → Nat × Bool
  | 0 => (0, false)
  | j + 1 =>
    if i < j + 1 then
      if (rows.getD (j + 1) {}).named then (j + 1, true) else searchBack rows i j
    else (j + 1, false)

def fillRow (s : List HostEntry × Nat) (i : Nat) : List HostEntry × Nat :=
  let (rows, j) := s
  if (rows.getD i {}).named then (rows, j)
  else
    match searchBack rows i j with
    | (j, true) => (rows.set i (rows.getD j {}), j)
    | (j, false) => (rows, j)

/-- The second pass over the first `free` entries. -/
def fillRows (free : Nat) (rows : List HostEntry) : List HostEntry :=
  ((List.range free).foldl fillRow (rows, free - 1)).1

def dnDel (t : SponsDn) (dn : List (List Char)) : SponsDn × Int :=
  let (used, numDel) := resetEntries dn (t.rows.take t.freeIdx.toNat) 0
  let t' := { t with
    rows := fillRows t.freeIdx.toNat (used ++ t.rows.drop t.freeIdx.toNat)
    freeIdx := t.freeIdx - numDel }
  (t', if t'.freeIdx = 0 then 0 else t'.compileTbl hsCompile)

end

def entries (t : SponsDn) : List HostEntry :=
  t.rows.take t.freeIdx.toNat

/-- The first `free_idx` entries are those before whose name is not in `dn`. -/
def Deleted (t : SponsDn) (dn : List (List Char)) (t' : SponsDn) : Prop :=
  t'.freeIdx.toNat ≤ t'.rows.length ∧
    t'.entries.Perm (t.entries.filter fun e => e.hostName ∉ dn)

instance decidableDeleted (t : SponsDn) (dn : List (List Char)) (t' : SponsDn) :
    Decidable (t.Deleted dn t') :=
  inferInstanceAs (Decidable (_ ∧ _))

end SponsDn

inductive SponsDnAdd where
  | single (dn : DomainName) (rule : UInt32)
  | multi (dn : Nat → DomainName) (rules : Option (Nat → UInt32)) (num : UInt32)

def SponsDnAdd.exec (hsCompile : List (List Char) → Bool) (t : SponsDn) : SponsDnAdd → SponsDn
  | .single dn rule => (t.dnAddSingle hsCompile dn rule).1
  | .multi dn rules num => (t.dnAddMulti hsCompile dn rules num).1

namespace SponsDn

section

theorem ofNat_add_one_left (a : UInt32) (n : Nat) :
    a + 1 + UInt32.ofNat n = a + UInt32.ofNat (n + 1) := by
  rw [UInt32.ofNat_add, UInt32.add_assoc, UInt32.add_comm 1]
  rfl

theorem resetEntry_empty (dn : List (List Char)) (rule numDel : UInt32) :
    resetEntry dn { hostName := [], ruleId := rule } numDel =
      ({ hostName := [], ruleId := rule }, numDel + UInt32.ofNat (dn.count [])) := by
  induction dn generalizing numDel with
  | nil => simp [resetEntry]
  | cons d dn ih =>
    rw [resetEntry]
    by_cases empty : d = []
    · rw [if_pos empty, ih, empty, count_cons_self, ofNat_add_one_left]
    · rw [if_neg empty, ih, count_cons_of_ne empty]

def emptiesAfter (name : List Char) : List (List Char) → Nat
  | [] => 0
  | d :: dn => if d = name then dn.count [] else emptiesAfter name dn

def reset (dn : List (List Char)) (e : HostEntry) : HostEntry :=
  if e.hostName ∈ dn then { e with hostName := [] } else e

def deletions (dn : List (List Char)) (e : HostEntry) : Nat :=
  if e.hostName ∈ dn then emptiesAfter e.hostName dn + 1 else 0

theorem resetEntry_eq (dn : List (List Char)) (e : HostEntry) (numDel : UInt32) :
    resetEntry dn e numDel = (reset dn e, numDel + UInt32.ofNat (deletions dn e)) := by
  induction dn with
  | nil => simp [resetEntry, reset, deletions]
  | cons d dn ih =>
    by_cases found : d = e.hostName
    · have rest := resetEntry_empty dn e.ruleId (numDel + 1)
      have mem : e.hostName ∈ d :: dn := found ▸ mem_cons_self
      rw [reset, deletions, if_pos mem, if_pos mem, emptiesAfter, if_pos found,
        ← ofNat_add_one_left, ← rest, resetEntry, if_pos found]
    · have other : e.hostName ∈ d :: dn ↔ e.hostName ∈ dn := by
        rw [mem_cons, or_iff_right (Ne.symm found)]
      rw [resetEntry, if_neg found, ih]
      simp only [reset, deletions, other, emptiesAfter, if_neg found]

theorem resetEntries_eq (dn : List (List Char)) (es : List HostEntry) (numDel : UInt32) :
    resetEntries dn es numDel =
      (es.map (reset dn), numDel + UInt32.ofNat (es.map (deletions dn)).sum) := by
  induction es generalizing numDel with
  | nil => simp [resetEntries]
  | cons e es ih =>
    rw [resetEntries, resetEntry_eq]
    dsimp only
    rw [ih, map_cons, map_cons, sum_cons, UInt32.ofNat_add, UInt32.add_assoc]

def miscounted (dn : List (List Char)) (es : List HostEntry) : Nat :=
  (es.map fun e => if e.hostName ∈ dn then emptiesAfter e.hostName dn else 0).sum

theorem miscounted_cons (dn : List (List Char)) (e : HostEntry) (es : List HostEntry) :
    miscounted dn (e :: es) =
      (if e.hostName ∈ dn then emptiesAfter e.hostName dn else 0) + miscounted dn es := by
  rw [miscounted, miscounted, map_cons, sum_cons]

theorem sum_deletions (dn : List (List Char)) (es : List HostEntry) :
    (es.map (deletions dn)).sum =
      es.countP (fun e => e.hostName ∈ dn) + miscounted dn es := by
  induction es with
  | nil => rfl
  | cons e es ih =>
    rw [map_cons, sum_cons, ih, countP_cons, miscounted_cons, deletions]
    by_cases found : e.hostName ∈ dn
    · simp only [found, if_true, decide_true]
      omega
    · simp [found]

end

section

/-- The last entry in use that has a name is at `last`. -/
structure LastNamed (rows : List HostEntry) (free last : Nat) : Prop where
  inside : last < free
  named : (rows.getD last {}).named = true
  behind : ∀ k, last < k → k < free → (rows.getD k {}).named = false

variable {rows before : List HostEntry} {free last i : Nat}

theorem searchBack_eq {j : Nat}
    (isLast : LastNamed rows free last) (le_last : last ≤ j) (inside : j < free) :
    ∃ j', searchBack rows i j = (j', decide (i < last)) ∧ last ≤ j' ∧ j' < free ∧
      (i < last → j' = last) := by
  induction j with
  | zero =>
    have zero : last = 0 := Nat.le_zero.mp le_last
    exact ⟨0, by simp [searchBack, zero], le_last, inside, by omega⟩
  | succ j ih =>
    rw [searchBack]
    by_cases below : i < j + 1
    · rw [if_pos below]
      rcases Nat.lt_or_ge last (j + 1) with later | here
      · rw [isLast.behind (j + 1) later inside, if_neg Bool.false_ne_true]
        exact ih (Nat.lt_succ_iff.mp later) (by omega)
      · have same : j + 1 = last := le_antisymm here le_last
        rw [same, isLast.named, if_pos rfl]
        exact ⟨last, by simp [show i < last by omega], le_rfl, isLast.inside, fun _ => rfl⟩
    · rw [if_neg below]
      exact ⟨j + 1, by simp; omega, le_last, inside, by omega⟩

/-- The rows when the second pass has come to `i`. -/
structure Filling (before : List HostEntry) (free last i : Nat) (s : List HostEntry × Nat) :
    Prop where
  length : s.1.length = before.length
  rows : ∀ k, s.1.getD k {} =
    if k < i ∧ k < last ∧ (before.getD k {}).named = false then before.getD last {}
    else before.getD k {}
  le_back : last ≤ s.2
  back_lt : s.2 < free

variable {s : List HostEntry × Nat}

theorem Filling.row_behind (filling : Filling before free last i s) {k : Nat} (behind : i ≤ k) :
    s.1.getD k {} = before.getD k {} := by
  rw [filling.rows, if_neg fun both => absurd both.1 (not_lt.mpr behind)]

theorem Filling.isLast (filling : Filling before free last i s) (isLast : LastNamed before free last) :
    LastNamed s.1 free last where
  inside := isLast.inside
  named := by
    rw [filling.rows, if_neg fun both => absurd both.2.1 (lt_irrefl last)]
    exact isLast.named
  behind := fun k later inside => by
    rw [filling.rows, if_neg fun both => absurd both.2.1 (not_lt.mpr later.le)]
    exact isLast.behind k later inside

theorem Filling.fillRow
    (isLast : LastNamed before free last) (room : free ≤ before.length) (inside : i < free)
    (filling : Filling before free last i s) : Filling before free last (i + 1) (fillRow s i) := by
  obtain ⟨rows, j⟩ := s
  have here : rows.getD i {} = before.getD i {} := filling.row_behind le_rfl
  rw [SponsDn.fillRow, here]
  by_cases named : (before.getD i {}).named
  · -- the round leaves the row
    rw [if_pos named]
    refine ⟨filling.length, fun k => ?_, filling.le_back, filling.back_lt⟩
    rw [filling.rows]
    by_cases same : k = i
    · have noGap : ¬ (before.getD i {}).named = false := by
        rw [named]
        decide
      rw [same, if_neg fun gap => noGap gap.2.2, if_neg fun gap => noGap gap.2.2]
    · simp [show k < i + 1 ↔ k < i by omega]
  · rw [if_neg named]
    obtain ⟨j', searched, le_back, back_lt, found⟩ :=
      searchBack_eq (i := i) (filling.isLast isLast) filling.le_back filling.back_lt
    rw [searched]
    by_cases before_last : i < last
    · have source : rows.getD j' {} = before.getD last {} := by
        rw [found before_last]
        exact filling.row_behind before_last.le
      rw [decide_eq_true before_last]
      refine ⟨(length_set).trans filling.length, fun k => ?_, le_back, back_lt⟩
      dsimp only
      rw [source]
      by_cases same : k = i
      · have bound : i < rows.length := by
          rw [filling.length]
          exact inside.trans_le room
        rw [same, if_pos ⟨by omega, before_last, by simpa using named⟩, getD_eq_getElem?_getD,
          getElem?_set_self bound]
        rfl
      · rw [getD_eq_getElem?_getD, getElem?_set_ne (Ne.symm same), ← getD_eq_getElem?_getD]
        have rest := filling.rows k
        simpa [show k < i + 1 ↔ k < i by omega] using rest
    · rw [decide_eq_false before_last]
      refine ⟨filling.length, fun k => ?_, le_back, back_lt⟩
      rw [filling.rows]
      by_cases same : k = i
      · simp [same, before_last]
      · simp [show k < i + 1 ↔ k < i by omega]

theorem fillRows_getD (isLast : LastNamed rows free last)
    (room : free ≤ rows.length) (k : Nat) (inside : k < free) :
    (fillRows free rows).length = rows.length ∧
    (fillRows free rows).getD k {} =
      if k < last ∧ (rows.getD k {}).named = false then rows.getD last {} else rows.getD k {} := by
  have initial : Filling rows free last 0 (rows, free - 1) :=
    ⟨rfl, fun _ => by simp, by have := isLast.inside; omega, by have := isLast.inside; omega⟩
  have upTo : ∀ n ≤ free, Filling rows free last n ((List.range n).foldl SponsDn.fillRow (rows, free - 1)) := by
    intro n
    induction n with
    | zero => exact fun _ => initial
    | succ n ih =>
      intro le
      rw [range_succ, foldl_append]
      exact (ih (by omega)).fillRow isLast room (by omega)
  have final := upTo free le_rfl
  refine ⟨final.length, ?_⟩
  rw [fillRows, final.rows]
  simp [inside]

theorem fillRows_of_unnamed
    (unnamed : ∀ k < free, (rows.getD k {}).named = false) : fillRows free rows = rows := by
  have search : ∀ i j, j < free → ∃ j' ≤ j, searchBack rows i j = (j', false) := by
    intro i j
    induction j with
    | zero => exact fun _ => ⟨0, le_rfl, rfl⟩
    | succ j ih =>
      intro inside
      rw [searchBack, unnamed _ inside, if_neg Bool.false_ne_true]
      split
      · obtain ⟨j', le, searched⟩ := ih (by omega)
        exact ⟨j', by omega, searched⟩
      · exact ⟨j + 1, le_rfl, rfl⟩
  have upTo : ∀ n ≤ free, ∃ j, ((List.range n).foldl fillRow (rows, free - 1)) = (rows, j) ∧
      (0 < free → j < free) := by
    intro n
    induction n with
    | zero => exact fun _ => ⟨free - 1, rfl, by omega⟩
    | succ n ih =>
      intro le
      obtain ⟨j, same, inside⟩ := ih (by omega)
      obtain ⟨j', le_back, searched⟩ := search n j (inside (by omega))
      refine ⟨j', ?_, by omega⟩
      rw [range_succ, foldl_append, same, foldl_cons, foldl_nil, fillRow,
        unnamed n (by omega), if_neg Bool.false_ne_true, searched]
  obtain ⟨j, same, -⟩ := upTo free le_rfl
  rw [fillRows, same]

end

section

def filled (last e : HostEntry) : HostEntry :=
  if e.named then e else last

theorem map_filled_perm (last : HostEntry) (front : List HostEntry) :
    (front.map (filled last)).Perm
      (front.filter (·.named) ++ List.replicate (front.countP fun e => !e.named) last) := by
  induction front with
  | nil => exact List.Perm.refl _
  | cons e front ih =>
    by_cases named : e.named
    · simpa [filled, named] using ih
    · have step : (last :: front.map (filled last)).Perm
          (front.filter (·.named) ++
            last :: List.replicate (front.countP fun e => !e.named) last) :=
        (ih.cons last).trans perm_middle.symm
      simpa [filled, named, replicate_succ] using step

theorem exists_lastNamed {rows : List HostEntry} {free k : Nat} (inside : k < free)
    (named : (rows.getD k {}).named = true) : ∃ last, k ≤ last ∧ LastNamed rows free last := by
  induction free with
  | zero => exact absurd inside (Nat.not_lt_zero k)
  | succ free ih =>
    cases top : (rows.getD free {}).named with
    | true => exact ⟨free, Nat.lt_succ_iff.mp inside, Nat.lt_succ_self free, top,
        fun j later bound => absurd later (by omega)⟩
    | false =>
      have below : k < free := by
        refine lt_of_le_of_ne (Nat.lt_succ_iff.mp inside) fun same => ?_
        rw [same, top] at named
        cases named
      obtain ⟨last, le, isLast⟩ := ih below
      refine ⟨last, le, isLast.inside.trans (Nat.lt_succ_self free), isLast.named, ?_⟩
      intro j later bound
      rcases Nat.lt_succ_iff_lt_or_eq.mp bound with lower | same
      · exact isLast.behind j later lower
      · exact same ▸ top

theorem length_fillRows {rows : List HostEntry} {free : Nat} (room : free ≤ rows.length) :
    (fillRows free rows).length = rows.length := by
  by_cases some_name : ∃ k < free, (rows.getD k {}).named = true
  · obtain ⟨k, inside, named⟩ := some_name
    obtain ⟨last, -, isLast⟩ := exists_lastNamed inside named
    exact (fillRows_getD isLast room k inside).1
  · have unnamed : ∀ k < free, (rows.getD k {}).named = false := fun k inside =>
      Bool.eq_false_of_not_eq_true fun named => some_name ⟨k, inside, named⟩
    rw [fillRows_of_unnamed unnamed]

theorem fillRows_take_of_last {used rest : List HostEntry} {q last : Nat} (front : q ≤ last)
    (isLast : LastNamed (used ++ rest) used.length last) :
    (fillRows used.length (used ++ rest)).take q =
      (used.take q).map (filled ((used ++ rest).getD last {})) := by
  have room : used.length ≤ (used ++ rest).length := by simp
  have bound : q ≤ used.length := front.trans isLast.inside.le
  apply ext_getElem?
  intro k
  rcases Nat.lt_or_ge k q with inside | beyond
  · obtain ⟨length, row⟩ := fillRows_getD isLast room k (inside.trans_le bound)
    have old : (used ++ rest).getD k {} = used.get ⟨k, inside.trans_le bound⟩ := by
      simp [getElem?_append_left (inside.trans_le bound),
        getElem?_eq_getElem (inside.trans_le bound)]
    have present : k < (fillRows used.length (used ++ rest)).length := by
      rw [length]
      exact (inside.trans_le bound).trans_le room
    rw [getElem?_take_of_lt inside, getElem?_map, getElem?_take_of_lt inside,
      getElem?_eq_getElem (inside.trans_le bound), getElem?_eq_getElem present, Option.map_some]
    rw [getD_eq_getElem _ _ present, old] at row
    rw [row, filled]
    cases named : (used.get ⟨k, inside.trans_le bound⟩).named with
    | true => rw [if_neg fun gap => Bool.false_ne_true gap.2.symm, if_pos rfl]
              rfl
    | false => rw [if_pos ⟨inside.trans_le front, rfl⟩, if_neg Bool.false_ne_true]
  · rw [getElem?_eq_none (by simp; omega), getElem?_eq_none (by simp; omega)]

theorem fillRows_take_of_named {used rest : List HostEntry} {q : Nat} (bound : q ≤ used.length)
    (named : ∀ k < q, ((used ++ rest).getD k {}).named = true) :
    (fillRows used.length (used ++ rest)).take q = used.take q := by
  have room : used.length ≤ (used ++ rest).length := by simp
  rcases Nat.eq_zero_or_pos q with rfl | pos
  · rfl
  obtain ⟨last, -, isLast⟩ := exists_lastNamed (pos.trans_le bound) (named 0 pos)
  have whole : (used ++ rest).take q = used.take q := take_append_of_le_length bound
  rw [← whole]
  apply ext_getElem?
  intro k
  rcases Nat.lt_or_ge k q with inside | beyond
  · obtain ⟨length, row⟩ := fillRows_getD isLast room k (inside.trans_le bound)
    have within : k < (used ++ rest).length := (inside.trans_le bound).trans_le room
    have present : k < (fillRows used.length (used ++ rest)).length := length ▸ within
    rw [if_neg fun gap => Bool.false_ne_true (gap.2.symm.trans (named k inside)),
      getD_eq_getElem _ _ present, getD_eq_getElem _ _ within] at row
    rw [getElem?_take_of_lt inside, getElem?_take_of_lt inside,
      getElem?_eq_getElem present, getElem?_eq_getElem within, row]
  · rw [getElem?_eq_none (by simp; omega), getElem?_eq_none (by simp; omega)]

theorem getD_append {used : List HostEntry} (rest : List HostEntry) {k : Nat}
    (inside : k < used.length) : (used ++ rest).getD k {} = used.get ⟨k, inside⟩ := by
  rw [getD_eq_getElem?_getD, getElem?_append_left inside, getElem?_eq_getElem inside]
  rfl

theorem countP_gaps (used : List HostEntry) :
    (used.take (used.countP (·.named))).countP (fun e => !e.named) =
      ((used.drop (used.countP (·.named))).filter (·.named)).length := by
  have bound : used.countP (·.named) ≤ used.length := countP_le_length
  have total : (used.take (used.countP (·.named))).countP (·.named) +
      (used.drop (used.countP (·.named))).countP (·.named) = used.countP (·.named) := by
    rw [← countP_append, take_append_drop]
  have parts := length_eq_countP_add_countP (·.named)
    (l := used.take (used.countP (·.named)))
  have unnamed : (used.take (used.countP (·.named))).countP (fun e => !e.named) =
      (used.take (used.countP (·.named))).countP (fun e => decide ¬ e.named = true) := by
    congr
    funext e
    cases e.named <;> rfl
  rw [length_take, Nat.min_eq_left bound] at parts
  rw [← countP_eq_length_filter]
  omega

theorem fillRows_take_perm_iff (used rest : List HostEntry) :
    ((fillRows used.length (used ++ rest)).take (used.countP (·.named))).Perm
        (used.filter (·.named)) ↔
      ∀ a ∈ (used.drop (used.countP (·.named))).filter (·.named),
        ∀ b ∈ (used.drop (used.countP (·.named))).filter (·.named), a = b := by
  have gaps := countP_gaps used
  have bound : used.countP (·.named) ≤ used.length := countP_le_length
  generalize used.countP (·.named) = q at gaps bound ⊢
  have whole : used.filter (·.named) =
      (used.take q).filter (·.named) ++ (used.drop q).filter (·.named) := by
    rw [← filter_append, take_append_drop]
  rcases eq_nil_or_concat ((used.drop q).filter (·.named)) with none | ⟨others, one, nonempty⟩
  · -- nothing is behind the front, which then has no gap
    rw [none, length_nil, countP_eq_zero] at gaps
    have named : ∀ k < q, ((used ++ rest).getD k {}).named = true := by
      intro k inside
      rw [getD_append rest (inside.trans_le bound)]
      have mem : used.get ⟨k, inside.trans_le bound⟩ ∈ used.take q := by
        rw [mem_take_iff_getElem]
        exact ⟨k, by omega, rfl⟩
      simpa using gaps _ mem
    have all : (used.take q).filter (·.named) = used.take q :=
      filter_eq_self.mpr fun e mem => by simpa using gaps e mem
    rw [fillRows_take_of_named bound named, whole, none, append_nil, all]
    exact iff_of_true (List.Perm.refl _) (by simp)
  · -- every gap in front takes the last of the entries behind
    have mem : one ∈ (used.drop q).filter (·.named) := by simp [nonempty]
    obtain ⟨behind, named⟩ := mem_filter.mp mem
    obtain ⟨i, inside, rfl⟩ := mem_drop_iff_getElem.mp behind
    have row : ((used ++ rest).getD (i + q) {}).named = true := by
      rw [getD_append rest inside, get_eq_getElem]
      simpa [Nat.add_comm i q] using named
    obtain ⟨last, le, isLast⟩ := exists_lastNamed inside row
    have front : q ≤ last := by omega
    have lastMember : (used ++ rest).getD last {} ∈ (used.drop q).filter (·.named) := by
      refine mem_filter.mpr ⟨?_, isLast.named⟩
      rw [getD_append rest isLast.inside, mem_drop_iff_getElem]
      exact ⟨last - q, by have := isLast.inside; omega, by simp [front]⟩
    rw [fillRows_take_of_last front isLast, whole]
    generalize (used ++ rest).getD last {} = entry at lastMember
    rw [(map_filled_perm entry (used.take q)).congr_left, perm_append_left_iff, gaps]
    constructor
    · intro same a aMember b bMember
      have all := (eq_replicate_iff.mp (replicate_perm.mp same).symm).2
      exact (all a aMember).trans (all b bMember).symm
    · intro same
      refine replicate_perm.mpr (Eq.symm ?_)
      exact eq_replicate_iff.mpr ⟨rfl, fun b bMember => same b bMember entry lastMember⟩

end

section

structure Built (t : SponsDn) : Prop where
  inside : t.freeIdx.toNat ≤ t.rows.length
  named : ∀ e ∈ t.entries, e.named = true

variable {dn : List (List Char)}

theorem named_reset {e : HostEntry} (named : e.named = true) :
    (reset dn e).named = decide (e.hostName ∉ dn) := by
  by_cases found : e.hostName ∈ dn
  · simp [reset, found, HostEntry.named]
  · simpa [reset, found] using named

theorem filter_named_reset {es : List HostEntry} (named : ∀ e ∈ es, e.named = true) :
    (es.map (reset dn)).filter (·.named) = es.filter fun e => e.hostName ∉ dn := by
  induction es with
  | nil => rfl
  | cons e es ih =>
    rw [forall_mem_cons] at named
    rw [map_cons, filter_cons, filter_cons, named_reset named.1, ih named.2]
    by_cases found : e.hostName ∈ dn
    · simp [found]
    · simp [found, reset]

theorem countP_named_reset {es : List HostEntry} (named : ∀ e ∈ es, e.named = true) :
    (es.map (reset dn)).countP (·.named) =
      es.length - es.countP (fun e => e.hostName ∈ dn) := by
  have parts := length_eq_countP_add_countP (fun e => decide (e.hostName ∈ dn)) (l := es)
  rw [countP_eq_length_filter, filter_named_reset named, ← countP_eq_length_filter]
  simp only [decide_eq_true_eq] at parts
  omega

variable (hsCompile : List (List Char) → Bool)

def survivorsBehind (dn : List (List Char)) (es : List HostEntry) : List HostEntry :=
  (es.drop (es.length - es.countP (fun e => e.hostName ∈ dn))).filter fun e => e.hostName ∉ dn

theorem dnDel_eq (t : SponsDn) (dn : List (List Char)) :
    (t.dnDel hsCompile dn).1 =
      { t with
        rows := fillRows t.freeIdx.toNat
          (t.entries.map (reset dn) ++ t.rows.drop t.freeIdx.toNat)
        freeIdx := t.freeIdx - UInt32.ofNat
          (t.entries.countP (fun e => e.hostName ∈ dn) + miscounted dn t.entries) } := by
  rw [dnDel, resetEntries_eq, sum_deletions, UInt32.zero_add]
  rfl

theorem freeIdx_sub_iff {free : UInt32} {deleted extra : Nat} (le : deleted ≤ free.toNat) :
    (free - UInt32.ofNat (deleted + extra)).toNat = free.toNat - deleted ↔
      extra % 2 ^ 32 = 0 := by
  have bound := free.toNat_lt
  rw [UInt32.toNat_sub, UInt32.toNat_ofNat']
  omega

theorem take_perm_iff {rows expected : List HostEntry} {free size : Nat}
    (length : expected.length = size) (room : size ≤ rows.length) :
    free ≤ rows.length ∧ (rows.take free).Perm expected ↔
      free = size ∧ (rows.take size).Perm expected := by
  constructor
  · rintro ⟨inside, perm⟩
    have same : free = size := by
      have count := perm.length_eq
      rwa [length_take, Nat.min_eq_left inside, length] at count
    exact ⟨same, same ▸ perm⟩
  · rintro ⟨rfl, perm⟩
    exact ⟨room, perm⟩

theorem Built.deleted_iff {t : SponsDn} (built : Built t) (dn : List (List Char)) :
    t.Deleted dn (t.dnDel hsCompile dn).1 ↔
      miscounted dn t.entries % 2 ^ 32 = 0 ∧
        ∀ a ∈ survivorsBehind dn t.entries, ∀ b ∈ survivorsBehind dn t.entries, a = b := by
  have length : t.entries.length = t.freeIdx.toNat := by
    rw [entries, length_take, Nat.min_eq_left built.inside]
  have le : t.entries.countP (fun e => e.hostName ∈ dn) ≤ t.freeIdx.toNat :=
    length ▸ countP_le_length
  have remaining : (t.entries.filter fun e => e.hostName ∉ dn).length =
      t.freeIdx.toNat - t.entries.countP (fun e => e.hostName ∈ dn) := by
    rw [← filter_named_reset built.named, ← countP_eq_length_filter,
      countP_named_reset built.named, length]
  have room : t.freeIdx.toNat ≤
      (t.entries.map (reset dn) ++ t.rows.drop t.freeIdx.toNat).length := by
    rw [length_append, length_map, length]
    exact Nat.le_add_right _ _
  have filled := fillRows_take_perm_iff (t.entries.map (reset dn)) (t.rows.drop t.freeIdx.toNat)
  rw [countP_named_reset built.named, filter_named_reset built.named, ← map_drop,
    filter_named_reset fun e mem => built.named e (mem_of_mem_drop mem),
    length_map, length] at filled
  rw [dnDel_eq, Deleted, survivorsBehind, length, ← filled, ← freeIdx_sub_iff le]
  exact take_perm_iff remaining ((Nat.sub_le _ _).trans (room.trans (length_fillRows room).ge))

end

section

variable {hsCompile : List (List Char) → Bool} {t : SponsDn}

structure Wf (t : SponsDn) : Prop where
  rows : t.rows.length = t.maxHostNames.toNat
  free : t.freeIdx.toNat ≤ t.maxHostNames.toNat
  named : ∀ e ∈ t.entries, e.named = true

theorem Wf.built (wf : Wf t) : Built t :=
  ⟨wf.rows ▸ wf.free, wf.named⟩

theorem create_wf (maxDn : UInt32) : Wf (create maxDn) :=
  ⟨length_replicate, Nat.zero_le _, by simp [entries, create]⟩

theorem room_of_guard {free num max : UInt32} (guard : ¬ (free + num > max ∨ free + num < free)) :
    (free + num).toNat = free.toNat + num.toNat ∧ free.toNat + num.toNat ≤ max.toNat := by
  rw [not_or, gt_iff_lt, UInt32.not_lt, UInt32.not_lt, UInt32.le_iff_toNat_le,
    UInt32.le_iff_toNat_le] at guard
  have sum : (free + num).toNat = (free.toNat + num.toNat) % 2 ^ 32 := UInt32.toNat_add _ _
  have numLt := num.toNat_lt
  omega

theorem DomainName.named (dn : DomainName) (rule : UInt32) : (HostEntry.mk dn.text rule).named = true :=
  decide_eq_true dn.nonempty

theorem foldl_addRow (free : Nat) (dn : Nat → DomainName) (rules : Option (Nat → UInt32))
    (rows : List HostEntry) (num : Nat) :
    ((List.range num).foldl (addRow free dn rules) rows).length = rows.length ∧
      ∀ e ∈ ((List.range num).foldl (addRow free dn rules) rows).take (free + num),
        e ∈ rows.take free ∨ e.named = true := by
  induction num with
  | zero => exact ⟨rfl, fun e mem => .inl mem⟩
  | succ num ih =>
    rw [range_succ, foldl_append, foldl_cons, foldl_nil, addRow, length_modify]
    refine ⟨ih.1, fun e mem => ?_⟩
    obtain ⟨k, bound, row⟩ := mem_take_iff_getElem.mp mem
    rw [length_modify] at bound
    by_cases new : num + free = k
    · refine .inr ?_
      rw [← row, getElem_modify, if_pos new]
      exact DomainName.named _ _
    · rw [getElem_modify, if_neg new] at row
      refine ih.2 e (mem_take_iff_getElem.mpr ⟨k, by omega, row⟩)

theorem Wf.dnAddSingle (wf : Wf t) (dn : DomainName) (rule : UInt32) :
    Wf (t.dnAddSingle hsCompile dn rule).1 := by
  rw [SponsDn.dnAddSingle]
  by_cases full : t.freeIdx + 1 > t.maxHostNames ∨ t.freeIdx + 1 < t.freeIdx
  · rw [if_pos full]
    exact wf
  · obtain ⟨sum, room⟩ := room_of_guard full
    rw [if_neg full]
    refine ⟨(length_set).trans wf.rows, sum ▸ room, fun e mem => ?_⟩
    dsimp only [entries] at mem
    obtain ⟨k, bound, row⟩ := mem_take_iff_getElem.mp mem
    rw [getElem_set] at row
    split at row
    · rw [← row]
      exact DomainName.named _ _
    · rename_i old
      have one : (1 : UInt32).toNat = 1 := rfl
      rw [length_set] at bound
      exact wf.named e (mem_take_iff_getElem.mpr ⟨k, by omega, row⟩)

theorem Wf.dnAddMulti (wf : Wf t) (dn : Nat → DomainName) (rules : Option (Nat → UInt32))
    (num : UInt32) : Wf (t.dnAddMulti hsCompile dn rules num).1 := by
  rw [SponsDn.dnAddMulti]
  by_cases full : t.freeIdx + num > t.maxHostNames ∨ t.freeIdx + num < t.freeIdx
  · rw [if_pos full]
    exact wf
  · obtain ⟨sum, room⟩ := room_of_guard full
    obtain ⟨length, taken⟩ := foldl_addRow t.freeIdx.toNat dn rules t.rows num.toNat
    rw [if_neg full]
    refine ⟨length.trans wf.rows, sum ▸ room, fun e mem => ?_⟩
    dsimp only [entries] at mem
    rw [sum] at mem
    rcases taken e mem with old | new
    · exact wf.named e old
    · exact new

theorem run_wf (maxDn : UInt32) (adds : List SponsDnAdd) :
    Wf (run (SponsDnAdd.exec hsCompile) (create maxDn) adds) := by
  refine run_invariant Wf adds (create_wf maxDn) fun t add wf => ?_
  cases add with
  | single dn rule => exact wf.dnAddSingle dn rule
  | multi dn rules num => exact wf.dnAddMulti dn rules num

end

end SponsDn

/-- On every table that additions build, a deletion leaves exactly the other entries when no empty
name miscounts it and the survivors among the last entries are all the same. -/
theorem sponsDn_deleted_iff (hsCompile : List (List Char) → Bool) (maxDn : UInt32)
    (adds : List SponsDnAdd) (dn : List (List Char)) :
    let t := run (SponsDnAdd.exec hsCompile) (SponsDn.create maxDn) adds
    t.Deleted dn (t.dnDel hsCompile dn).1 ↔
      SponsDn.miscounted dn t.entries % 2 ^ 32 = 0 ∧
        ∀ a ∈ SponsDn.survivorsBehind dn t.entries,
          ∀ b ∈ SponsDn.survivorsBehind dn t.entries, a = b :=
  (SponsDn.run_wf maxDn adds).built.deleted_iff hsCompile dn

def oneLetter (c : Char) (visible : '\x00' ≠ c) : DomainName where
  text := [c]
  nonempty := by simp
  terminated := by simpa using visible
  fits := by
    rw [List.length_singleton]
    decide

def fourNames : SponsDn :=
  run (SponsDnAdd.exec fun _ => true) (SponsDn.create 4)
    [.single (oneLetter 'a' (by decide)) 1, .single (oneLetter 'b' (by decide)) 2,
      .single (oneLetter 'c' (by decide)) 3, .single (oneLetter 'd' (by decide)) 4]

/-- Without the first two of four names the table holds the last of them twice. -/
theorem fourNames_not_deleted :
    fourNames.entries = [⟨['a'], 1⟩, ⟨['b'], 2⟩, ⟨['c'], 3⟩, ⟨['d'], 4⟩] ∧
      (fourNames.dnDel (fun _ => true) [['a'], ['b']]).1.entries = [⟨['d'], 4⟩, ⟨['d'], 4⟩] ∧
      ¬ fourNames.Deleted [['a'], ['b']] (fourNames.dnDel (fun _ => true) [['a'], ['b']]).1 := by
  decide

end Epc.Up
