import Epc.Lib.Run

/-! Credit-Control requests towards the PCRF: the CC-Request-Number `fill_ccr_request` takes from the
process-wide counter `cc_request_number` (`cp/cp_app.c`). -/

namespace Epc.Cp

open Lib.Run List

inductive CcRequestType where
  | initial
  | update
  | termination
  | event
  deriving DecidableEq, Repr

def tgppGprs : Int := 0

/-- The AVPs that `fill_ccr_request` sets before those read from the context. -/
structure GxCcr where
  sessionId : Option (List Char) := none
  ccRequestType : Option CcRequestType := none
  ccRequestNumber : Option UInt32 := none
  ipCanType : Option Int := none
  deriving DecidableEq, Repr

def maxSessionIdLen : Nat := 128

/-- The switch over the request type; `none` is its default branch. -/
def numberRequest (counter : UInt32) (ccr : GxCcr) : CcRequestType → Option (UInt32 × GxCcr)
  | .initial => some (counter, { ccr with ccRequestNumber := some 0, ipCanType := some tgppGprs })
  | .update => some (counter + 1, { ccr with ccRequestNumber := some (counter + 1) })
  | .termination =>
    some (counter + 1,
      { ccr with ccRequestNumber := some (counter + 1), ipCanType := some tgppGprs })
  | .event => none

/-- `fill_ccr_request`: counter, request and returned value; `hasPdn` is whether `GET_PDN` finds
one. -/
def fillCcrRequest (counter : UInt32) (ccr : GxCcr) (hasPdn : Bool) (ebiIndex : Int)
    (sessId : Option (List Char)) : UInt32 × GxCcr × Int :=
  if ebiIndex ≤ 0 then (counter, ccr, -1)
  else if hasPdn = false then (counter, ccr, -1)
  else
    let named := { ccr with sessionId := (sessId.map (List.take maxSessionIdLen)).or ccr.sessionId }
    match named.ccRequestType with
    | none => (counter, named, 0)
    | some requestType =>
      match numberRequest counter named requestType with
      | none => (counter, named, -1)
      | some (counter', numbered) => (counter', numbered, 0)

/-- A caller's request: zeroed but for the type, the identifier is the connection's `gx_sess_id`. -/
structure CcrCall where
  session : List Char
  requestType : CcRequestType
  hasPdn : Bool
  ebiIndex : Int
  deriving DecidableEq, Repr

/-- The counter, and every request filled with the session it is for. -/
structure CcrState where
  ccRequestNumber : UInt32 := 0
  filled : List (List Char × GxCcr) := []
  deriving DecidableEq, Repr

def CcrState.call (s : CcrState) (c : CcrCall) : CcrState :=
  let (counter, ccr, ret) := fillCcrRequest s.ccRequestNumber
    { ccRequestType := some c.requestType } c.hasPdn c.ebiIndex (some c.session)
  { ccRequestNumber := counter
    filled := if ret = 0 then s.filled ++ [(c.session, ccr)] else s.filled }

def CcrState.numbersOf (s : CcrState) (session : List Char) : List (Option Nat) :=
  (s.filled.filter (·.1 = session)).map fun request => request.2.ccRequestNumber.map UInt32.toNat

/-- The numbers of each session count up from zero. -/
def CcrState.Numbered (s : CcrState) : Prop :=
  ∀ session, s.numbersOf session = (List.range (s.numbersOf session).length).map some

def typesOf (session : List Char) (calls : List CcrCall) : List CcRequestType :=
  (calls.filter (·.session = session)).map (·.requestType)

/-- One INITIAL, then UPDATE, then one TERMINATION request, or a beginning of that. -/
def Issued (types : List CcRequestType) : Prop :=
  ∃ n, types <+: .initial :: (List.replicate n .update ++ [.termination])

/-- Calls of any sessions in any order, each on a bearer with a connection. -/
structure Interleaving (calls : List CcrCall) : Prop where
  accepted : ∀ c ∈ calls, 0 < c.ebiIndex ∧ c.hasPdn = true
  issued : ∀ session, Issued (typesOf session calls)

def CcRequestType.Counted (t : CcRequestType) : Prop :=
  t ≠ .initial

instance CcRequestType.decidableCounted : DecidablePred CcRequestType.Counted :=
  fun t => inferInstanceAs (Decidable (t ≠ .initial))

def counted (calls : List CcrCall) : Nat :=
  calls.countP fun c => c.requestType.Counted

/-- At most one session gets past its INITIAL request. -/
def OneSession (calls : List CcrCall) : Prop :=
  ∃ session, ∀ c ∈ calls, c.requestType.Counted → c.session = session

section

theorem Issued.append_singleton {types : List CcRequestType} {t : CcRequestType}
    (issued : Issued (types ++ [t])) : Issued types ∧ t ≠ .event ∧ (t.Counted ↔ types ≠ []) := by
  obtain ⟨n, isPrefix⟩ := issued
  have earlier : types <+: types ++ [t] := prefix_append types [t]
  refine ⟨⟨n, earlier.trans isPrefix⟩, ?_⟩
  cases types with
  | nil =>
    have first : t = .initial := (cons_prefix_cons.mp isPrefix).1
    simp [first, CcRequestType.Counted]
  | cons first others =>
    have rest := (cons_prefix_cons.mp isPrefix).2
    have later : t = .update ∨ t = .termination := by
      have mem := rest.subset (mem_append_right others (mem_singleton_self t))
      rcases mem_append.mp mem with update | last
      · exact .inl (eq_of_mem_replicate update)
      · exact .inr (mem_singleton.mp last)
    rcases later with rfl | rfl <;> simp [CcRequestType.Counted]

theorem Issued.countP_counted {types : List CcRequestType} (issued : Issued types) :
    types.countP (fun t => t.Counted) = types.length - 1 := by
  induction types using List.reverseRecOn with
  | nil => rfl
  | append_singleton types t ih =>
    obtain ⟨earlier, -, later⟩ := issued.append_singleton
    rw [countP_append, ih earlier, length_append, length_singleton, countP_singleton]
    rcases eq_nil_or_concat types with rfl | ⟨front, last, rfl⟩
    · simp [later]
    · have isCounted : t.Counted := later.mpr (by simp)
      simp [isCounted]

theorem typesOf_append (session : List Char) (calls : List CcrCall) (c : CcrCall) :
    typesOf session (calls ++ [c]) =
      if c.session = session then typesOf session calls ++ [c.requestType]
      else typesOf session calls := by
  by_cases own : c.session = session <;> simp [typesOf, own]

variable {calls : List CcrCall} {c : CcrCall}

theorem Interleaving.of_append (interleaving : Interleaving (calls ++ [c])) : Interleaving calls where
  accepted := fun c' mem => interleaving.accepted c' (mem_append_left _ mem)
  issued := fun session => by
    have issued := interleaving.issued session
    rw [typesOf_append] at issued
    split at issued
    · exact issued.append_singleton.1
    · exact issued

theorem counted_append (calls : List CcrCall) (c : CcrCall) :
    counted (calls ++ [c]) = counted calls + if c.requestType.Counted then 1 else 0 := by
  simp [counted, countP_append, countP_singleton]

theorem countP_typesOf_of_all {session : List Char}
    (all : ∀ c ∈ calls, c.requestType.Counted → c.session = session) :
    (typesOf session calls).countP (fun t => t.Counted) = counted calls := by
  rw [typesOf, countP_map, countP_filter, counted]
  apply countP_congr
  intro c mem
  simpa using all c mem

theorem countP_typesOf_of_other {session other : List Char}
    (all : ∀ c ∈ calls, c.requestType.Counted → c.session = session) (differs : other ≠ session) :
    (typesOf other calls).countP (fun t => t.Counted) = 0 := by
  rw [typesOf, countP_map, countP_filter, countP_eq_zero]
  intro c mem both
  simp only [Function.comp_apply, Bool.and_eq_true, decide_eq_true_eq] at both
  exact differs (both.2.symm.trans (all c mem both.1))

theorem oneSession_append_iff (isCounted : c.requestType.Counted) :
    OneSession (calls ++ [c]) ∧ counted (calls ++ [c]) < 2 ^ 32 ↔
      (OneSession calls ∧ counted calls < 2 ^ 32) ∧
        (counted calls + 1) % 2 ^ 32 =
          (typesOf c.session calls).countP (fun t => t.Counted) + 1 := by
  rw [counted_append, if_pos isCounted]
  constructor
  · rintro ⟨⟨session, all⟩, room⟩
    have own : c.session = session := all c (by simp) isCounted
    have earlier : ∀ c' ∈ calls, c'.requestType.Counted → c'.session = c.session :=
      fun c' mem => own ▸ all c' (mem_append_left _ mem)
    rw [countP_typesOf_of_all earlier]
    exact ⟨⟨⟨_, earlier⟩, by omega⟩, Nat.mod_eq_of_lt room⟩
  · rintro ⟨⟨⟨session, all⟩, room⟩, next⟩
    by_cases own : c.session = session
    · rw [own, countP_typesOf_of_all all] at next
      refine ⟨⟨session, fun c' mem => ?_⟩, by omega⟩
      rcases mem_append.mp mem with earlier | last
      · exact all c' earlier
      · exact fun _ => mem_singleton.mp last ▸ own
    · rw [countP_typesOf_of_other all own] at next
      -- another session's first counted request: right only if nothing was counted before
      have none : counted calls = 0 := by omega
      have uncounted : ∀ c' ∈ calls, ¬ c'.requestType.Counted := by
        simpa [counted, countP_eq_zero] using none
      refine ⟨⟨c.session, fun c' mem => ?_⟩, by omega⟩
      rcases mem_append.mp mem with earlier | last
      · exact fun isCounted' => absurd isCounted' (uncounted c' earlier)
      · exact fun _ => congrArg CcrCall.session (mem_singleton.mp last)

theorem oneSession_append_initial (initial : ¬ c.requestType.Counted) :
    OneSession (calls ++ [c]) ∧ counted (calls ++ [c]) < 2 ^ 32 ↔
      OneSession calls ∧ counted calls < 2 ^ 32 := by
  rw [counted_append, if_neg initial, Nat.add_zero]
  refine and_congr_left fun _ => exists_congr fun session => ?_
  rw [forall_mem_append, forall_mem_singleton]
  exact and_iff_left fun isCounted => absurd isCounted initial

end

section

theorem CcrState.call_eq (s : CcrState) {c : CcrCall} (index : 0 < c.ebiIndex)
    (found : c.hasPdn = true) (known : c.requestType ≠ .event) :
    ∃ ccr, s.call c =
        { ccRequestNumber :=
            if c.requestType.Counted then s.ccRequestNumber + 1 else s.ccRequestNumber
          filled := s.filled ++ [(c.session, ccr)] } ∧
      ccr.ccRequestNumber = some (if c.requestType.Counted then s.ccRequestNumber + 1 else 0) := by
  have valid : ¬ c.ebiIndex ≤ 0 := not_le.mpr index
  cases kind : c.requestType with
  | event => exact absurd kind known
  | initial | update | termination =>
    simp [call, fillCcrRequest, numberRequest, kind, valid, found, CcRequestType.Counted]

theorem CcrState.numbersOf_append (counter counter' : UInt32) (filled : List (List Char × GxCcr))
    (owner session : List Char) (ccr : GxCcr) :
    numbersOf ⟨counter', filled ++ [(owner, ccr)]⟩ session =
      if owner = session then
        numbersOf ⟨counter, filled⟩ session ++ [ccr.ccRequestNumber.map UInt32.toNat]
      else numbersOf ⟨counter, filled⟩ session := by
  by_cases own : owner = session <;> simp [numbersOf, own]

theorem range_map_some_append {numbers : List (Option Nat)} {number : Option Nat} :
    numbers ++ [number] = (List.range (numbers ++ [number]).length).map some ↔
      numbers = (List.range numbers.length).map some ∧ number = some numbers.length := by
  simp [range_succ]

theorem CcrState.numbered_append (counter counter' : UInt32)
    (filled : List (List Char × GxCcr)) (owner : List Char) (ccr : GxCcr) :
    Numbered ⟨counter', filled ++ [(owner, ccr)]⟩ ↔
      Numbered ⟨counter, filled⟩ ∧
        ccr.ccRequestNumber.map UInt32.toNat =
          some (numbersOf ⟨counter, filled⟩ owner).length := by
  constructor
  · intro numbered
    have ofOwner := numbered owner
    rw [numbersOf_append counter, if_pos rfl, range_map_some_append] at ofOwner
    refine ⟨fun session => ?_, ofOwner.2⟩
    by_cases own : owner = session
    · exact own ▸ ofOwner.1
    · have ofOther := numbered session
      rwa [numbersOf_append counter, if_neg own] at ofOther
  · rintro ⟨numbered, next⟩ session
    rw [numbersOf_append counter]
    by_cases own : owner = session
    · rw [if_pos own, range_map_some_append]
      exact ⟨numbered session, own ▸ next⟩
    · rw [if_neg own]
      exact numbered session

/-- The counter has taken every counted request, whichever session it was for. -/
theorem ccrRun_counter {calls : List CcrCall} (interleaving : Interleaving calls) :
    (run CcrState.call {} calls).ccRequestNumber = UInt32.ofNat (counted calls) ∧
      ∀ session, ((run CcrState.call {} calls).numbersOf session).length =
        (typesOf session calls).length := by
  induction calls using List.reverseRecOn with
  | nil => exact ⟨rfl, fun _ => rfl⟩
  | append_singleton calls c ih =>
    obtain ⟨counter, lengths⟩ := ih interleaving.of_append
    obtain ⟨index, found⟩ := interleaving.accepted c (by simp)
    have issued := interleaving.issued c.session
    rw [typesOf_append, if_pos rfl] at issued
    obtain ⟨ccr, after, -⟩ := (run CcrState.call {} calls).call_eq index found
      issued.append_singleton.2.1
    rw [run_append, run_cons, run_nil, after, counted_append]
    constructor
    · by_cases isCounted : c.requestType.Counted <;> simp [isCounted, counter]
    · intro session
      rw [CcrState.numbersOf_append (run CcrState.call {} calls).ccRequestNumber, typesOf_append]
      split
      · rw [length_append, length_append, length_singleton, length_singleton]
        exact congrArg (· + 1) (lengths session)
      · exact lengths session

end

/-- In every interleaving the requests of every session are numbered in order exactly when only one
session takes numbers from the counter. -/
theorem ccrRun_numbered_iff (calls : List CcrCall) (interleaving : Interleaving calls) :
    (run CcrState.call {} calls).Numbered ↔ OneSession calls ∧ counted calls < 2 ^ 32 := by
  induction calls using List.reverseRecOn with
  | nil => exact ⟨fun _ => ⟨⟨[], by simp⟩, by decide⟩, fun _ _ => rfl⟩
  | append_singleton calls c ih =>
    obtain ⟨counter, lengths⟩ := ccrRun_counter interleaving.of_append
    obtain ⟨index, found⟩ := interleaving.accepted c (by simp)
    have issued := interleaving.issued c.session
    rw [typesOf_append, if_pos rfl] at issued
    obtain ⟨earlier, known, later⟩ := issued.append_singleton
    obtain ⟨ccr, after, number⟩ := (run CcrState.call {} calls).call_eq index found known
    have step := CcrState.numbered_append (run CcrState.call {} calls).ccRequestNumber
      (run CcrState.call {} calls).ccRequestNumber (run CcrState.call {} calls).filled c.session ccr
    rw [run_append, run_cons, run_nil, after]
    by_cases isCounted : c.requestType.Counted
    · have position : (typesOf c.session calls).length =
          (typesOf c.session calls).countP (fun t => t.Counted) + 1 := by
        have some_type := length_pos_iff.mpr (later.mp isCounted)
        rw [earlier.countP_counted]
        omega
      have value : (UInt32.ofNat (counted calls) + 1).toNat = (counted calls + 1) % 2 ^ 32 := by
        simp [UInt32.toNat_add]
      rw [oneSession_append_iff isCounted, ← ih interleaving.of_append]
      refine step.trans (and_congr_right fun _ => ?_)
      rw [number, if_pos isCounted, counter, Option.map_some, value, Option.some_inj,
        ← position, ← lengths]
      exact Iff.rfl
    · have first : typesOf c.session calls = [] := by
        by_contra nonempty
        exact isCounted (later.mpr nonempty)
      rw [oneSession_append_initial isCounted, ← ih interleaving.of_append]
      refine step.trans (and_iff_left ?_)
      rw [number, if_neg isCounted]
      have none : ((run CcrState.call {} calls).numbersOf c.session).length = 0 := by
        rw [lengths, first, length_nil]
      exact congrArg some none.symm

def ccrOf (session : Char) (requestType : CcRequestType) : CcrCall :=
  { session := [session], requestType, hasPdn := true, ebiIndex := 5 }

theorem Interleaving.of_sessions {calls : List CcrCall} (sessions : List (List Char))
    (accepted : ∀ c ∈ calls, 0 < c.ebiIndex ∧ c.hasPdn = true) (known : ∀ c ∈ calls, c.session ∈ sessions)
    (issued : ∀ session ∈ sessions, Issued (typesOf session calls)) : Interleaving calls where
  accepted := accepted
  issued := fun session => by
    by_cases own : session ∈ sessions
    · exact issued session own
    · have none : calls.filter (·.session = session) = [] := by
        rw [filter_eq_nil_iff]
        intro c mem equal
        exact own (of_decide_eq_true equal ▸ known c mem)
      rw [typesOf, none]
      exact ⟨0, nil_prefix⟩

def loneCalls : List CcrCall :=
  [ccrOf 'a' .initial, ccrOf 'b' .initial, ccrOf 'a' .update, ccrOf 'a' .update,
    ccrOf 'a' .termination]

theorem loneCalls_interleaving : Interleaving loneCalls := by
  apply Interleaving.of_sessions [['a'], ['b']] (by decide) (by decide)
  rw [forall_mem_cons, forall_mem_singleton]
  exact ⟨⟨2, by decide⟩, ⟨0, by decide⟩⟩

theorem ccrRun_numbered_loneCalls :
    Interleaving loneCalls ∧ (run CcrState.call {} loneCalls).Numbered :=
  ⟨loneCalls_interleaving, (ccrRun_numbered_iff loneCalls loneCalls_interleaving).mpr
    ⟨⟨['a'], by decide⟩, by decide⟩⟩

/-- Two complete sessions side by side. -/
def crossedCalls : List CcrCall :=
  [ccrOf 'a' .initial, ccrOf 'b' .initial, ccrOf 'a' .update, ccrOf 'b' .termination,
    ccrOf 'a' .termination]

theorem crossedCalls_interleaving : Interleaving crossedCalls := by
  apply Interleaving.of_sessions [['a'], ['b']] (by decide) (by decide)
  rw [forall_mem_cons, forall_mem_singleton]
  exact ⟨⟨1, by decide⟩, ⟨0, by decide⟩⟩

/-- The one session ends with 3 and not 2, the other with 2 and not 1. -/
theorem crossedCalls_not_numbered :
    Interleaving crossedCalls ∧
      (run CcrState.call {} crossedCalls).numbersOf ['a'] = [some 0, some 1, some 3] ∧
      (run CcrState.call {} crossedCalls).numbersOf ['b'] = [some 0, some 2] ∧
      ¬ (run CcrState.call {} crossedCalls).Numbered :=
  ⟨crossedCalls_interleaving, by decide, by decide,
    fun numbered => absurd (numbered ['b']) (by decide)⟩

end Epc.Cp
