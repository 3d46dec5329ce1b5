import Epc.Cp.UeContext

/-! What context creation does to the TEIDs and hashes of the UE contexts, over whole runs. -/

namespace Epc.Cp

open Epc.Lib List Table Heap
open Option hiding map_map mem_map mem_map_of_mem

namespace UeState

def teidAt (s : UeState) (a : Nat) : Option UInt32 :=
  (s.contexts.cells a).map UeContext.s11SgwGtpcTeid

structure SameTeids (s s' : UeState) : Prop where
  counters : s'.counters = s.counters
  byImsi : s'.ueContextByImsiHash = s.ueContextByImsiHash
  byFteid : s'.ueContextByFteidHash = s.ueContextByFteidHash
  next : s'.contexts.next = s.contexts.next
  teidAt : s'.teidAt = s.teidAt

theorem SameTeids.refl (s : UeState) : SameTeids s s := ⟨rfl, rfl, rfl, rfl, rfl⟩

variable {s s' : UeState}

theorem SameTeids.trans {t u : UeState} (first : SameTeids s t) (second : SameTeids t u) :
    SameTeids s u :=
  ⟨second.counters.trans first.counters, second.byImsi.trans first.byImsi,
    second.byFteid.trans first.byFteid, second.next.trans first.next,
    second.teidAt.trans first.teidAt⟩

theorem sameTeids_update (s : UeState) (c : Nat) {f : UeContext → UeContext}
    (keeps : ∀ ctx, (f ctx).s11SgwGtpcTeid = ctx.s11SgwGtpcTeid)
    (pdns : Heap PdnConnection) (bearers : Heap EpsBearer) :
    SameTeids s { s with pdns, bearers, contexts := s.contexts.update c f } := by
  refine ⟨rfl, rfl, rfl, rfl, ?_⟩
  funext a
  by_cases same : a = c
  · subst same
    simp [UeState.teidAt, Function.comp_def, keeps]
  · simp [UeState.teidAt, update_cells_of_ne same]

theorem sameTeids_bearers (s : UeState) (pdns : Heap PdnConnection) (bearers : Heap EpsBearer) :
    SameTeids s { s with pdns, bearers } := ⟨rfl, rfl, rfl, rfl, rfl⟩

variable {c p ebiIndex b : Nat}

theorem dropPdnBearer_sameTeids {i : Nat}
    (h : dropPdnBearer c p ebiIndex b s i = some s') : SameTeids s s' := by
  simp only [dropPdnBearer, bind_eq_bind, bind_eq_some_iff] at h
  obtain ⟨pdn, -, h⟩ := h
  cases held : pdn.epsBearers i with
  | none =>
    simp only [held, some.injEq] at h
    subst h
    exact SameTeids.refl s
  | some other =>
    simp only [held] at h
    split at h
    · cases h
      exact sameTeids_bearers s _ _
    · cases h
      refine sameTeids_update s c ?_ _ _
      exact fun _ => rfl

theorem dropPdnBearers_sameTeids (is : List Nat)
    (h : is.foldlM (dropPdnBearer c p ebiIndex b) s = some s') : SameTeids s s' := by
  induction is generalizing s with
  | nil =>
    obtain rfl : s = s' := by simpa using h
    exact SameTeids.refl s
  | cons i is ih =>
    simp only [foldlM_cons, bind_eq_bind, bind_eq_some_iff] at h
    obtain ⟨t, first, rest⟩ := h
    exact (dropPdnBearer_sameTeids first).trans (ih rest)

theorem attachBearer_sameTeids {pdn : Option Nat} {r : CreateUeRequest}
    (h : s.attachBearer c ebiIndex pdn r = some (s', b, p)) : SameTeids s s' := by
  simp only [attachBearer, bind_eq_bind, bind_eq_some_iff] at h
  obtain ⟨held, -, h⟩ := h
  cases held with
  | some old =>
    cases pdn with
    | some q =>
      simp only [bind_eq_some_iff] at h
      obtain ⟨t, dropped, h⟩ := h
      cases h
      exact dropPdnBearers_sameTeids _ dropped
    | none =>
      simp only [bind_eq_some_iff] at h
      obtain ⟨bearer, -, previous, -, h⟩ := h
      cases h
      refine sameTeids_update s c ?_ _ _
      exact fun _ => rfl
  | none =>
    simp only [bind_eq_some_iff] at h
    obtain ⟨found, -, h⟩ := h
    cases found with
    | none | some q =>
      cases h
      refine sameTeids_update s c ?_ _ _
      exact fun _ => rfl

theorem finishBearer_sameTeids (s : UeState) (b p : Nat) (r : CreateUeRequest) :
    SameTeids s (s.finishBearer b p r) := sameTeids_bearers s _ _

/-- A new context with the TEID that is drawn. -/
structure Drew (s s' : UeState) (imsi : UInt64) (drawn : UInt32 × GtpcCounters) : Prop where
  counters : s'.counters = drawn.2
  byImsi : s'.ueContextByImsiHash = s.ueContextByImsiHash.add imsi s.contexts.next
  byFteid : s'.ueContextByFteidHash = s.ueContextByFteidHash.add drawn.1 s.contexts.next
  next : s'.contexts.next = s.contexts.next + 1
  teidAt : s'.teidAt = fun a => if a = s.contexts.next then some drawn.1 else s.teidAt a

theorem createUeContext_new {r : CreateUeRequest} (absent : s.ueContextByImsiHash r.imsi = none)
    (h : s.createUeContext r = some (s', 0)) :
    Drew s s' r.imsi (getS11SgwGtpcTeid s.counters r.checkIfUeHashExist r.cpType 0) := by
  cases index : getEbiIndex r.ebi.toNat with
  | none =>
    simp [createUeContext, index, gtpv2cCauseSystemFailure] at h
  | some ebiIndex =>
    simp only [createUeContext, index, absent, completeContext, assignTeid, bind_eq_bind,
      bind_eq_some_iff, some.injEq, Prod.mk.injEq, and_true, newContext, alloc_cells_next] at h
    obtain ⟨done, ⟨assigned, ⟨ctx, rfl, rfl⟩, ⟨t, b, p⟩, attached, rfl⟩, rfl⟩ := h
    have frame := (attachBearer_sameTeids attached).trans (finishBearer_sameTeids t b p r)
    refine ⟨frame.counters, frame.byImsi, frame.byFteid, frame.next, ?_⟩
    rw [frame.teidAt]
    funext a
    by_cases same : a = s.contexts.next
    · subst same
      simp [UeState.teidAt]
    · simp [UeState.teidAt, same, update_cells_of_ne same, alloc_cells_of_ne same]

end UeState

/-- The draw of a new TEID: the `i`-th from the S11 counter or the `k`-th from the S5/S8 PGW
counter. -/
inductive TeidDraw where
  | sgw (i : Nat)
  | pgw (k : Nat)
  deriving DecidableEq, Repr

def TeidDraw.teid : TeidDraw → UInt32
  | .sgw i => s11SgwGtpcBaseTeid + UInt32.ofNat i
  | .pgw k => s5s8PgwGtpcBaseTeid + UInt32.ofNat k

def draws : Nat → Nat → List UeEvent → List TeidDraw
  | _, _, [] => []
  | i, k, .create r :: events =>
    match r.cpType with
    | .sgwc | .saegwc => .sgw i :: draws (i + 1) k events
    | .pgwc => .pgw k :: draws i (k + 1) events
  | i, k, .s5s8Sgw :: events => draws i k events
  | i, k, .s5s8Pgw :: events => draws i (k + 1) events

/-- Draws of different TEIDs: the S11 range starts `2 ^ 20` below the PGW range. -/
def TeidDraw.Apart : TeidDraw → TeidDraw → Prop
  | .sgw _, .sgw _ => True
  | .pgw k, .pgw l => k % 2 ^ 32 ≠ l % 2 ^ 32
  | .sgw i, .pgw k | .pgw k, .sgw i => i % 2 ^ 32 ≠ (k + 2 ^ 20) % 2 ^ 32

open TeidDraw

def imsis : List UeEvent → List UInt64
  | [] => []
  | .create r :: events => r.imsi :: imsis events
  | _ :: events => imsis events

structure Entered (s : UeState) (created : List UInt64) (teids : List UInt32) : Prop where
  next : s.contexts.next = teids.length
  teidAt : ∀ a, s.teidAt a = teids[a]?
  byImsi : ∀ imsi a, s.ueContextByImsiHash imsi = some a → imsi ∈ created
  byFteid : ∀ t a, s.ueContextByFteidHash t = some a → teids[a]? = some t
  entered : ∀ t ∈ teids, (s.ueContextByFteidHash t).isSome

structure Counted (s : UeState) (i k : Nat) : Prop where
  s11 : s.counters.s11SgwGtpcTeidOffset = UInt32.ofNat i
  pgw : s.counters.s5s8PgwGtpcTeidOffset = UInt32.ofNat k

theorem entered_initial : Entered {} [] [] := by
  refine ⟨rfl, fun a => rfl, ?_, ?_, ?_⟩ <;> simp [Table.empty]

variable {s s' : UeState}

theorem step_create_new {r : CreateUeRequest}
    (absent : s.ueContextByImsiHash r.imsi = none) (h : s.step (.create r) = some s') :
    s.Drew s' r.imsi (getS11SgwGtpcTeid s.counters 0 r.cpType 0) := by
  simp only [UeState.step, bind_eq_bind, bind_eq_some_iff] at h
  obtain ⟨⟨t, ret⟩, created, h⟩ := h
  simp only [ite_none_right_eq_some, some.injEq] at h
  obtain ⟨rfl, rfl⟩ := h
  exact UeState.createUeContext_new (r := { r with checkIfUeHashExist := 0 }) absent created

variable {created : List UInt64} {teids : List UInt32}

section

variable (entered : Entered s created teids)

include entered

theorem Entered.absent {imsi : UInt64} (new : imsi ∉ created) : s.ueContextByImsiHash imsi = none := by
  cases found : s.ueContextByImsiHash imsi with
  | none => rfl
  | some a => exact absurd (entered.byImsi imsi a found) new

theorem Entered.create {r : CreateUeRequest} (new : r.imsi ∉ created)
    (h : s.step (.create r) = some s') :
    s'.counters = (getS11SgwGtpcTeid s.counters 0 r.cpType 0).2 ∧
      Entered s' (created ++ [r.imsi])
        (teids ++ [(getS11SgwGtpcTeid s.counters 0 r.cpType 0).1]) := by
  obtain ⟨counters, byImsi, byFteid, next, teidAt⟩ := step_create_new (entered.absent new) h
  refine ⟨counters, ?_, ?_, ?_, ?_, ?_⟩
  · simp [next, entered.next]
  · intro a
    rw [teidAt]
    by_cases same : a = s.contexts.next
    · simp [same, entered.next]
    · by_cases old : a < teids.length
      · simp [same, entered.teidAt, getElem?_append_left old]
      · have past : teids.length < a := by
          have := entered.next
          omega
        rw [getElem?_eq_none (by simpa using past)]
        simp [same, entered.teidAt, past.le]
  · intro imsi a found
    rw [byImsi] at found
    by_cases same : imsi = r.imsi
    · simp [same]
    · rw [add_of_ne same] at found
      exact mem_append_left _ (entered.byImsi imsi a found)
  · intro t a found
    rw [byFteid] at found
    rcases add_eq_some found with ⟨rfl, rfl⟩ | ⟨-, found⟩
    · simp [entered.next]
    · have old := entered.byFteid t a found
      rw [getElem?_append_left (List.getElem?_eq_some_iff.mp old).1]
      exact old
  · intro t mem
    rw [byFteid]
    by_cases same : t = (getS11SgwGtpcTeid s.counters 0 r.cpType 0).1
    · simp [same]
    · rw [add_of_ne same]
      exact entered.entered t (by simpa [same] using mem)

theorem Entered.counters (counters : GtpcCounters) : Entered { s with counters } created teids :=
  ⟨entered.next, entered.teidAt, entered.byImsi, entered.byFteid, entered.entered⟩

end

variable {events : List UeEvent}

theorem Entered.execute {i k : Nat} (entered : Entered s created teids) (counted : Counted s i k)
    (ne : (created ++ imsis events).Nodup) (h : s.execute events = some s') :
    Entered s' (created ++ imsis events) (teids ++ (draws i k events).map teid) := by
  induction events generalizing s created teids i k with
  | nil =>
    obtain rfl : s = s' := by simpa [UeState.execute] using h
    simpa [imsis, draws] using entered
  | cons event events ih =>
    simp only [UeState.execute, foldlM_cons, bind_eq_bind, bind_eq_some_iff] at h
    obtain ⟨t, first, rest⟩ := h
    cases event with
    | create r =>
      have new : r.imsi ∉ created := by
        intro old
        exact disjoint_of_nodup_append ne old mem_cons_self
      obtain ⟨counters, entered'⟩ := entered.create new first
      have ne' : ((created ++ [r.imsi]) ++ imsis events).Nodup := by
        simpa [imsis] using ne
      cases type : r.cpType with
      | pgwc =>
        have counted' : Counted t i (k + 1) := by
          constructor <;> simp [counters, type, getS11SgwGtpcTeid, getS5s8PgwGtpcTeid,
            counted.s11, counted.pgw]
        simpa [imsis, draws, type, teid, getS11SgwGtpcTeid, getS5s8PgwGtpcTeid,
          counted.pgw] using ih entered' counted' ne' rest
      | sgwc | saegwc =>
        have counted' : Counted t (i + 1) k := by
          constructor <;> simp [counters, type, getS11SgwGtpcTeid, counted.s11, counted.pgw]
        simpa [imsis, draws, type, teid, getS11SgwGtpcTeid, counted.s11]
          using ih entered' counted' ne' rest
    | s5s8Sgw =>
      cases first
      exact ih (entered.counters (getS5s8SgwGtpcTeid s.counters).2)
        ⟨counted.s11, counted.pgw⟩ ne rest
    | s5s8Pgw =>
      cases first
      refine ih (entered.counters (getS5s8PgwGtpcTeid s.counters).2)
        ⟨counted.s11, ?_⟩ ne rest
      simp [getS5s8PgwGtpcTeid, counted.pgw]

/-- Contexts have different TEIDs, and each is entered under its own. -/
structure UniqueTeids (s : UeState) : Prop where
  distinct : ∀ a b t, s.teidAt a = some t → s.teidAt b = some t → a = b
  entered : ∀ a t, s.teidAt a = some t → s.ueContextByFteidHash t = some a

theorem Entered.uniqueTeids_iff (entered : Entered s created teids) : UniqueTeids s ↔ teids.Nodup := by
  constructor
  · intro unique
    rw [nodup_iff_injective_get]
    intro a b same
    apply Fin.ext
    apply unique.distinct a b (teids.get a)
    · simp [entered.teidAt]
    · rw [same]
      simp [entered.teidAt]
  · intro nodup
    have distinct : ∀ a b t, s.teidAt a = some t → s.teidAt b = some t → a = b := by
      intro a b t atA atB
      rw [entered.teidAt] at atA atB
      obtain ⟨boundA, -⟩ := List.getElem?_eq_some_iff.mp atA
      exact (getElem?_inj boundA nodup).mp (atA.trans atB.symm)
    refine ⟨distinct, fun a t atA => ?_⟩
    have mem : t ∈ teids := mem_of_getElem? ((entered.teidAt a).symm.trans atA)
    obtain ⟨b, found⟩ := isSome_iff_exists.mp (entered.entered t mem)
    have atB : s.teidAt b = some t := (entered.teidAt b).trans (entered.byFteid t b found)
    rw [distinct a b t atA atB]
    exact found

theorem TeidDraw.teid_ne_iff (a b : TeidDraw)
    (sgw : ∀ i j, a = .sgw i → b = .sgw j → i < j ∧ j < 2 ^ 32) : a.teid ≠ b.teid ↔ a.Apart b := by
  cases a with
  | sgw i =>
    cases b with
    | sgw j =>
      obtain ⟨before, bound⟩ := sgw i j rfl rfl
      simp only [Apart, iff_true, teid, ne_eq, ← UInt32.toNat_inj, UInt32.toNat_add,
        UInt32.toNat_ofNat', s11SgwGtpcBaseTeid, UInt32.toNat_ofNat]
      omega
    | pgw k =>
      simp only [Apart, teid, ne_eq, ← UInt32.toNat_inj, UInt32.toNat_add,
        UInt32.toNat_ofNat', s11SgwGtpcBaseTeid, s5s8PgwGtpcBaseTeid, UInt32.toNat_ofNat]
      omega
  | pgw k =>
    cases b with
    | sgw i =>
      simp only [Apart, teid, ne_eq, ← UInt32.toNat_inj, UInt32.toNat_add,
        UInt32.toNat_ofNat', s11SgwGtpcBaseTeid, s5s8PgwGtpcBaseTeid, UInt32.toNat_ofNat]
      omega
    | pgw l =>
      simp only [Apart, teid, ne_eq, ← UInt32.toNat_inj, UInt32.toNat_add,
        UInt32.toNat_ofNat', s5s8PgwGtpcBaseTeid, UInt32.toNat_ofNat]
      omega

theorem sgw_mem_draws {i k j : Nat}
    (mem : sgw j ∈ draws i k events) : i ≤ j ∧ j < i + (imsis events).length := by
  induction events generalizing i k with
  | nil => simp [draws] at mem
  | cons event events ih =>
    cases event with
    | create r =>
      cases type : r.cpType with
      | pgwc =>
        have later := ih (by simpa [draws, type] using mem)
        simp only [imsis, length_cons]
        omega
      | sgwc | saegwc =>
        simp only [draws, type, mem_cons, sgw.injEq] at mem
        simp only [imsis, length_cons]
        rcases mem with rfl | mem
        · omega
        · have later := ih mem
          omega
    | s5s8Sgw => exact ih mem
    | s5s8Pgw => exact ih mem

theorem draws_sgw_increasing (i k : Nat) (events : List UeEvent) :
    (draws i k events).Pairwise fun a b => ∀ x y, a = .sgw x → b = .sgw y → x < y := by
  induction events generalizing i k with
  | nil => exact List.Pairwise.nil
  | cons event events ih =>
    cases event with
    | create r =>
      cases type : r.cpType with
      | pgwc =>
        simp only [draws, type, pairwise_cons]
        exact ⟨fun _ _ _ _ impossible => (nomatch impossible), ih i (k + 1)⟩
      | sgwc | saegwc =>
        simp only [draws, type, pairwise_cons]
        refine ⟨?_, ih (i + 1) k⟩
        rintro b mem x y ⟨⟩ rfl
        exact (sgw_mem_draws mem).1
    | s5s8Sgw => exact ih i k
    | s5s8Pgw => exact ih i (k + 1)

theorem teids_nodup_iff (few : (imsis events).length < 2 ^ 32) :
    ((draws 0 0 events).map teid).Nodup ↔
      (draws 0 0 events).Pairwise TeidDraw.Apart := by
  have increasing := draws_sgw_increasing 0 0 events
  rw [List.Nodup, pairwise_map]
  have agree : ∀ a ∈ draws 0 0 events, ∀ b ∈ draws 0 0 events,
      (∀ x y, a = .sgw x → b = .sgw y → x < y) → (a.teid ≠ b.teid ↔ a.Apart b) := by
    intro a _ b memberB before
    apply teid_ne_iff
    rintro x y rfl rfl
    have := sgw_mem_draws memberB
    exact ⟨before x y rfl rfl, by omega⟩
  constructor
  · intro nodup
    exact (nodup.and increasing).imp_of_mem
      fun memberA memberB both => (agree _ memberA _ memberB both.2).mp both.1
  · intro apart
    exact (apart.and increasing).imp_of_mem
      fun memberA memberB both => (agree _ memberA _ memberB both.2).mpr both.1

/-- Over any run of fewer than `2 ^ 32` creations for different IMSIs, contexts have different TEIDs
and are found under them exactly when no two counter values drawn give the same TEID. -/
theorem uniqueTeids_execute_iff (events : List UeEvent) (s : UeState)
    (run : UeState.execute {} events = some s) (different : (imsis events).Nodup)
    (few : (imsis events).length < 2 ^ 32) :
    UniqueTeids s ↔ (draws 0 0 events).Pairwise TeidDraw.Apart := by
  have entered := entered_initial.execute ⟨rfl, rfl⟩ (by simpa using different) run
  rw [entered.uniqueTeids_iff, nil_append, teids_nodup_iff few]

instance : DecidableRel TeidDraw.Apart := fun a b => by
  cases a <;> cases b <;> unfold TeidDraw.Apart <;> infer_instance

def attachRequest (cpType : CpType) (n : Nat) : CreateUeRequest where
  imsi := UInt64.ofNat n
  imsiLen := 8
  ebi := 5
  apnRequested := { apnNameLabel := [3, 97, 112, 110], apnNameLength := 4 }
  sequence := 1
  checkIfUeHashExist := 0
  cpType := cpType

def mixedRun : List UeEvent :=
  [.create (attachRequest .sgwc 1), .s5s8Sgw, .create (attachRequest .pgwc 2), .s5s8Pgw,
    .create (attachRequest .saegwc 3)]

theorem uniqueTeids_execute_mixedRun : UniqueTeids ((UeState.execute {} mixedRun).get rfl) :=
  (uniqueTeids_execute_iff mixedRun _ (some_get _).symm (by decide) (by decide)).mpr
    (by decide)

namespace UeState

theorem getPdnFrom_empty (s : UeState) (ctx : UeContext) (apn : Apn) (is : List Nat)
    (unused : ctx.slots = Table.empty) : s.getPdnFrom ctx apn is = some none := by
  induction is with
  | nil => rfl
  | cons i is ih =>
    have first : ctx.pdn i = some none := by
      simp [UeContext.pdn, unused]
    simpa [getPdnFrom, first] using ih

theorem exists_createUeContext_new {s : UeState} {r : CreateUeRequest}
    (absent : s.ueContextByImsiHash r.imsi = none) (accepted : (getEbiIndex r.ebi.toNat).isSome) :
    ∃ s', s.createUeContext r = some (s', 0) := by
  obtain ⟨ebiIndex, index⟩ := isSome_iff_exists.mp accepted
  simp [createUeContext, index, absent, completeContext, assignTeid, newContext, attachBearer,
    epsBearer, UeContext.epsBearer, getPdn, getPdnFrom_empty]

end UeState

theorem exists_execute (entered : Entered s created teids) (ne : (created ++ imsis events).Nodup)
    (accepted : ∀ r, .create r ∈ events → (getEbiIndex r.ebi.toNat).isSome) :
    ∃ s', s.execute events = some s' := by
  induction events generalizing s created teids with
  | nil => exact ⟨s, rfl⟩
  | cons event events ih =>
    have later : ∀ r, .create r ∈ events → (getEbiIndex r.ebi.toNat).isSome :=
      fun r mem => accepted r (mem_cons_of_mem _ mem)
    simp only [UeState.execute, foldlM_cons, bind_eq_bind, bind_eq_some_iff]
    rw [exists_comm]
    cases event with
    | create r =>
      have new : r.imsi ∉ created := by
        intro old
        exact disjoint_of_nodup_append ne old mem_cons_self
      have absent : s.ueContextByImsiHash r.imsi = none := entered.absent new
      obtain ⟨t, success⟩ := UeState.exists_createUeContext_new
        (r := { r with checkIfUeHashExist := 0 }) absent (accepted r mem_cons_self)
      have first : s.step (.create r) = some t := by
        simp [UeState.step, success]
      obtain ⟨s', rest⟩ := ih (entered.create new first).2
        (by simpa [imsis] using ne) later
      exact ⟨t, s', first, rest⟩
    | s5s8Sgw =>
      obtain ⟨s', rest⟩ := ih (entered.counters (getS5s8SgwGtpcTeid s.counters).2)
        ne later
      exact ⟨_, s', rfl, rest⟩
    | s5s8Pgw =>
      obtain ⟨s', rest⟩ := ih (entered.counters (getS5s8PgwGtpcTeid s.counters).2)
        ne later
      exact ⟨_, s', rfl, rest⟩

def meetingRun (n : Nat) : List UeEvent :=
  (List.range n).map (fun m => .create (attachRequest .sgwc m)) ++
    [.create (attachRequest .pgwc n)]

theorem imsis_append (es fs : List UeEvent) : imsis (es ++ fs) = imsis es ++ imsis fs := by
  induction es with
  | nil => rfl
  | cons e es ih => cases e <;> simp [imsis, ih]

theorem imsis_map_create (rs : List CreateUeRequest) :
    imsis (rs.map .create) = rs.map CreateUeRequest.imsi := by
  induction rs with
  | nil => rfl
  | cons r rs ih => simp [imsis, ih]

theorem draws_map_sgwc (ms : List Nat) (i k : Nat) (rest : List UeEvent) :
    draws i k (ms.map (fun m => .create (attachRequest .sgwc m)) ++ rest) =
      (List.range' i ms.length).map .sgw ++ draws (i + ms.length) k rest := by
  induction ms generalizing i with
  | nil => simp
  | cons m ms ih =>
    simp only [map_cons, cons_append, draws, attachRequest, length_cons, range'_succ]
    rw [← Nat.add_assoc, Nat.add_right_comm]
    exact congrArg (sgw i :: ·) (ih (i + 1))

theorem imsis_meetingRun (n : Nat) : imsis (meetingRun n) = (List.range (n + 1)).map UInt64.ofNat := by
  have first : (List.range n).map (fun m => UeEvent.create (attachRequest .sgwc m)) =
      ((List.range n).map (attachRequest .sgwc)).map .create := by simp
  rw [meetingRun, imsis_append, first, imsis_map_create, range_succ, map_append, map_map]
  rfl

theorem imsis_meetingRun_nodup {n : Nat} (bound : n < 2 ^ 64) : (imsis (meetingRun n)).Nodup := by
  rw [imsis_meetingRun]
  apply List.Nodup.map_on _ nodup_range
  intro x memberX y memberY same
  rw [mem_range] at memberX memberY
  have := congrArg UInt64.toNat same
  simp only [UInt64.toNat_ofNat'] at this
  omega

theorem exists_execute_meetingRun {n : Nat} (bound : n < 2 ^ 64) :
    ∃ s, UeState.execute {} (meetingRun n) = some s := by
  apply exists_execute entered_initial
  · simpa using imsis_meetingRun_nodup bound
  · intro r mem
    simp only [meetingRun, mem_append, mem_map, mem_singleton, UeEvent.create.injEq] at mem
    obtain ⟨_, _, rfl⟩ | rfl := mem <;> rfl

theorem not_uniqueTeids_of_meetingRun {n : Nat} (meets : 2 ^ 20 < n) (bound : n < 2 ^ 64)
    (run : UeState.execute {} (meetingRun n) = some s) : ¬ UniqueTeids s := by
  have entered := entered_initial.execute ⟨rfl, rfl⟩
    (by simpa using imsis_meetingRun_nodup bound) run
  rw [entered.uniqueTeids_iff, nil_append, meetingRun, draws_map_sgwc]
  simp only [length_range, map_append, map_map]
  intro nodup
  have sgw : teid (.sgw (2 ^ 20)) ∈
      (List.range' 0 n).map (teid ∘ TeidDraw.sgw) :=
    mem_map_of_mem (f := teid ∘ TeidDraw.sgw) (by simpa using meets)
  have pgw : teid (.sgw (2 ^ 20)) = teid (.pgw 0) := rfl
  rw [pgw] at sgw
  exact disjoint_of_nodup_append nodup sgw (by simp [draws, attachRequest])

/-- After `2 ^ 20` SGW contexts the next S11 TEID is the first PGW one, whose hash entry it takes.
-/
theorem not_uniqueTeids_meetingRun :
    ∃ s, UeState.execute {} (meetingRun (2 ^ 20 + 1)) = some s ∧
      (imsis (meetingRun (2 ^ 20 + 1))).Nodup ∧
      (imsis (meetingRun (2 ^ 20 + 1))).length < 2 ^ 32 ∧ ¬ UniqueTeids s := by
  obtain ⟨s, run⟩ := exists_execute_meetingRun (n := 2 ^ 20 + 1) (by decide)
  refine ⟨s, run, imsis_meetingRun_nodup (by decide), ?_,
    not_uniqueTeids_of_meetingRun (by decide) (by decide) run⟩
  rw [imsis_meetingRun, length_map, length_range]
  decide

end Epc.Cp
