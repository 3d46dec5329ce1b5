import Epc.Cp.Proof.UeAttach

/-! The contexts over runs of creations and deletions. -/

namespace Epc.Cp

open Epc.Lib Epc.Lib.Run Option Table Heap UeStore UeState

section

variable {s : UeStore} {r : CreateUeRequest} {c : Nat}

theorem getEbiIndex_of_le {ebi : Nat} (low : 1 ≤ ebi) (high : ebi ≤ 15) :
    getEbiIndex ebi = some (ebi - 1) := by
  rw [getEbiIndex, if_pos ⟨low, by rw [maxBearers]; omega⟩]

theorem UeStore.create_of_completed {done : Option UeState} {ebiIndex : Nat}
    (index : getEbiIndex r.ebi.toNat = some ebiIndex) (completed : Completed s r c ebiIndex done)
    (created : s.ue.createUeContext r = done.map fun ue => (ue, 0)) :
    ∃ s', s.create r = some s' ∧ Booked s' := by
  obtain ⟨ue, p, rfl, entry, pdn, kept⟩ := completed
  refine ⟨_, ?_, kept⟩
  simp only [create, created, map_some, bind_eq_bind, bind_some, if_true, entry, index, pdn]

theorem Booked.pdnOf_of_slot (kept : Booked s) {ctx : UeContext} {ebiIndex : Nat} {pointer : Ptr}
    (live : s.ue.contexts.cells c = some ctx) (held : ctx.slots (maxBearers + ebiIndex) = some pointer) :
    ∃ p b bearer, s.ue.epsBearer c ebiIndex = some (some b) ∧ s.ue.bearers.cells b = some bearer ∧
      bearer.pdn = some p ∧ ctx.slots (maxBearers + ebiIndex) = some (.bearer b) ∧
      Bears s c p ebiIndex b ∧ pdnOf s.ue c ebiIndex = some p := by
  obtain ⟨p, b, rfl, bears⟩ := (kept.contexts c ctx live).bearers ebiIndex pointer held
  obtain ⟨bearer, liveBearer, owner⟩ := bind_eq_some_iff.mp bears.pdn
  have holds : s.ue.epsBearer c ebiIndex = some (some b) := by
    simp only [epsBearer, UeContext.epsBearer, live, held, bind_eq_bind, bind_some]
  refine ⟨p, b, bearer, holds, liveBearer, owner, held, bears, ?_⟩
  simp only [pdnOf, holds, liveBearer, owner, bind_eq_bind, bind_some]

theorem Booked.create (kept : Booked s) (low : 1 ≤ r.ebi.toNat) (high : r.ebi.toNat ≤ 15)
    (fits : CreateFits s.ue r (r.ebi.toNat - 1)) : ∃ s', s.create r = some s' ∧ Booked s' := by
  have index := getEbiIndex_of_le low high
  have bound : r.ebi.toNat - 1 ≤ maxBearers := by rw [maxBearers]; omega
  generalize r.ebi.toNat - 1 = ebiIndex at index bound fits
  cases found : s.ue.ueContextByImsiHash r.imsi with
  | none =>
    -- a new context, whose slots are all free
    rw [CreateFits, found] at fits
    have live : (s.ue.newContext r).contexts.cells s.ue.contexts.next =
        some { imsi := r.imsi, imsiLen := r.imsiLen.toUInt8 } := alloc_cells_next _ _
    have unused : (s.ue.newContext r).getPdn s.ue.contexts.next r.apnRequested = some none := by
      simp only [UeState.getPdn, live, bind_eq_bind, bind_some]
      exact getPdnFrom_empty _ _ _ _ rfl
    have completed : Completed { s with ue := s.ue.newContext r } r s.ue.contexts.next ebiIndex
        ((s.ue.newContext r).completeContext s.ue.contexts.next ebiIndex none r.checkIfUeHashExist r) :=
      (kept.newContext found).complete_free live (add_self ..) rfl bound
        (iff_of_true unused fits) r.checkIfUeHashExist
    refine create_of_completed index completed ?_
    simp only [createUeContext, index, found, bind_eq_bind]
    cases completeContext (s.ue.newContext r) s.ue.contexts.next ebiIndex none
      r.checkIfUeHashExist r <;> rfl
  | some c =>
    obtain ⟨ctx, live, -⟩ := kept.entry r.imsi c found
    cases held : ctx.slots (maxBearers + ebiIndex) with
    | none =>
      have holds := epsBearer_of_slot live held
      have noPdn : UeStore.pdnOf s.ue c ebiIndex = none := by
        simp only [UeStore.pdnOf, holds, bind_eq_bind, bind_some, bind_none]
      rw [CreateFits, found] at fits
      simp only [noPdn] at fits
      refine create_of_completed index (kept.complete_free live found held bound fits 1) ?_
      simp only [createUeContext, index, found, holds, bind_eq_bind, bind_some]
      cases s.ue.completeContext c ebiIndex none 1 r <;> rfl
    | some pointer =>
      obtain ⟨p, b, bearer, holds, liveBearer, owner, slot, bears, pdnOf⟩ :=
        kept.pdnOf_of_slot live held
      obtain ⟨pdn, livePdn, -⟩ := bears.listed
      rw [CreateFits, found] at fits
      simp only [pdnOf] at fits
      by_cases again : pdn.csrSequence = r.sequence
      · -- received again: nothing changes
        refine ⟨s, ?_, kept⟩
        simp only [UeStore.create, createUeContext, index, found, holds, liveBearer, owner,
          livePdn, bind_eq_bind, bind_some, if_pos again, gtpcReTransmittedReq]
        rfl
      · have alone := (fits pdn livePdn).resolve_left again
        refine create_of_completed index
          (kept.complete_again live found slot bears livePdn alone 1) ?_
        simp only [createUeContext, index, found, holds, liveBearer, owner, livePdn,
          bind_eq_bind, bind_some, if_neg again]
        cases s.ue.completeContext c ebiIndex (some p) 1 r <;> rfl

end

section

variable {s s' : UeStore} {c p : Nat} {ctx : UeContext} {pdn : PdnConnection}

structure Trimmed (s s' : UeStore) (c p : Nat) (ctx : UeContext) (old : PdnConnection) : Prop where
  contextOf : s'.contextOf = s.contextOf
  byImsi : s'.ue.ueContextByImsiHash = s.ue.ueContextByImsiHash
  context : ∃ ctx', s'.ue.contexts.cells c = some ctx' ∧ ctx'.imsi = ctx.imsi ∧ ctx'.numPdns = ctx.numPdns
  contexts : ∀ c₂, c₂ ≠ c → s'.ue.contexts.cells c₂ = s.ue.contexts.cells c₂
  pdn : ∃ pdn', s'.ue.pdns.cells p = some pdn' ∧ pdn'.apnInUse = old.apnInUse ∧
    ∀ i b, pdn'.epsBearers i = some b → old.epsBearers i = some b
  pdns : ∀ p₂, p₂ ≠ p → s'.ue.pdns.cells p₂ = s.ue.pdns.cells p₂
  bearers : ∀ b, (∀ i, old.epsBearers i ≠ some b) → s'.ue.bearers.cells b = s.ue.bearers.cells b

theorem Trimmed.refl (live : s.ue.contexts.cells c = some ctx) (livePdn : s.ue.pdns.cells p = some pdn) :
    Trimmed s s c p ctx pdn :=
  ⟨rfl, rfl, ⟨ctx, live, rfl, rfl⟩, fun _ _ => rfl, ⟨pdn, livePdn, rfl, fun _ _ same => same⟩,
    fun _ _ => rfl, fun _ _ => rfl⟩

theorem Trimmed.deleteBearer (trimmed : Trimmed s s' c p ctx pdn) (home : s.contextOf p = some c)
    (rulesDeleted : Bool) (ebiIndex : Nat) :
    ∃ t, s'.deleteBearerContext rulesDeleted p ebiIndex = some t ∧ Trimmed s t c p ctx pdn := by
  obtain ⟨ctx', live, imsi, numPdns⟩ := trimmed.context
  obtain ⟨pdn', livePdn, apn, fewer⟩ := trimmed.pdn
  have home' : s'.contextOf p = some c := by rw [trimmed.contextOf, home]
  cases listed : pdn'.epsBearers ebiIndex with
  | none =>
    refine ⟨s', ?_, trimmed⟩
    simp only [deleteBearerContext, livePdn, listed, bind_eq_bind, bind_some]
  | some b =>
    cases rulesDeleted with
    | false =>
      refine ⟨s', ?_, trimmed⟩
      simp only [deleteBearerContext, livePdn, listed, bind_eq_bind, bind_some,
        Bool.false_eq_true, if_false]
    | true =>
      simp only [deleteBearerContext, livePdn, listed, home', live, bind_eq_bind,
        bind_some, if_true]
      refine ⟨_, rfl, ?_⟩
      constructor
      case contextOf => exact trimmed.contextOf
      case byImsi => exact trimmed.byImsi
      case context =>
        refine ⟨{ ctx'.clearEpsBearer ebiIndex with
          bearerBitmap := ctx'.bearerBitmap &&& ~~~bearerBit ebiIndex }, ?_, imsi, numPdns⟩
        exact (update_cells_self ..).trans (by rw [live]; rfl)
      case contexts =>
        exact fun c₂ other => (update_cells_of_ne other).trans (trimmed.contexts c₂ other)
      case pdn =>
        refine ⟨{ pdn' with epsBearers := pdn'.epsBearers.del ebiIndex }, ?_, apn,
          fun i b₂ left => ?_⟩
        · exact (update_cells_self ..).trans (by rw [livePdn]; rfl)
        · by_cases here : i = ebiIndex
          · rw [here] at left
            exact absurd left (by simp)
          · exact fewer i b₂ ((del_of_ne here).symm.trans left)
      case pdns =>
        exact fun p₂ other => (update_cells_of_ne other).trans (trimmed.pdns p₂ other)
      case bearers =>
        intro b₂ foreign
        have other : b₂ ≠ b := by
          rintro rfl
          exact foreign ebiIndex (fewer ebiIndex b₂ listed)
        exact (free_cells_of_ne other).trans (trimmed.bearers b₂ foreign)

theorem Trimmed.deleteBearers (trimmed : Trimmed s s' c p ctx pdn) (home : s.contextOf p = some c)
    (rulesDeleted : Nat → Bool) (is : List Nat) :
    ∃ t, is.foldlM (fun s i => deleteBearerContext (rulesDeleted i) p i s) s' = some t ∧
      Trimmed s t c p ctx pdn := by
  induction is generalizing s' with
  | nil => exact ⟨s', rfl, trimmed⟩
  | cons i is ih =>
    obtain ⟨t, first, next⟩ := trimmed.deleteBearer home (rulesDeleted i) i
    obtain ⟨u, rest, last⟩ := ih next
    refine ⟨u, ?_, last⟩
    rw [List.foldlM_cons, first]
    exact rest

theorem Booked.foreign (kept : Booked s) (livePdn : s.ue.pdns.cells p = some pdn)
    (home : s.contextOf p = some c) {c₂ p₂ i b : Nat} (bears : Bears s c₂ p₂ i b) (other : c₂ ≠ c)
    (i' : Nat) : pdn.epsBearers i' ≠ some b := by
  intro listed
  obtain ⟨c₃, ctx₃, home₃, live₃, -, all⟩ := (kept.pdns p pdn livePdn).home
  obtain rfl : c₃ = c := some.inj (home₃.symm.trans home)
  obtain ⟨p₃, b₃, same, bears₃⟩ := (kept.contexts c₃ ctx₃ live₃).bearers i' _ (all i' b listed)
  rw [Ptr.bearer.injEq] at same
  subst same
  have samePdn : p₂ = p₃ := some.inj (bears.pdn.symm.trans bears₃.pdn)
  subst samePdn
  exact other (some.inj (bears.context.symm.trans bears₃.context))

section

variable (kept : Booked s) (live : s.ue.contexts.cells c = some ctx)
  (livePdn : s.ue.pdns.cells p = some pdn) (home : s.contextOf p = some c) (last : ctx.numPdns = 1)

include kept live livePdn home last

theorem Booked.release
    (trimmed : Trimmed s s' c p ctx pdn) {ctx' : UeContext} (imsi : ctx'.imsi = ctx.imsi)
    (numPdns : ctx'.numPdns = ctx.numPdns) : Booked (releasePdn c p ctx' s') := by
  have one : filled maxBearers ctx.slots = 1 := by
    rw [← (kept.contexts c ctx live).numPdns, last]
    rfl
  have only : ∀ {p₂ pdn₂}, s.ue.pdns.cells p₂ = some pdn₂ → s.contextOf p₂ = some c → p₂ = p := by
    intro p₂ pdn₂ live₂ home₂
    obtain ⟨⟨j, inside, held⟩, -⟩ := (kept.pdns p pdn livePdn).home_of home live
    obtain ⟨⟨k, inside', held'⟩, -⟩ := (kept.pdns p₂ pdn₂ live₂).home_of home₂ live
    have same := eq_of_filled_one one inside inside' (by rw [held]; rfl) (by rw [held']; rfl)
    rw [same, held', some.injEq, Ptr.pdn.injEq] at held
    exact held
  have zero : ctx'.numPdns - 1 = 0 := by rw [numPdns, last]; rfl
  rw [releasePdn, if_pos zero]
  refine ⟨fun imsi₂ c₂ found => ?_, fun c₂ ctx₂ live₂ => ?_, fun p₂ pdn₂ live₂ => ?_⟩
  · dsimp only at found ⊢
    rw [imsi, trimmed.byImsi] at found
    have otherImsi : imsi₂ ≠ ctx.imsi := by
      rintro rfl
      rw [del_self] at found
      cases found
    rw [del_of_ne otherImsi] at found
    obtain ⟨ctx₂, live₂, same⟩ := kept.entry imsi₂ c₂ found
    have other : c₂ ≠ c := by
      rintro rfl
      rw [live, some.injEq] at live₂
      exact otherImsi (same.symm.trans (by rw [live₂]))
    exact ⟨ctx₂, by rw [free_cells_of_ne other, trimmed.contexts c₂ other, live₂], same⟩
  · dsimp only at live₂
    have other : c₂ ≠ c := by
      rintro rfl
      rw [free_cells_self] at live₂
      cases live₂
    rw [free_cells_of_ne other, trimmed.contexts c₂ other] at live₂
    have context := kept.contexts c₂ ctx₂ live₂
    have otherImsi : ctx₂.imsi ≠ ctx.imsi := by
      intro same
      have here := context.imsi
      rw [same, (kept.contexts c ctx live).imsi, some.injEq] at here
      exact other here.symm
    refine context.transfer rfl ?_ fun p₂ i b bears => ?_
    · dsimp only
      rw [imsi, del_of_ne otherImsi, trimmed.byImsi, context.imsi]
    · have otherPdn : p₂ ≠ p := by
        rintro rfl
        exact other (some.inj (bears.context.symm.trans home))
      obtain ⟨pdn₂, livePdn₂, listed⟩ := bears.listed
      refine ⟨?_, ?_, pdn₂, ?_, listed⟩
      · dsimp only
        rw [trimmed.bearers b (kept.foreign livePdn home bears other), bears.pdn]
      · dsimp only
        rw [del_of_ne otherPdn, trimmed.contextOf, bears.context]
      · dsimp only
        rw [free_cells_of_ne otherPdn, trimmed.pdns p₂ otherPdn, livePdn₂]
  · dsimp only at live₂
    have otherPdn : p₂ ≠ p := by
      rintro rfl
      rw [free_cells_self] at live₂
      cases live₂
    rw [free_cells_of_ne otherPdn, trimmed.pdns p₂ otherPdn] at live₂
    have was := kept.pdns p₂ pdn₂ live₂
    obtain ⟨c₂, ctx₂, home₂, liveCtx, listed⟩ := was.home
    have other : c₂ ≠ c := by
      rintro rfl
      exact otherPdn (only live₂ home₂)
    refine ⟨was.apn, was.numBearer, c₂, ctx₂, ?_, ?_, listed⟩
    · dsimp only
      rw [del_of_ne otherPdn, trimmed.contextOf, home₂]
    · dsimp only
      rw [free_cells_of_ne other, trimmed.contexts c₂ other, liveCtx]

theorem Booked.deleteSession (rulesDeleted : Nat → Bool) :
    ∃ s', s.deleteSessContext rulesDeleted c p = some s' ∧ Booked s' := by
  obtain ⟨t, deleted, trimmed⟩ := (Trimmed.refl live livePdn).deleteBearers home rulesDeleted
    (List.range maxBearers)
  obtain ⟨ctx', live', imsi, numPdns⟩ := trimmed.context
  obtain ⟨pdn', livePdn', apn, -⟩ := trimmed.pdn
  obtain ⟨inUse, known⟩ := isSome_iff_exists.mp (kept.pdns p pdn livePdn).apn
  refine ⟨_, ?_, kept.release live livePdn home last trimmed imsi numPdns⟩
  simp only [deleteSessContext, deleted, livePdn', apn, known, live', bind_eq_bind, bind_some]

end

end

theorem Booked.step {s : UeStore} (kept : Booked s) {op : UeOp} (fits : op.Fits s) :
    ∃ s', op.exec s = some s' ∧ Booked s' := by
  cases op with
  | create r => exact kept.create fits.1.1 fits.1.2 fits.2
  | csrSequence p sequence =>
    obtain ⟨pdn, live⟩ := isSome_iff_exists.mp fits
    refine ⟨_, ?_, kept.csrSequence p sequence⟩
    simp only [UeOp.exec, live, bind_eq_bind, bind_some]
  | deleteBearer p ebiIndex rulesDeleted =>
    obtain ⟨pdn, live, none | kept'⟩ := fits
    · refine ⟨s, ?_, kept⟩
      simp only [UeOp.exec, deleteBearerContext, live, none, bind_eq_bind, bind_some]
    · refine ⟨s, ?_, kept⟩
      simp only [UeOp.exec, deleteBearerContext, live, kept', bind_eq_bind,
        bind_some, Bool.false_eq_true, if_false]
      split <;> rfl
  | deleteSession p rulesDeleted =>
    obtain ⟨pdn, c, ctx, livePdn, home, live, last⟩ := fits
    obtain ⟨s', deleted, kept'⟩ := kept.deleteSession live livePdn home last rulesDeleted
    refine ⟨s', ?_, kept'⟩
    simp only [UeOp.exec, home, bind_eq_bind, bind_some, deleted]

/-- In a run of calls that all fit, from no contexts, every call returns and leaves the books right.
-/
theorem ueRun_booksRight (ops : List UeOp) (guarded : Guarded UeOp.step UeOp.Fits {} ops)
    (before : List UeOp) (op : UeOp) (isPrefix : before ++ [op] <+: ops) :
    ∃ s', op.exec (run UeOp.step {} before) = some s' ∧ BooksRight s'.ue := by
  obtain ⟨s', done, kept⟩ := guarded.exec_at isPrefix UeOp.exec Booked Booked.initial
    (fun _ _ => rfl) fun _ _ kept => kept.step
  exact ⟨s', done, kept.booksRight⟩

def bookRequest (imsi : UInt64) (ebi : UInt8) (label : UInt8) (sequence : UInt32) : CreateUeRequest where
  imsi := imsi
  imsiLen := 8
  ebi := ebi
  apnRequested := { apnNameLabel := [1, label], apnNameLength := 2 }
  sequence := sequence
  checkIfUeHashExist := 0
  cpType := .saegwc

def bookRun : List UeOp :=
  [.create (bookRequest 1 5 97 1), .create (bookRequest 1 6 98 1), .create (bookRequest 1 15 97 1),
    .create (bookRequest 2 5 97 1), .deleteSession 2 fun _ => true, .create (bookRequest 1 5 97 2)]

theorem ueRun_booksRight_bookRun :
    ∃ s', UeOp.exec (run UeOp.step {} (bookRun.take 5)) (.create (bookRequest 1 5 97 2)) = some s' ∧
      BooksRight s'.ue := by
  refine ueRun_booksRight bookRun ⟨?_, ?_, ?_, ?_, ?_, ?_, trivial⟩ (bookRun.take 5) _
    (List.prefix_refl _)
  · exact ⟨by decide, show 4 < maxBearers by decide⟩
  · exact ⟨by decide, show _ ↔ _ by decide⟩
  · exact ⟨by decide, show _ ↔ _ by decide⟩
  · exact ⟨by decide, show 4 < maxBearers by decide⟩
  · exact ⟨_, 1, _, rfl, rfl, rfl, rfl⟩
  · refine ⟨by decide, fun pdn live => .inr ?_⟩
    cases live
    decide

/-- A second bearer of the same APN: its bit is not set. -/
theorem shared_apn_not_booksRight :
    ¬ BooksRight (run UeOp.step {} [.create (bookRequest 1 5 97 1), .create (bookRequest 1 6 97 1)]).ue := by
  intro right
  exact absurd ((right.contexts 0 _ rfl).bitmap 5 (by decide)) (by decide)

/-- The context a pointer leads back to. -/
def UeStore.home (s : UeStore) : Ptr → Option Nat
  | .pdn p => s.contextOf p
  | .bearer b => ((s.ue.bearers.cells b).bind EpsBearer.pdn).bind s.contextOf

/-- A context is found under its IMSI and what it points to leads back to it, so that no two UEs share
a PDN connection or a bearer; and every PDN connection is that of a context. -/
structure UeStore.Isolated (s : UeStore) : Prop where
  own : ∀ c ctx, s.ue.contexts.cells c = some ctx → s.ue.ueContextByImsiHash ctx.imsi = some c ∧
    ∀ i pointer, ctx.slots i = some pointer → s.home pointer = some c
  held : ∀ p pdn, s.ue.pdns.cells p = some pdn → ∃ c ctx, s.ue.contexts.cells c = some ctx ∧
    ∃ j < maxBearers, ctx.slots j = some (.pdn p)

theorem ueRun_isolated (ops : List UeOp) (guarded : Guarded UeOp.step UeOp.Fits {} ops) :
    (run UeOp.step {} ops).Isolated := by
  have kept : Booked (run UeOp.step {} ops) := by
    refine guarded.invariant Booked Booked.initial fun s op kept fits => ?_
    obtain ⟨s', done, kept'⟩ := kept.step fits
    rwa [UeOp.step, done]
  constructor
  · intro c ctx live
    have context := kept.contexts c ctx live
    refine ⟨context.imsi, fun i pointer held => ?_⟩
    by_cases inside : i < maxBearers
    · obtain ⟨p, b, rfl, -, bears⟩ := context.pdns i inside pointer held
      exact bears.context
    · obtain ⟨j, rfl⟩ := Nat.exists_eq_add_of_le (not_lt.mp inside)
      obtain ⟨p, b, rfl, bears⟩ := context.bearers j pointer held
      rw [UeStore.home, bears.pdn]
      exact bears.context
  · intro p pdn live
    obtain ⟨c, ctx, -, liveContext, listed, -⟩ := (kept.pdns p pdn live).home
    exact ⟨c, ctx, liveContext, listed⟩

theorem ueRun_isolated_twoUes :
    (run UeOp.step {} [.create (bookRequest 1 5 97 1), .create (bookRequest 2 5 97 1)]).Isolated := by
  refine ueRun_isolated _ ⟨?_, ?_, trivial⟩
  all_goals exact ⟨by decide, show 4 < maxBearers by decide⟩

end Epc.Cp
