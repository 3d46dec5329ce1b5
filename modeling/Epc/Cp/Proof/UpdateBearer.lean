import Epc.Cp.UpdateBearer
import Epc.Lib.Run
import Mathlib.Data.Finset.Card

/-! The bearer contexts of an Update Bearer Request: when each of them is of one bearer, and each bearer
with a modification has one. -/

namespace Epc.Cp.Policy

open Epc.Lib PolicyPdn List Function UpdBearerReq
open Option hiding mem_map mem_map_of_mem mem_toFinset

section

def requestOf (os : List Opening) : UpdBearerReq :=
  os.foldl UpdBearerReq.addContext {}

theorem requestOf_append (os : List Opening) (o : Opening) :
    requestOf (os ++ [o]) = (requestOf os).addContext o := by
  rw [requestOf, foldl_append]
  rfl

section

variable (req : UpdBearerReq) (o : Opening) (p : Nat)

@[simp]
theorem addContext_count : (req.addContext o).bearerContextCount = req.bearerContextCount + 1 := by
  cases tft : o.tft <;> cases qos : o.qos <;>
    simp [addContext, tft, qos, setEbi, setTft, setQos, UpdBearerReq.modify]

theorem modify_contexts (i : Nat) (f : UbrContext → UbrContext) :
    (req.modify i f).bearerContexts p =
      if p = i then f (req.bearerContexts p) else req.bearerContexts p := by
  by_cases own : p = i
  · rw [if_pos own, own]
    exact update_self ..
  · rw [if_neg own]
    exact update_of_ne own ..

theorem addContext_own :
    ((req.addContext o).bearerContexts p).epsBearerId =
        (if p = req.bearerContextCount then some ⟨o.bearer, o.epsBearerId⟩
        else (req.bearerContexts p).epsBearerId) ∧
      ((req.addContext o).bearerContexts p).tft =
        if p = req.bearerContextCount then
          (o.tft.map (Sourced.mk o.bearer)).or (req.bearerContexts p).tft
        else (req.bearerContexts p).tft := by
  cases tft : o.tft <;> cases qos : o.qos <;>
    simp only [addContext, tft, qos, setEbi, setTft, setQos, modify_contexts] <;>
    split_ifs <;> exact ⟨rfl, rfl⟩

theorem addContext_qos :
    ((req.addContext o).bearerContexts p).bearerLvlQos =
      if p = o.qosIdx then
        (o.qos.map (Sourced.mk o.bearer)).or (req.bearerContexts p).bearerLvlQos
      else (req.bearerContexts p).bearerLvlQos := by
  cases tft : o.tft <;> cases qos : o.qos <;>
    simp only [addContext, tft, qos, setEbi, setTft, setQos, modify_contexts] <;>
    split_ifs <;> rfl

end

variable (os : List Opening)

theorem requestOf_count : (requestOf os).bearerContextCount = os.length := by
  induction os using List.reverseRecOn with
  | nil => rfl
  | append_singleton os o ih => rw [requestOf_append, addContext_count, ih, length_append]; rfl

theorem requestOf_own (p : Nat) :
    ((requestOf os).bearerContexts p).epsBearerId = os[p]?.map (fun o => ⟨o.bearer, o.epsBearerId⟩) ∧
      ((requestOf os).bearerContexts p).tft = os[p]?.bind fun o => o.tft.map (Sourced.mk o.bearer) := by
  induction os using List.reverseRecOn with
  | nil => exact ⟨rfl, rfl⟩
  | append_singleton os o ih =>
    rw [requestOf_append, (addContext_own ..).1, (addContext_own ..).2, requestOf_count, ih.1, ih.2]
    by_cases own : p = os.length
    · simp [own]
    · rw [if_neg own, if_neg own]
      by_cases inside : p < os.length
      · rw [getElem?_append_left inside]
        exact ⟨rfl, rfl⟩
      · rw [getElem?_eq_none (by omega), getElem?_eq_none (by simp; omega)]
        exact ⟨rfl, rfl⟩

theorem mem_of_requestOf_qos {p : Nat} {s : Sourced BearerQos}
    (here : ((requestOf os).bearerContexts p).bearerLvlQos = some s) :
    ∃ o ∈ os, o.qosIdx = p ∧ o.qos.isSome = true ∧ o.bearer = s.bearer := by
  induction os using List.reverseRecOn with
  | nil => cases here
  | append_singleton os o ih =>
    rw [requestOf_append, addContext_qos] at here
    by_cases own : p = o.qosIdx
    · rw [if_pos own] at here
      cases qos : o.qos with
      | none =>
        rw [qos, map_none, none_or] at here
        obtain ⟨o', mem, rest⟩ := ih here
        exact ⟨o', mem_append_left _ mem, rest⟩
      | some q =>
        rw [qos, map_some, some_or, some.injEq] at here
        exact ⟨o, mem_append_right _ (mem_singleton_self o), own.symm,
          by rw [qos, isSome_some], by rw [← here]⟩
    · rw [if_neg own] at here
      obtain ⟨o', mem, rest⟩ := ih here
      exact ⟨o', mem_append_left _ mem, rest⟩

theorem requestOf_qos_isSome {o : Opening} (mem : o ∈ os) (qos : o.qos.isSome = true) :
    ((requestOf os).bearerContexts o.qosIdx).bearerLvlQos.isSome = true := by
  induction os using List.reverseRecOn with
  | nil => cases mem
  | append_singleton os last ih =>
    rw [requestOf_append, addContext_qos]
    rcases mem_append.mp mem with before | here
    · split <;> simp [ih before]
    · rw [← mem_singleton.mp here, if_pos rfl]
      simp [qos]

theorem requestOf_sent : (requestOf os).sent = (List.range os.length).map (requestOf os).bearerContexts := by
  rw [sent, requestOf_count]

end

namespace PolicyPdn

variable (pdn : PolicyPdn)

def visitLoop : List Nat → RuleBearers → Except Refusal (List Visit × RuleBearers)
  | [], bearers => .ok ([], bearers)
  | idx :: rest, bearers => do
      let (visit, bearers) ← pdn.visitEntry bearers idx
      let (visits, bearers) ← visitLoop rest bearers
      .ok (visit.toList ++ visits, bearers)

def visits : List Visit :=
  match pdn.visitLoop (List.range pdn.count.toNat) pdn.bearers with
  | .ok (visits, _) => visits
  | .error _ => []

def openings : List Opening :=
  pdn.visits.filterMap Visit.opening

def isDefault (i : Nat) : Bool :=
  (pdn.bearers i).any fun bearer => bearer.epsBearerId == pdn.defaultBearerId.toNat

def isArp (i : Nat) : Bool :=
  (pdn.bearers i).any fun bearer =>
    bearer.epsBearerId != pdn.defaultBearerId.toNat && bearer.arpBearerCheck

/-- The dedicated bearers with a context for a changed ARP; the last policy entry decides whether
there are any. -/
def arpBearers : List Nat :=
  if pdn.hssInitiated &&
      pdn.visits.getLast?.any fun visit => (pdn.bearers visit.bearer).any RuleBearer.arpBearerCheck then
    (List.range maxBearers).filter pdn.isArp
  else []

def modified : List Nat :=
  pdn.visits.map Visit.bearer ++ pdn.arpBearers

def flowDue (b : Nat) : Bool :=
  (pdn.bearers b).any RuleBearer.flowDescCheck && !pdn.hssInitiated

def qosDue (b : Nat) : Bool :=
  (pdn.bearers b).any RuleBearer.qosBearerCheck || pdn.arpBearers.contains b

/-- Made of one bearer: the EBI and, as far as due, the template and the QoS. -/
structure OfBearer (c : UbrContext) (b : Nat) : Prop where
  epsBearerId : c.epsBearerId = (pdn.bearers b).map fun bearer => ⟨b, bearer.epsBearerId⟩
  tft : c.tft.map Sourced.bearer = if pdn.flowDue b then some b else none
  bearerLvlQos : c.bearerLvlQos.map Sourced.bearer = if pdn.qosDue b then some b else none

/-- Each context is made of one bearer, and modified bearers have one context each. -/
structure Coherent (req : UpdBearerReq) : Prop where
  contexts : ∃ bs : List Nat, bs.Nodup ∧ (∀ b, b ∈ bs ↔ b ∈ pdn.modified) ∧
    List.Forall₂ pdn.OfBearer req.sent bs
  count : req.bearerContextCount = pdn.modified.toFinset.card

/-- No bearer gets two contexts, and each entry's bearer gets one; before an entry with a new QoS
every entry opens a context; and before each bearer with a changed ARP there are as many bearers
with the default EBI as contexts opened. -/
structure Aligned : Prop where
  distinct : (pdn.openings.map Opening.bearer ++ pdn.arpBearers).Nodup
  opened : ∀ visit ∈ pdn.visits, visit.bearer ∈ pdn.openings.map Opening.bearer ++ pdn.arpBearers
  indices : ∀ (p : Nat) (o : Opening), pdn.openings[p]? = some o → o.qos.isSome = true → o.qosIdx = p
  counters : ∀ b ∈ pdn.arpBearers, ((List.range b).filter pdn.isDefault).length = pdn.openings.length

end PolicyPdn

section

variable {pdn : PolicyPdn} {bearers' : RuleBearers}

def flagsOf (bearer : RuleBearer) : Nat × Bool × Bool × Bool :=
  (bearer.epsBearerId, bearer.flowDescCheck, bearer.qosBearerCheck, bearer.arpBearerCheck)

def SameFlags (pdn : PolicyPdn) (bearers : RuleBearers) : Prop :=
  ∀ i, (bearers i).map flagsOf = (pdn.bearers i).map flagsOf

variable {bearers : RuleBearers} {bearer left : RuleBearer}

section

variable (same : SameFlags pdn bearers) {i : Nat}

include same

theorem SameFlags.exists (here : bearers i = some bearer) :
    ∃ own, pdn.bearers i = some own ∧ flagsOf own = flagsOf bearer := by
  have eq := same i
  rw [here, map_some] at eq
  obtain ⟨own, present, flags⟩ := map_eq_some_iff.mp eq.symm
  exact ⟨own, present, flags⟩

theorem SameFlags.none (here : bearers i = none) : pdn.bearers i = none := by
  have eq := same i
  rw [here, map_none] at eq
  exact map_eq_none_iff.mp eq.symm

theorem SameFlags.update (here : bearers i = some bearer) (flags : flagsOf left = flagsOf bearer) :
    SameFlags pdn (Function.update bearers i (some left)) := by
  intro k
  by_cases own : k = i
  · rw [own, update_self, map_some, flags, ← same i, here, map_some]
  · rw [update_of_ne own, same k]

end

theorem flagsOf_deleteBearerRule {ruleName : List Char}
    (deleted : deleteBearerRule ruleName bearer = some left) : flagsOf left = flagsOf bearer := by
  obtain ⟨rules, -, rest⟩ := bind_eq_some_iff.mp deleted
  dsimp only at rest
  split at rest
  · obtain ⟨qos, -, rfl⟩ := map_eq_some_iff.mp rest
    rfl
  · cases rest
    rfl

theorem flagsOf_removeFrom {entry : PccRule}
    (removed : entry.removeFrom bearer = .ok left) : flagsOf left = flagsOf bearer := by
  rw [PccRule.removeFrom] at removed
  split at removed
  · cases deleted : deleteBearerRule entry.rule.ruleName bearer with
    | none =>
      rw [deleted] at removed
      cases removed
    | some rest =>
      rw [deleted] at removed
      cases removed
      exact flagsOf_deleteBearerRule deleted
  · cases removed
    rfl

structure Written (pdn : PolicyPdn) (o : Opening) : Prop where
  epsBearerId : (pdn.bearers o.bearer).map RuleBearer.epsBearerId = some o.epsBearerId
  tft : o.tft.isSome = pdn.flowDue o.bearer

theorem modifiedBearer_here {entry : PccRule} {i : Nat}
    (found : pdn.modifiedBearer bearers entry = .ok (i, bearer)) : bearers i = some bearer := by
  obtain ⟨k, -, rest⟩ := except_bind_ok found
  cases here : bearers k with
  | none =>
    rw [here] at rest
    cases rest
  | some own =>
    rw [here] at rest
    cases rest
    exact here

theorem visitEntry_ok {idx : Nat} {visit : Option Visit}
    (same : SameFlags pdn bearers) (done : pdn.visitEntry bearers idx = .ok (visit, bearers')) :
    SameFlags pdn bearers' ∧ ∀ v ∈ visit, ∀ o ∈ v.opening,
      o.bearer = v.bearer ∧ Written pdn o ∧
        o.qos.isSome = (pdn.bearers o.bearer).any RuleBearer.qosBearerCheck := by
  obtain ⟨entry, -, done⟩ := except_bind_ok done
  cases op : modifyingOp entry.action with
  | none =>
    rw [op] at done
    cases done
    exact ⟨same, nofun⟩
  | some op' =>
    rw [op] at done
    obtain ⟨⟨i, bearer⟩, found, done⟩ := except_bind_ok done
    have here := modifiedBearer_here found
    dsimp only at done
    split at done
    · split at done
      · obtain ⟨left, removed, done⟩ := except_bind_ok done
        cases done
        have flags := flagsOf_removeFrom removed
        refine ⟨same.update here flags, ?_⟩
        rintro v ⟨⟩ o ⟨⟩
        obtain ⟨own, present, ownFlags⟩ := same.exists here
        simp only [flagsOf, Prod.mk.injEq] at flags ownFlags
        obtain ⟨ebi, flow, qos, -⟩ := ownFlags
        refine ⟨rfl, ⟨by rw [present, map_some, ebi], ?_⟩, ?_⟩
        · simp only [flowDue, present, any_some, flow]
          split <;> simp_all
        · simp only [present, any_some, qos, ← flags.2.2.1]
          split <;> simp_all
      · cases done
        refine ⟨same, ?_⟩
        rintro v ⟨⟩ o ⟨⟩
    · cases done

theorem visitLoop_ok {l : List Nat} {vs : List Visit}
    (same : SameFlags pdn bearers) (done : pdn.visitLoop l bearers = .ok (vs, bearers')) :
    SameFlags pdn bearers' ∧ ∀ v ∈ vs, ∀ o ∈ v.opening,
      o.bearer = v.bearer ∧ Written pdn o ∧
        o.qos.isSome = (pdn.bearers o.bearer).any RuleBearer.qosBearerCheck := by
  induction l generalizing bearers vs with
  | nil =>
    cases done
    exact ⟨same, nofun⟩
  | cons idx rest ih =>
    obtain ⟨⟨visit, between⟩, first, done⟩ := except_bind_ok done
    obtain ⟨⟨later, after⟩, looped, done⟩ := except_bind_ok done
    cases done
    obtain ⟨sameBetween, own⟩ := visitEntry_ok same first
    obtain ⟨sameAfter, others⟩ := ih sameBetween looped
    refine ⟨sameAfter, fun v mem => ?_⟩
    rcases mem_append.mp mem with here | there
    · exact own v (Option.mem_toList.mp here)
    · exact others v there

theorem policyContexts_eq (l : List Nat) (s : UbrState) :
    policyContexts pdn l s = (pdn.visitLoop l s.bearers).map fun (vs, bearers) => {
      req := (vs.filterMap Visit.opening).foldl addContext s.req
      bearers
      bearer := (vs.getLast?.map Visit.bearer).or s.bearer } := by
  induction l generalizing s with
  | nil => rfl
  | cons idx rest ih =>
    rw [policyContexts, visitLoop]
    cases first : pdn.visitEntry s.bearers idx with
    | error refusal => rfl
    | ok found =>
      obtain ⟨visit, bearers⟩ := found
      change policyContexts pdn rest (s.apply bearers visit) =
        Except.map _ ((pdn.visitLoop rest bearers).bind fun found => .ok (visit.toList ++ found.1, found.2))
      have kept : (s.apply bearers visit).bearers = bearers := by cases visit <;> rfl
      rw [ih, kept]
      cases pdn.visitLoop rest bearers with
      | error refusal => rfl
      | ok found =>
        obtain ⟨vs, after⟩ := found
        cases visit with
        | none => rfl
        | some v =>
          have last : ((v :: vs).getLast?.map Visit.bearer).or s.bearer =
              (vs.getLast?.map Visit.bearer).or (some v.bearer) := by
            rw [getLast?_cons]
            cases vs.getLast? <;> rfl
          simp only [Except.map, Except.bind, toList_some, singleton_append, last]
          cases opened : v.opening with
          | none => simp only [UbrState.apply, opened, filterMap_cons_none opened]
          | some o =>
            simp only [UbrState.apply, opened, filterMap_cons_some opened, foldl_cons]

end

section

variable {pdn : PolicyPdn} {bearers : RuleBearers}

def arpOpenings (defaultBearerId : Nat) (bearers : RuleBearers) : List Nat → Nat → List Opening
  | [], _ => []
  | i :: rest, bearerCounter =>
    match bearers i with
    | none => arpOpenings defaultBearerId bearers rest bearerCounter
    | some bearer =>
      if bearer.epsBearerId = defaultBearerId then
        arpOpenings defaultBearerId bearers rest (bearerCounter + 1)
      else if bearer.arpBearerCheck then
        { bearer := i, epsBearerId := bearer.epsBearerId, tft := none, qosIdx := bearerCounter,
          qos := some bearer.qos } :: arpOpenings defaultBearerId bearers rest (bearerCounter + 1)
      else arpOpenings defaultBearerId bearers rest bearerCounter

theorem arpContexts_eq (defaultBearerId : Nat) (l : List Nat) (bearerCounter : Nat) (req : UpdBearerReq) :
    arpContexts defaultBearerId bearers l bearerCounter req =
      (arpOpenings defaultBearerId bearers l bearerCounter).foldl addContext req := by
  induction l generalizing bearerCounter req with
  | nil => rfl
  | cons i rest ih =>
    rw [arpContexts, arpOpenings]
    cases bearers i with
    | none => exact ih bearerCounter req
    | some bearer =>
      dsimp only
      split
      · exact ih _ req
      · split
        · rw [foldl_cons]
          exact ih _ _
        · exact ih bearerCounter req

section

variable (hss : pdn.hssInitiated = true) (same : SameFlags pdn bearers)

include hss same

theorem arpOpenings_cons (i : Nat) (rest : List Nat) (counter : Nat) :
    let openings := arpOpenings pdn.defaultBearerId.toNat bearers
    (pdn.isDefault i = true ∧ pdn.isArp i = false ∧
        openings (i :: rest) counter = openings rest (counter + 1)) ∨
      (pdn.isDefault i = false ∧ pdn.isArp i = true ∧ ∃ o : Opening,
        (o.bearer = i ∧ o.qosIdx = counter ∧ Written pdn o ∧ o.qos.isSome = true) ∧
          openings (i :: rest) counter = o :: openings rest (counter + 1)) ∨
      (pdn.isDefault i = false ∧ pdn.isArp i = false ∧
        openings (i :: rest) counter = openings rest counter) := by
  intro openings
  simp only [openings, arpOpenings]
  cases here : bearers i with
  | none => exact Or.inr (Or.inr (by simp [isDefault, isArp, same.none here]))
  | some bearer =>
    obtain ⟨own, present, flags⟩ := same.exists here
    simp only [flagsOf, Prod.mk.injEq] at flags
    by_cases default : bearer.epsBearerId = pdn.defaultBearerId.toNat
    · exact Or.inl (by simp [isDefault, isArp, present, flags, default])
    · by_cases arp : bearer.arpBearerCheck = true
      · refine Or.inr (Or.inl ⟨by simp [isDefault, present, flags, default],
          by simp [isArp, present, flags, default, arp],
          { bearer := i, epsBearerId := bearer.epsBearerId, tft := none, qosIdx := counter,
            qos := some bearer.qos }, ⟨rfl, rfl, ⟨?_, ?_⟩, rfl⟩, ?_⟩)
        · simp [present, flags]
        · simp [flowDue, hss]
        · simp only [if_neg default, if_pos arp]
      · exact Or.inr (Or.inr (by simp [isDefault, isArp, present, flags, default, arp]))

theorem arpOpenings_bearers (l : List Nat) (counter : Nat) :
    (arpOpenings pdn.defaultBearerId.toNat bearers l counter).map Opening.bearer =
      l.filter pdn.isArp := by
  induction l generalizing counter with
  | nil => rfl
  | cons i rest ih =>
    rcases arpOpenings_cons hss same i rest counter with
      ⟨-, no, eq⟩ | ⟨-, yes, o, ⟨bearer, -⟩, eq⟩ | ⟨-, no, eq⟩
    · rw [eq, ih, filter_cons_of_neg (by simp [no])]
    · rw [eq, map_cons, ih, filter_cons_of_pos yes, bearer]
    · rw [eq, ih, filter_cons_of_neg (by simp [no])]

theorem arpOpenings_getElem? {l : List Nat} {counter j : Nat} {o : Opening}
    (nth : (arpOpenings pdn.defaultBearerId.toNat bearers l counter)[j]? = some o) :
    ∃ before after, l = before ++ o.bearer :: after ∧
      o.qosIdx = counter + (before.filter pdn.isDefault).length + j ∧
      Written pdn o ∧ o.qos.isSome = true := by
  induction l generalizing counter j with
  | nil => cases nth
  | cons i rest ih =>
    rcases arpOpenings_cons hss same i rest counter with
      ⟨yes, -, eq⟩ | ⟨no, -, first, ⟨bearer, idx, written, qos⟩, eq⟩ | ⟨no, -, eq⟩
    · rw [eq] at nth
      obtain ⟨before, after, rfl, idx, facts⟩ := ih nth
      refine ⟨i :: before, after, rfl, ?_, facts⟩
      rw [filter_cons_of_pos yes, length_cons]
      omega
    · rw [eq] at nth
      cases j with
      | zero =>
        cases nth
        exact ⟨[], rest, by rw [bearer, nil_append], by simp [idx], written, qos⟩
      | succ j =>
        obtain ⟨before, after, rfl, idx, facts⟩ := ih nth
        refine ⟨i :: before, after, rfl, ?_, facts⟩
        rw [filter_cons_of_neg (by simp [no])]
        omega
    · rw [eq] at nth
      obtain ⟨before, after, rfl, idx, facts⟩ := ih nth
      refine ⟨i :: before, after, rfl, ?_, facts⟩
      rw [filter_cons_of_neg (by simp [no])]
      omega

end

theorem range_split {n i : Nat} {before after : List Nat}
    (split : List.range n = before ++ i :: after) : before = List.range i := by
  rw [range_eq_range', range'_eq_append_iff] at split
  obtain ⟨k, -, rfl, rest⟩ := split
  rw [eq_comm, range'_eq_cons_iff] at rest
  rw [← range_eq_range', ← rest.1]
  simp

end

theorem gxUpdateBearerReq_eq {pdn : PolicyPdn} {req : UpdBearerReq}
    (built : gxUpdateBearerReq pdn = .ok req) :
    (∀ o ∈ pdn.openings, Written pdn o ∧
      o.qos.isSome = (pdn.bearers o.bearer).any RuleBearer.qosBearerCheck) ∧
    (∀ b ∈ pdn.openings.map Opening.bearer, b ∈ pdn.visits.map Visit.bearer) ∧
    ∃ extra : List Opening, req = requestOf (pdn.openings ++ extra) ∧
      extra.map Opening.bearer = pdn.arpBearers ∧
      ∀ (j : Nat) (o : Opening), extra[j]? = some o →
        o.qosIdx = ((List.range o.bearer).filter pdn.isDefault).length + j ∧ Written pdn o ∧
          o.qos.isSome = true := by
  obtain ⟨s, looped, rest⟩ := except_bind_ok built
  rw [policyContexts_eq] at looped
  cases visited : pdn.visitLoop (List.range pdn.count.toNat) pdn.bearers with
  | error refusal =>
    rw [visited] at looped
    cases looped
  | ok found =>
    obtain ⟨vs, bearers⟩ := found
    have visits : pdn.visits = vs := by rw [PolicyPdn.visits, visited]
    obtain ⟨same, facts⟩ := visitLoop_ok (fun _ => rfl) visited
    rw [visited] at looped
    cases looped
    refine ⟨fun o mem => ?_, fun b mem => ?_, ?_⟩
    · obtain ⟨v, vMem, opened⟩ := mem_filterMap.mp mem
      rw [visits] at vMem
      exact (facts v vMem o opened).2
    · obtain ⟨o, oMem, rfl⟩ := mem_map.mp mem
      obtain ⟨v, vMem, opened⟩ := mem_filterMap.mp oMem
      rw [(facts v (visits ▸ vMem) o opened).1]
      exact mem_map_of_mem vMem
    · have openings : pdn.openings = vs.filterMap Visit.opening := by
        rw [PolicyPdn.openings, visits]
      simp only [or_none] at rest
      cases last : (vs.getLast?.map Visit.bearer).bind bearers with
      | none =>
        rw [last] at rest
        cases rest
      | some bearer =>
        obtain ⟨b, lastBearer, here⟩ := bind_eq_some_iff.mp last
        obtain ⟨v, lastVisit, rfl⟩ := map_eq_some_iff.mp lastBearer
        obtain ⟨own, present, flags⟩ := same.exists here
        simp only [flagsOf, Prod.mk.injEq] at flags
        have decided : (pdn.hssInitiated && pdn.visits.getLast?.any fun visit =>
            (pdn.bearers visit.bearer).any RuleBearer.arpBearerCheck) =
            (pdn.hssInitiated && bearer.arpBearerCheck) := by
          rw [visits, lastVisit, any_some, present, any_some, flags.2.2.2]
        rw [last] at rest
        dsimp only at rest
        split at rest
        · next run =>
            have hss : pdn.hssInitiated = true := (Bool.and_eq_true_iff.mp run).1
            cases rest
            refine ⟨arpOpenings pdn.defaultBearerId.toNat bearers (List.range maxBearers) 0, ?_, ?_,
              fun j o nth => ?_⟩
            · rw [arpContexts_eq, requestOf, foldl_append, openings]
            · rw [arpOpenings_bearers hss same, arpBearers, decided, if_pos run]
            · obtain ⟨before, after, split, idx, facts⟩ := arpOpenings_getElem? hss same nth
              rw [range_split split, Nat.zero_add] at idx
              exact ⟨idx, facts⟩
        · next stop =>
            cases rest
            refine ⟨[], ?_, ?_, nofun⟩
            · rw [append_nil, requestOf, openings]
            · rw [arpBearers, decided, if_neg stop, map_nil]

section

variable {pdn : PolicyPdn} {os : List Opening}

theorem bearers_of_forall₂ {bs : List Nat} (all : List.Forall₂ pdn.OfBearer (requestOf os).sent bs) :
    bs = os.map Opening.bearer := by
  rw [requestOf_sent, forall₂_iff_get] at all
  obtain ⟨length, each⟩ := all
  simp only [length_map, length_range] at length
  apply ext_getElem
  · rw [length_map, length]
  · intro p inside opened
    rw [length_map] at opened
    have own := (each p (by simpa using opened) inside).epsBearerId
    simp only [get_eq_getElem, getElem_map, getElem_range, (requestOf_own _ _).1,
      getElem?_eq_getElem opened, map_some] at own
    obtain ⟨bearer, -, eq⟩ := map_eq_some_iff.mp own.symm
    simp only [Sourced.mk.injEq] at eq
    rw [eq.1, getElem_map]

theorem PolicyPdn.OfBearer.sources {c : UbrContext} {b : Nat} (own : pdn.OfBearer c b) {ebi : Sourced Nat}
    {qos : Sourced BearerQos} (hasEbi : c.epsBearerId = some ebi) (hasQos : c.bearerLvlQos = some qos) :
    ebi.bearer = qos.bearer := by
  have first := own.epsBearerId
  have second := own.bearerLvlQos
  rw [hasEbi] at first
  obtain ⟨bearer, -, rfl⟩ := map_eq_some_iff.mp first.symm
  rw [hasQos, map_some] at second
  split at second
  · exact (some.inj second).symm
  · cases second

theorem forall₂_ofBearer_iff (nodup : (os.map Opening.bearer).Nodup)
    (written : ∀ o ∈ os, Written pdn o ∧ o.qos.isSome = pdn.qosDue o.bearer) :
    List.Forall₂ pdn.OfBearer (requestOf os).sent (os.map Opening.bearer) ↔
      ∀ (p : Nat) (o : Opening), os[p]? = some o → o.qos.isSome = true → o.qosIdx = p := by
  have unique : ∀ {o o' : Opening}, o ∈ os → o' ∈ os → o.bearer = o'.bearer → o = o' :=
    fun mem mem' eq => inj_on_of_nodup_map nodup mem mem' eq
  rw [requestOf_sent, forall₂_iff_get]
  simp only [length_map, length_range, get_eq_getElem, getElem_map, getElem_range, true_and]
  constructor
  · intro all p o nth qos
    obtain ⟨inside, rfl⟩ := List.getElem?_eq_some_iff.mp nth
    have mem := getElem_mem inside
    have own := (all p inside inside).bearerLvlQos
    rw [← (written _ mem).2, if_pos qos] at own
    obtain ⟨s, here, source⟩ := map_eq_some_iff.mp own
    obtain ⟨o', mem', idx, -, bearer⟩ := mem_of_requestOf_qos os here
    rw [unique mem mem' (by rw [bearer, source])]
    exact idx
  · intro aligned p inside _
    have mem := getElem_mem inside
    obtain ⟨facts, qos⟩ := written _ mem
    have nth := getElem?_eq_getElem inside
    refine ⟨?_, ?_, ?_⟩
    · obtain ⟨bearer, present, ebi⟩ := map_eq_some_iff.mp facts.epsBearerId
      rw [(requestOf_own _ _).1, nth, map_some, present, map_some, ebi]
    · rw [(requestOf_own _ _).2, nth, bind_some, ← facts.tft]
      cases os[p].tft <;> rfl
    · rw [← qos]
      have source : ∀ s, ((requestOf os).bearerContexts p).bearerLvlQos = some s →
          os[p].qos.isSome = true ∧ s.bearer = os[p].bearer := by
        intro s here
        obtain ⟨o', mem', idx, qos', bearer⟩ := mem_of_requestOf_qos os here
        obtain ⟨p', inside', rfl⟩ := getElem_of_mem mem'
        have same : p' = p := by
          rw [← aligned p' _ (getElem?_eq_getElem inside') qos', idx]
        subst same
        exact ⟨qos', bearer.symm⟩
      cases here : ((requestOf os).bearerContexts p).bearerLvlQos with
      | none =>
        have no : ¬ os[p].qos.isSome = true := fun yes => by
          have put := requestOf_qos_isSome os mem yes
          rw [aligned p _ nth yes, here] at put
          cases put
        rw [if_neg no, map_none]
      | some s =>
        obtain ⟨yes, bearer⟩ := source s here
        rw [if_pos yes, map_some, bearer]

end

/-- The request is coherent if and only if the policy is aligned. -/
theorem coherent_iff_aligned (pdn : PolicyPdn) (req : UpdBearerReq)
    (built : gxUpdateBearerReq pdn = .ok req) : pdn.Coherent req ↔ pdn.Aligned := by
  obtain ⟨policy, fromVisits, extra, rfl, extraBearers, arp⟩ := gxUpdateBearerReq_eq built
  have bearers : (pdn.openings ++ extra).map Opening.bearer =
      pdn.openings.map Opening.bearer ++ pdn.arpBearers := by
    rw [map_append, extraBearers]
  have extraMem : ∀ o ∈ extra, o.bearer ∈ pdn.arpBearers := fun o mem => by
    rw [← extraBearers]
    exact mem_map_of_mem mem
  -- A bearer of the policy that is not among those with a change of the ARP has its own flag decide.
  have written : (pdn.openings.map Opening.bearer ++ pdn.arpBearers).Nodup →
      ∀ o ∈ pdn.openings ++ extra, Written pdn o ∧ o.qos.isSome = pdn.qosDue o.bearer := by
    intro nodup o mem
    rcases mem_append.mp mem with own | other
    · have apart : o.bearer ∉ pdn.arpBearers := fun among =>
        disjoint_of_nodup_append nodup (mem_map_of_mem own) among
      obtain ⟨facts, qos⟩ := policy o own
      refine ⟨facts, ?_⟩
      simp [qosDue, qos, apart]
    · obtain ⟨j, inside, rfl⟩ := getElem_of_mem other
      obtain ⟨-, facts, qos⟩ := arp j _ (getElem?_eq_getElem inside)
      refine ⟨facts, ?_⟩
      simp [qosDue, qos, extraMem _ other]
  have indices : (∀ (p : Nat) (o : Opening), (pdn.openings ++ extra)[p]? = some o →
      o.qos.isSome = true → o.qosIdx = p) ↔
      (∀ (p : Nat) (o : Opening), pdn.openings[p]? = some o → o.qos.isSome = true → o.qosIdx = p) ∧
      ∀ b ∈ pdn.arpBearers,
        ((List.range b).filter pdn.isDefault).length = pdn.openings.length := by
    constructor
    · intro all
      refine ⟨fun p o nth => all p o
        ((getElem?_append_left (List.getElem?_eq_some_iff.mp nth).1).trans nth), fun b mem => ?_⟩
      rw [← extraBearers] at mem
      obtain ⟨o, other, rfl⟩ := mem_map.mp mem
      obtain ⟨j, inside, rfl⟩ := getElem_of_mem other
      obtain ⟨idx, -, qos⟩ := arp j _ (getElem?_eq_getElem inside)
      have here : (pdn.openings ++ extra)[pdn.openings.length + j]? = some extra[j] := by
        rw [getElem?_append_right (Nat.le_add_right _ _), Nat.add_sub_cancel_left,
          getElem?_eq_getElem inside]
      have eq := all _ _ here qos
      omega
    · rintro ⟨own, counters⟩ p o nth qos
      rcases Nat.lt_or_ge p pdn.openings.length with inside | beyond
      · rw [getElem?_append_left inside] at nth
        exact own p o nth qos
      · rw [getElem?_append_right beyond] at nth
        have idx := (arp _ o nth).1
        have counter := counters o.bearer (extraMem o (mem_of_getElem? nth))
        omega
  have covers : ∀ b, b ∈ pdn.openings.map Opening.bearer ++ pdn.arpBearers → b ∈ pdn.modified := by
    intro b mem
    rcases mem_append.mp mem with own | other
    · exact mem_append_left _ (fromVisits b own)
    · exact mem_append_right _ other
  constructor
  · rintro ⟨⟨bs, nodup, exactly, contexts⟩, -⟩
    obtain rfl := bearers_of_forall₂ contexts
    have aligned := (forall₂_ofBearer_iff nodup (written (bearers ▸ nodup))).mp contexts
    rw [indices] at aligned
    rw [bearers] at nodup exactly
    exact ⟨nodup, fun visit mem => (exactly _).mpr
      (mem_append_left _ (mem_map_of_mem mem)), aligned.1, aligned.2⟩
  · rintro ⟨nodup, opened, own, counters⟩
    have exactly : ∀ b, b ∈ (pdn.openings ++ extra).map Opening.bearer ↔ b ∈ pdn.modified := by
      intro b
      rw [bearers]
      refine ⟨covers b, fun mem => ?_⟩
      rcases mem_append.mp mem with visited | other
      · obtain ⟨visit, vMem, rfl⟩ := mem_map.mp visited
        exact opened visit vMem
      · exact mem_append_right _ other
    rw [← bearers] at nodup
    refine ⟨⟨_, nodup, exactly, (forall₂_ofBearer_iff nodup (written (bearers ▸ nodup))).mpr
      (indices.mpr ⟨own, counters⟩)⟩, ?_⟩
    have same : pdn.modified.toFinset = ((pdn.openings ++ extra).map Opening.bearer).toFinset := by
      ext b
      rw [mem_toFinset, mem_toFinset, exactly]
    rw [same, toFinset_card_of_nodup nodup, requestOf_count, length_map]

section

def changedBearer (ebi : Nat) (qci : UInt8) : RuleBearer :=
  { epsBearerId := ebi, qos := { qci }, qosBearerCheck := true, action := .modify }

def qosEntry (action : RuleAction) (qci : UInt8) : PccRule :=
  { PccRule.zero with action, rule := { DynamicRule.zero with qos := { qci } } }

def threeBearers (entries : List PccRule) : PolicyPdn where
  callId := 1
  defaultBearerId := 5
  hssInitiated := false
  bearers
    | 4 => some (changedBearer 5 9)
    | 5 => some (changedBearer 6 1)
    | 6 => some (changedBearer 7 2)
    | _ => none
  prdefRules := fun _ => []
  ruleNames := fun _ => none
  count := UInt8.ofNat entries.length
  pccRule := fun i => entries[i]?

def twoModifications : PolicyPdn :=
  threeBearers [qosEntry .modify 1, qosEntry .modify 2]

theorem twoModifications_openings : twoModifications.openings =
    [{ bearer := 5, epsBearerId := 6, tft := none, qosIdx := 0, qos := some { qci := 1 } },
      { bearer := 6, epsBearerId := 7, tft := none, qosIdx := 1, qos := some { qci := 2 } }] := by
  decide +kernel

theorem twoModifications_aligned : twoModifications.Aligned := by
  have none : twoModifications.arpBearers = [] := by decide +kernel
  have visited : twoModifications.visits.map Visit.bearer = [5, 6] := by decide +kernel
  refine ⟨?_, fun visit mem => ?_, fun p o nth _ => ?_, ?_⟩
  · rw [twoModifications_openings, none]
    decide
  · have among := mem_map_of_mem (f := Visit.bearer) mem
    rw [visited] at among
    rw [twoModifications_openings, none]
    exact among
  · rw [twoModifications_openings] at nth
    match p with
    | 0 | 1 =>
      cases nth
      rfl
    | p + 2 => cases nth
  · rw [none]
    exact forall_mem_nil _

theorem coherent_twoModifications :
    ∃ req, gxUpdateBearerReq twoModifications = .ok req ∧ twoModifications.Coherent req :=
  ⟨_, rfl, (coherent_iff_aligned twoModifications _ rfl).mpr twoModifications_aligned⟩

def mixedPolicy : PolicyPdn :=
  threeBearers [qosEntry .add 3, qosEntry .modify 1, qosEntry .modify 2]

/-- The context of the second bearer has the QoS of the first. -/
theorem mixedPolicy_not_coherent :
    ∃ req, gxUpdateBearerReq mixedPolicy = .ok req ∧
      req.sent = [{ epsBearerId := some ⟨5, 6⟩ },
        { epsBearerId := some ⟨6, 7⟩, bearerLvlQos := some ⟨5, { qci := 1 }⟩ }] ∧
      ¬ mixedPolicy.Coherent req := by
  obtain ⟨req, built, sent⟩ : ∃ req, gxUpdateBearerReq mixedPolicy = .ok req ∧
      req.sent = [{ epsBearerId := some ⟨5, 6⟩ },
        { epsBearerId := some ⟨6, 7⟩, bearerLvlQos := some ⟨5, { qci := 1 }⟩ }] :=
    ⟨_, rfl, by decide +kernel⟩
  refine ⟨req, built, sent, fun coherent => ?_⟩
  obtain ⟨bs, -, -, contexts⟩ := coherent.contexts
  rw [sent] at contexts
  cases contexts with
  | cons _ rest =>
    cases rest with
    | cons second _ => exact absurd (second.sources rfl rfl) (by decide)

end

end Epc.Cp.Policy
