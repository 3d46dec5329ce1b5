import Epc.Lib.Lists
import Epc.Lib.Run

/-! The PDRs and QERs of a bearer: `remove_pdr_from_bearer`, `remove_qer_from_bearer` and
`delete_pdr_qer_for_rule` (`pfcp_messages/pfcp_session.c`). -/

namespace Epc.Cp

open Epc.Lib List

/-- An array of the bearer with the number of its slots in use. -/
structure Slots (α : Type) where
  slots : List α
  count : Nat

variable {α κ : Type}

def Slots.used (s : Slots α) : List α := s.slots.take s.count

@[simp] theorem Slots.used_append_drop (s : Slots α) : s.used ++ s.slots.drop s.count = s.slots :=
  take_append_drop _ _

/-- The search loop over the slots in use, with its flag: from the entry that is `it` on, each slot
but the last takes its successor. -/
def shiftOver (it : α → Bool) : Bool → List α → Bool × List α
  | flag, [] => (flag, [])
  | flag, [x] => (flag || it x, [x])
  | flag, x :: y :: rest =>
    let found := flag || it x
    let (flag', shifted) := shiftOver it found (y :: rest)
    (flag', (if found then y else x) :: shifted)

/-- Both removals; a slot behind the array is not there to be cleared. -/
def Slots.remove (it : α → Bool) (cleared : α) (s : Slots α) : Option (Slots α) :=
  let (flag, shifted) := shiftOver it false s.used
  let slots := shifted ++ s.slots.drop s.count
  if flag then
    if s.count < slots.length then some ⟨slots.set s.count cleared, s.count - 1⟩ else none
  else some { s with slots }

structure BearerPdr where
  ruleId : UInt16
  qerId : UInt32
  deriving DecidableEq

def pdrKey (pdr : Option BearerPdr) : Option UInt16 := pdr.map BearerPdr.ruleId

/-- `remove_pdr_from_bearer`: no entry in use may be NULL. -/
def removePdrFromBearer (pdrs : Slots (Option BearerPdr)) (pdrIdValue : UInt16) :
    Option (Slots (Option BearerPdr)) :=
  if none ∈ pdrs.used then none
  else pdrs.remove (pdrKey · = some pdrIdValue) none

def removeQerFromBearer (qerId : Slots UInt32) (qerIdValue : UInt16) : Option (Slots UInt32) :=
  qerId.remove (· = qerIdValue.toUInt32) 0

/-- `eps_bearer`, as far as its PDRs and QERs go. -/
structure PdrBearer where
  pdrs : Slots (Option BearerPdr)
  qerId : Slots UInt32

/-- A call, and the QER id that is read in the PDR if `del_pdr_entry` has freed it before. -/
structure DeleteCall where
  pdrIdValue : UInt16
  freed : Option UInt32

/-- `delete_pdr_qer_for_rule`, with its return code. -/
def deletePdrQerForRule (useGx : Bool) (bearer : PdrBearer) (call : DeleteCall) :
    Option (PdrBearer × Int) :=
  match bearer.pdrs.used.find? (pdrKey · = some call.pdrIdValue) with
  | none => some (bearer, -1)
  | some found => do
    let pdr ← found
    let pdrs ← removePdrFromBearer bearer.pdrs call.pdrIdValue
    (if useGx then removeQerFromBearer bearer.qerId (call.freed.getD pdr.qerId).toUInt16
      else some bearer.qerId).map fun qerId => (⟨pdrs, qerId⟩, 0)

/-- The entries in use have different keys, and the slots behind them are empty. -/
structure Slots.Tidy (key : α → κ) (empty : α) (s : Slots α) : Prop where
  fits : s.count ≤ s.slots.length
  distinct : (s.used.map key).Nodup
  cleared : ∀ x ∈ s.slots.drop s.count, x = empty

/-- The other entries are left in their order and counted, and the slots behind them are empty. -/
structure Slots.Without [DecidableEq κ] (key : α → κ) (empty : α) (k : κ) (s s' : Slots α) : Prop where
  others : s'.used = s.used.filter (key · ≠ k)
  counted : s'.count = if k ∈ s.used.map key then s.count - 1 else s.count
  cleared : ∀ x ∈ s'.slots.drop s'.count, x = empty

structure PdrBearer.Tidy (bearer : PdrBearer) : Prop where
  pdrs : bearer.pdrs.Tidy pdrKey none
  held : none ∉ bearer.pdrs.used
  qerId : bearer.qerId.Tidy id 0

def PdrRemoved (pdrs : Slots (Option BearerPdr)) (pdrIdValue : UInt16) : Prop :=
  ∃ pdrs', removePdrFromBearer pdrs pdrIdValue = some pdrs' ∧
    pdrs.Without pdrKey none (some pdrIdValue) pdrs'

def QerRemoved (qerId : Slots UInt32) (qerIdValue : UInt16) : Prop :=
  ∃ qerId', removeQerFromBearer qerId qerIdValue = some qerId' ∧
    qerId.Without id 0 qerIdValue.toUInt32 qerId'

/-- A call takes out the PDR, and with Gx the QER of the PDR. -/
def RuleDeleted (useGx : Bool) (bearer : PdrBearer) (call : DeleteCall) : Prop :=
  ∃ bearer' ret, deletePdrQerForRule useGx bearer call = some (bearer', ret) ∧
    bearer.pdrs.Without pdrKey none (some call.pdrIdValue) bearer'.pdrs ∧
    ∀ pdr, some pdr ∈ bearer.pdrs.used → pdr.ruleId = call.pdrIdValue → useGx →
      bearer.qerId.Without id 0 pdr.qerId bearer'.qerId

def deleteStep (useGx : Bool) (bearer : PdrBearer) (call : DeleteCall) : PdrBearer :=
  (deletePdrQerForRule useGx bearer call).elim bearer Prod.fst

variable {it : α → Bool} {xs front back : List α} {x : α}

theorem shiftOver_found (ne : xs ≠ []) : shiftOver it true xs = (true, xs.tail ++ [xs.getLast ne]) := by
  induction xs with
  | nil => exact absurd rfl ne
  | cons x xs ih =>
    cases xs with
    | nil => rfl
    | cons y ys => simp [shiftOver, ih (cons_ne_nil y ys)]

theorem shiftOver_absent (absent : ∀ y ∈ xs, it y = false) : shiftOver it false xs = (false, xs) := by
  induction xs with
  | nil => rfl
  | cons x xs ih =>
    rw [forall_mem_cons] at absent
    cases xs with
    | nil => simp [shiftOver, absent.1]
    | cons y ys => simp [shiftOver, absent.1, ih absent.2]

/-- The entry is overwritten by the entries behind it, the last of which stays where it was. -/
theorem shiftOver_present (absent : ∀ y ∈ front, it y = false) (here : it x) :
    shiftOver it false (front ++ x :: back) =
      (true, front ++ back ++ [(x :: back).getLast (cons_ne_nil x back)]) := by
  induction front with
  | nil =>
    have found : shiftOver it true (x :: back) = _ := shiftOver_found (cons_ne_nil x back)
    cases back with
    | nil => simp [shiftOver, here]
    | cons y ys => simpa [shiftOver, here] using found
  | cons y ys ih =>
    rw [forall_mem_cons] at absent
    have later := ih absent.2
    cases ys with
    | nil => simp [shiftOver, absent.1, show shiftOver it false (x :: back) = _ from later]
    | cons z zs =>
      rw [cons_append] at later
      simp [shiftOver, absent.1, later]

theorem Slots.remove_present {s : Slots α} (split : s.used = front ++ x :: back)
    (count : s.count = (front ++ back).length + 1) (absent : ∀ y ∈ front, it y = false)
    (here : it x) (empty : α) :
    ∃ last, s.used.getLast? = some last ∧ s.remove it empty =
      if s.count < s.slots.length then
        some ⟨front ++ back ++ last :: (s.slots.drop s.count).set 0 empty, s.count - 1⟩
      else none := by
  refine ⟨(x :: back).getLast (cons_ne_nil x back), ?_, ?_⟩
  · rw [split, getLast?_append_of_ne_nil _ (cons_ne_nil x back), getLast?_eq_some_getLast]
  · have length : (s.used ++ s.slots.drop s.count).length = s.slots.length := by simp
    rw [split] at length
    have same : (front ++ back ++ ([(x :: back).getLast (cons_ne_nil x back)] ++
        s.slots.drop s.count)).length = s.slots.length := by
      simp only [length_append, length_cons, length_nil] at length ⊢
      omega
    simp only [Slots.remove, split, shiftOver_present absent here, if_true, append_assoc _ [_]]
    rw [same, set_append_right _ _ (by omega), show s.count - (front ++ back).length = 1 by omega]
    rfl

variable [DecidableEq κ] {key : α → κ} {empty : α} {k : κ} {s : Slots α}

theorem Slots.Tidy.without_self (tidy : s.Tidy key empty) (absent : k ∉ s.used.map key) :
    s.Without key empty k s := by
  refine ⟨(filter_eq_self.mpr fun y among => decide_eq_true ?_).symm, (if_neg absent).symm,
    tidy.cleared⟩
  exact fun same => absent (same ▸ mem_map_of_mem among)

/-- A removal is right if there is nothing to remove, or the last entry looks like an empty slot. -/
theorem Slots.Tidy.remove_iff (tidy : s.Tidy key empty) (k : κ) :
    (∃ s', s.remove (key · = k) empty = some s' ∧ s.Without key empty k s') ↔
      k ∉ s.used.map key ∨ (s.count < s.slots.length ∧ s.used.getLast? = some empty) := by
  by_cases mem : k ∈ s.used.map key
  · obtain ⟨x, inUse, rfl⟩ := mem_map.mp mem
    obtain ⟨front, back, split⟩ := append_of_mem inUse
    have size : s.used.length = s.count := length_take_of_le tidy.fits
    have apart := key_ne_of_nodup (split ▸ tidy.distinct)
    have count : s.count = (front ++ back).length + 1 := by
      rw [← size, split, length_append, length_append, length_cons, add_assoc]
    obtain ⟨last, equal, removed⟩ := remove_present split count
      (fun y among => decide_eq_false (apart y (mem_append_left _ among))) (decide_eq_true rfl) empty
    have others : s.used.filter (key · ≠ key x) = front ++ back := by
      have kept := filter_eq_self.mpr fun y among => decide_eq_true (apart y among)
      rw [filter_append] at kept
      simp [split, ← kept]
    have behind : (front ++ back).length = s.count - 1 := by omega
    simp only [mem, not_true_eq_false, false_or, equal, Option.some_inj, removed]
    constructor
    · rintro ⟨s', done, without⟩
      split_ifs at done with fits
      cases done
      have cleared := without.cleared
      rw [drop_left' behind, forall_mem_cons] at cleared
      exact ⟨fits, cleared.1⟩
    · rintro ⟨fits, rfl⟩
      rw [if_pos fits]
      refine ⟨_, rfl, ?_, (if_pos mem).symm, ?_⟩
      · rw [others, Slots.used, take_left' behind]
      · rw [drop_left' behind, forall_mem_cons]
        refine ⟨rfl, fun y among => ?_⟩
        rcases mem_or_eq_of_mem_set among with old | new
        · exact tidy.cleared y old
        · exact new
  · have absent : ∀ y ∈ s.used, key y ≠ k := fun y among same => mem (same ▸ mem_map_of_mem among)
    have nothing : s.remove (key · = k) empty = some s := by
      have kept := shiftOver_absent fun y among => decide_eq_false (absent y among)
      simp [Slots.remove, kept]
    exact iff_of_true ⟨s, nothing, tidy.without_self mem⟩ (.inl mem)

variable {bearer : PdrBearer}

theorem PdrBearer.Tidy.pdrRemoved_iff (tidy : bearer.Tidy) (pdrIdValue : UInt16) :
    PdrRemoved bearer.pdrs pdrIdValue ↔ some pdrIdValue ∉ bearer.pdrs.used.map pdrKey := by
  have held : bearer.pdrs.used.getLast? ≠ some none := fun last => tidy.held (mem_of_getLast? last)
  rw [PdrRemoved, removePdrFromBearer, if_neg tidy.held]
  exact (tidy.pdrs.remove_iff _).trans (or_iff_left fun last => held last.2)

theorem PdrBearer.Tidy.ruleDeleted_iff (tidy : bearer.Tidy) (useGx : Bool) (call : DeleteCall) :
    (RuleDeleted useGx bearer call ↔ some call.pdrIdValue ∉ bearer.pdrs.used.map pdrKey) ∧
    (some call.pdrIdValue ∉ bearer.pdrs.used.map pdrKey → deleteStep useGx bearer call = bearer) := by
  cases search : bearer.pdrs.used.find? (pdrKey · = some call.pdrIdValue) with
  | none =>
    have absent : some call.pdrIdValue ∉ bearer.pdrs.used.map pdrKey := fun mem => by
      obtain ⟨pdr, among, named⟩ := mem_map.mp mem
      exact find?_eq_none.mp search pdr among (decide_eq_true named)
    have done : deletePdrQerForRule useGx bearer call = some (bearer, -1) := by
      rw [deletePdrQerForRule, search]
    refine ⟨iff_of_true ⟨bearer, -1, done, tidy.pdrs.without_self absent, ?_⟩ absent, fun _ => ?_⟩
    · exact fun pdr among named => absurd (named ▸ mem_map_of_mem among) absent
    · rw [deleteStep, done]
      rfl
  | some found =>
    have named := find?_some search
    have present : some call.pdrIdValue ∈ bearer.pdrs.used.map pdrKey :=
      of_decide_eq_true named ▸ mem_map_of_mem (mem_of_find?_eq_some search)
    refine ⟨iff_of_false ?_ (not_not_intro present), fun absent => absurd present absent⟩
    rintro ⟨bearer', ret, done, without, -⟩
    simp only [deletePdrQerForRule, search, Option.bind_eq_bind, Option.bind_eq_some_iff,
      Option.map_eq_some_iff, Prod.mk.injEq] at done
    obtain ⟨pdr, -, pdrs, removed, qerId, -, rfl, -⟩ := done
    exact (tidy.pdrRemoved_iff _).mp ⟨pdrs, removed, without⟩ present

/-- On a tidy bearer the removals, alone or in a sequence of calls, are right exactly if they find
nothing to remove, a QER apart whose removal moves an entry 0 into the cleared slot. -/
theorem removals_right_iff (tidy : bearer.Tidy) (useGx : Bool) (pdrIdValue qerIdValue : UInt16)
    (calls : List DeleteCall) :
    (PdrRemoved bearer.pdrs pdrIdValue ↔ some pdrIdValue ∉ bearer.pdrs.used.map pdrKey) ∧
    (QerRemoved bearer.qerId qerIdValue ↔ qerIdValue.toUInt32 ∉ bearer.qerId.used ∨
      bearer.qerId.count < bearer.qerId.slots.length ∧ bearer.qerId.used.getLast? = some 0) ∧
    (Run.Guarded (deleteStep useGx) (RuleDeleted useGx) bearer calls ↔
      ∀ call ∈ calls, some call.pdrIdValue ∉ bearer.pdrs.used.map pdrKey) := by
  refine ⟨tidy.pdrRemoved_iff pdrIdValue, ?_, ?_⟩
  · have removed := tidy.qerId.remove_iff qerIdValue.toUInt32
    rwa [map_id] at removed
  · induction calls with
    | nil => simp
    | cons call calls ih =>
      obtain ⟨right, kept⟩ := tidy.ruleDeleted_iff useGx call
      rw [Run.guarded_cons, forall_mem_cons, right]
      exact and_congr_right fun absent => by rw [kept absent, ih]

def onePdr : PdrBearer where
  pdrs := ⟨some ⟨1, 1⟩ :: replicate 31 none, 1⟩
  qerId := ⟨1 :: replicate 31 0, 1⟩

theorem onePdr_tidy : onePdr.Tidy :=
  ⟨⟨by decide, by decide, fun _ behind => eq_of_mem_replicate behind⟩, by decide,
    ⟨by decide, by decide, fun _ behind => eq_of_mem_replicate behind⟩⟩

/-- The count is decremented and the removed PDR is still in the slot behind the entries. -/
theorem removed_pdr_stays : onePdr.Tidy ∧
    (removePdrFromBearer onePdr.pdrs 1).map Slots.count = some 0 ∧
    (removePdrFromBearer onePdr.pdrs 1).map (·.slots.head?) = some (some (some ⟨1, 1⟩)) ∧
    ¬ PdrRemoved onePdr.pdrs 1 ∧ ¬ QerRemoved onePdr.qerId 1 ∧
    ¬ Run.Guarded (deleteStep true) (RuleDeleted true) onePdr [⟨1, none⟩] :=
  ⟨onePdr_tidy, by decide, by decide, mt (onePdr_tidy.pdrRemoved_iff 1).mp (by decide),
    mt (onePdr_tidy.qerId.remove_iff 1).mp (by decide),
    fun run => mt (onePdr_tidy.ruleDeleted_iff true ⟨1, none⟩).1.mp (by decide) run.1⟩

def threePdrs : PdrBearer where
  pdrs := ⟨some ⟨1, 1⟩ :: some ⟨2, 2⟩ :: some ⟨3, 2⟩ :: replicate 29 none, 3⟩
  qerId := ⟨1 :: 2 :: replicate 30 0, 2⟩

/-- Ids that the bearer does not have are removed, alone and in two calls. -/
theorem removals_right_absent : PdrRemoved threePdrs.pdrs 4 ∧ QerRemoved threePdrs.qerId 3 ∧
    Run.Guarded (deleteStep true) (RuleDeleted true) threePdrs [⟨4, none⟩, ⟨5, some 1⟩] := by
  have tidy : threePdrs.Tidy :=
    ⟨⟨by decide, by decide, fun _ behind => eq_of_mem_replicate behind⟩, by decide,
      ⟨by decide, by decide, fun _ behind => eq_of_mem_replicate behind⟩⟩
  obtain ⟨pdr, qer, calls⟩ := removals_right_iff tidy true 4 3 [⟨4, none⟩, ⟨5, some 1⟩]
  refine ⟨pdr.mpr (by decide), qer.mpr (.inl (by decide)), calls.mpr fun call among => ?_⟩
  rcases mem_pair.mp among with rfl | rfl <;> decide

end Epc.Cp
