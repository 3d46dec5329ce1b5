import Epc.Lib.Run
import Epc.Up.Rules

/-! The tables of rules while the PDRs of a request are linked: an id is looked up or entered, and
its entry is written. -/

namespace Epc.Up

open Epc.Lib List Option Heap

namespace RuleTable

variable {Entry : Type}

def upsert (t : RuleTable Entry) (key : RuleKey) (entry : Entry) (f : Entry → Entry) :
    Nat × RuleTable Entry :=
  match t.byId key with
  | some a => (a, t.update a f)
  | none => (t.heap.next, (t.create key entry).update t.heap.next f)

variable {t : RuleTable Entry} {key : RuleKey} {entry : Entry} {f : Entry → Entry}

theorem update_congr {a : Nat} {g : Entry → Entry} (live : t.heap.cells a = some entry)
    (same : f entry = g entry) : t.update a f = t.update a g := by
  unfold update
  rw [Heap.update_congr live same]

theorem upsert_byId (t : RuleTable Entry) (key : RuleKey) (entry : Entry) (f : Entry → Entry) :
    (t.upsert key entry f).2.byId = t.byId.add key (t.upsert key entry f).1 := by
  unfold upsert
  cases known : t.byId key with
  | some a => exact (Table.add_eq_self known).symm
  | none => rfl

theorem upsert_byId_self : (t.upsert key entry f).2.byId key = some (t.upsert key entry f).1 := by
  rw [upsert_byId, Table.add_self]

theorem upsert_byId_of_some {other : RuleKey} {a : Nat} (known : t.byId other = some a) :
    (t.upsert key entry f).2.byId other = some a := by
  by_cases same : other = key
  · subst same
    simp [upsert, known, update]
  · rw [upsert_byId, Table.add_of_ne same, known]

structure Upserted (t : RuleTable Entry) (key : RuleKey) (entry : Entry) (f : Entry → Entry)
    (u : Nat × RuleTable Entry) (e : Entry) : Prop where
  byId : u.2.byId = t.byId.add key u.1
  here : u.2.heap.cells u.1 = some (f e)
  elsewhere : ∀ b, b ≠ u.1 → u.2.heap.cells b = t.heap.cells b
  origin : t.byId key = none ∧ t.heap.cells u.1 = none ∧ e = entry ∨
    t.byId key = some u.1 ∧ t.heap.cells u.1 = some e

theorem upserted (entry : Entry) (f : Entry → Entry)
    (live : ∀ a, t.byId key = some a → ∃ e, t.heap.cells a = some e) :
    ∃ e, Upserted t key entry f (t.upsert key entry f) e := by
  have byId := upsert_byId t key entry f
  unfold upsert at byId ⊢
  cases known : t.byId key with
  | none =>
    rw [known] at byId
    refine ⟨entry, byId, by simp [create, update], fun b ne => ?_,
      .inl ⟨known, t.heap.fresh _ (Nat.le_refl _), rfl⟩⟩
    exact (update_cells_of_ne ne).trans (alloc_cells_of_ne ne)
  | some a =>
    rw [known] at byId
    obtain ⟨e, cell⟩ := live a known
    exact ⟨e, byId, by simp [update, cell], fun b ne => update_cells_of_ne ne, .inr ⟨known, cell⟩⟩

theorem upsert_update (t : RuleTable Entry) (key : RuleKey) (entry : Entry) (f g : Entry → Entry) :
    (t.upsert key entry f).2.update (t.upsert key entry f).1 g =
      (t.upsert key entry (g ∘ f)).2 := by
  have twice : ∀ (heap : Heap Entry) (a : Nat),
      (heap.update a f).update a g = heap.update a (g ∘ f) := by
    intro heap a
    unfold Heap.update
    congr 1
    funext b
    by_cases same : b = a
    · simp [same]
    · simp [same]
  unfold upsert
  cases t.byId key with
  | some a => simp only [update, twice]
  | none => simp only [update, twice]

theorem upsert_fst (t : RuleTable Entry) (key : RuleKey) (entry : Entry) (f g : Entry → Entry) :
    (t.upsert key entry f).1 = (t.upsert key entry g).1 := by
  unfold upsert
  cases t.byId key <;> rfl

/-- What at most one id adds: its entry, which heads the list. -/
def Entered (keyOf : UInt32 → RuleKey) (entry : UInt32 → Entry) (f : UInt32 → Entry → Entry)
    (ids : List UInt32) (head : Option Nat) (t t' : RuleTable Entry) : Prop :=
  (ids = [] ∧ head = none ∧ t' = t) ∨
    ∃ id, ids = [id] ∧ head = some (t.upsert (keyOf id) (entry id) (f id)).1 ∧
      t' = (t.upsert (keyOf id) (entry id) (f id)).2

/-- The named ids have an entry that is as it should be; the session has no other. -/
structure Keeps (t : RuleTable Entry) (keyOf : UInt32 → RuleKey) (Named : UInt32 → Prop)
    (Good : UInt32 → Entry → Prop) : Prop where
  live : ∀ id, Named id →
    ∃ a e, t.byId (keyOf id) = some a ∧ t.heap.cells a = some e ∧ Good id e
  absent : ∀ id, (∀ other, Named other → keyOf other ≠ keyOf id) → t.byId (keyOf id) = none

variable {keyOf : UInt32 → RuleKey} {Named : UInt32 → Prop} {Good : UInt32 → Entry → Prop}

/-- At most one id is entered, and its entry is written as it should be. -/
def EnteredGood (keyOf : UInt32 → RuleKey) (Good : UInt32 → Entry → Prop) (ids : List UInt32)
    (head : Option Nat) (t t' : RuleTable Entry) : Prop :=
  ∃ entry f, Entered keyOf entry f ids head t t' ∧
    ∀ id ∈ ids, Good id (f id (entry id)) ∧ ∀ e, Good id e → Good id (f id e)

section

variable (keeps : t.Keeps keyOf Named Good)

include keeps

theorem Keeps.congr {Named' : UInt32 → Prop}
    (same : ∀ id, Named' id ↔ Named id) : t.Keeps keyOf Named' Good where
  live id named := keeps.live id ((same id).mp named)
  absent id others := keeps.absent id fun other named => others other ((same other).mpr named)

theorem Keeps.known {id : UInt32} {a : Nat}
    (names : ∀ other, Named other → keyOf other = keyOf id → other = id)
    (known : t.byId (keyOf id) = some a) : ∃ e, t.heap.cells a = some e ∧ Good id e := by
  by_cases named : Named id
  · obtain ⟨b, e, knownB, live, good⟩ := keeps.live id named
    obtain rfl : a = b := some.inj (known.symm.trans knownB)
    exact ⟨e, live, good⟩
  · rw [keeps.absent id fun other named' same => named (names other named' same ▸ named')] at known
    cases known

theorem Keeps.upsert (id : UInt32) (names : ∀ other, Named other → keyOf other = keyOf id → other = id)
    (determined : ∀ i j e, Good i e → Good j e → i = j) (first : Good id (f entry))
    (again : ∀ e, Good id e → Good id (f e)) :
    (t.upsert (keyOf id) entry f).2.Keeps keyOf (fun i => Named i ∨ i = id) Good := by
  obtain ⟨e, up⟩ := upserted entry f fun a isKnown => (keeps.known names isKnown).imp fun _ => And.left
  generalize t.upsert (keyOf id) entry f = u at up ⊢
  have atId : u.2.byId (keyOf id) = some u.1 := by rw [up.byId, Table.add_self]
  have good : Good id (f e) := by
    rcases up.origin with ⟨-, -, rfl⟩ | ⟨isKnown, live⟩
    · exact first
    · obtain ⟨e', live', good⟩ := keeps.known names isKnown
      exact again e (some.inj (live'.symm.trans live) ▸ good)
  refine ⟨?_, fun other others => ?_⟩
  · rintro other named
    by_cases same : other = id
    · subst same
      exact ⟨_, _, atId, up.here, good⟩
    · have named := named.resolve_right same
      obtain ⟨b, e', knownOther, live, goodOther⟩ := keeps.live other named
      have ne : b ≠ u.1 := by
        rintro rfl
        rcases up.origin with ⟨-, free, -⟩ | ⟨isKnown, -⟩
        · rw [free] at live
          cases live
        · obtain ⟨e'', live', good'⟩ := keeps.known names isKnown
          obtain rfl : e'' = e' := some.inj (live'.symm.trans live)
          exact same (determined _ _ _ goodOther good')
      refine ⟨b, e', ?_, (up.elsewhere b ne).trans live, goodOther⟩
      rw [up.byId, Table.add_of_ne fun sameKey => same (names other named sameKey), knownOther]
  · rw [up.byId, Table.add_of_ne fun same => others id (.inr rfl) same.symm]
    exact keeps.absent other fun named isNamed => others named (.inl isNamed)

theorem Keeps.upsert_byId {id : UInt32} (named : Named id) :
    (t.upsert key entry f).2.byId (keyOf id) = t.byId (keyOf id) := by
  obtain ⟨a, -, known, -⟩ := keeps.live id named
  rw [known]
  exact upsert_byId_of_some known

theorem Keeps.listed {t' : RuleTable Entry} {ids : List UInt32} {head : Option Nat}
    (injective : Function.Injective keyOf) (determined : ∀ i j e, Good i e → Good j e → i = j)
    (entered : EnteredGood keyOf Good ids head t t') :
    t'.Keeps keyOf (fun id => Named id ∨ id ∈ ids) Good ∧
      (∀ id, Named id → t'.byId (keyOf id) = t.byId (keyOf id)) ∧
      head = ids.head?.bind fun id => t'.byId (keyOf id) := by
  obtain ⟨entry, f, ⟨rfl, rfl, rfl⟩ | ⟨id, rfl, rfl, rfl⟩, good⟩ := entered
  · exact ⟨keeps.congr (by simp), fun _ _ => rfl, rfl⟩
  · have names : ∀ other, Named other → keyOf other = keyOf id → other = id :=
      fun other _ same => injective same
    obtain ⟨first, again⟩ := good id (mem_singleton_self id)
    refine ⟨(keeps.upsert id names determined first again).congr (by simp),
      fun other named => keeps.upsert_byId named, ?_⟩
    exact upsert_byId_self.symm

end

end RuleTable

open RuleTable

section

variable {α : Type} (sess : PfcpSession)

theorem linkFar_some (id : UInt32) (t : RuleTable FarInfo) :
    linkFar sess (some id) none t =
      let u := t.upsert (sess.ruleKey id.toUInt16.toUInt32) {} fun far =>
        { far with farIdValue := id, pdrCount := far.pdrCount + 1 }
      (some u.1, u.2) := by
  simp only [linkFar, addFarInfoEntry, RuleTable.upsert]
  cases t.byId (sess.ruleKey id.toUInt16.toUInt32) <;> rfl

variable {head : Option Nat}

theorem addListedEntry_none (t : RuleTable (Node α)) (key : RuleKey) (entry : α) (f : α → α) :
    ∃ a t', addListedEntry t key entry none = .ok (some a, t') ∧
      (a, t'.update a (Node.modify f)) =
        t.upsert key { data := entry } (Node.modify f) := by
  unfold addListedEntry RuleTable.upsert
  cases t.byId key with
  | some a => exact ⟨a, t, rfl, rfl⟩
  | none => exact ⟨_, _, rfl, rfl⟩

variable {add : RuleTable (Node α) → RuleKey → UInt32 → Option Nat →
    Except Fault (Option Nat × RuleTable (Node α))}
  {store : UInt32 → α → α} {entry : UInt32 → α}

section

variable (listed : ∀ t key id head, add t key id head = addListedEntry t key (entry id) head)

include listed

theorem linkListed_one (id : UInt32) (t : RuleTable (Node α)) :
    linkListed sess add store 0 [id] none t =
      let u := t.upsert (sess.ruleKey id) { data := entry id } (Node.modify (store id))
      .ok (some u.1, u.2) := by
  obtain ⟨a, t', added, stored⟩ :=
    addListedEntry_none t (sess.ruleKey id) (entry id) (store id)
  simp only [linkListed, listed, added, ← stored]
  rfl

theorem linkListed_short {ids : List UInt32} (short : ids.length ≤ 1) (t : RuleTable (Node α)) :
    ∃ head t', linkListed sess add store 0 ids none t = .ok (head, t') ∧
      Entered sess.ruleKey (fun id => { data := entry id }) (fun id => Node.modify (store id)) ids
        head t t' := by
  match ids, short with
  | [], _ => exact ⟨none, t, rfl, .inl ⟨rfl, rfl, rfl⟩⟩
  | [id], _ => exact ⟨_, _, linkListed_one sess listed id t, .inr ⟨id, rfl, rfl, rfl⟩⟩

theorem linkListed_ok {ids : List UInt32} {t t' : RuleTable (Node α)} (short : ids.length ≤ 1)
    (linked : linkListed sess add store 0 ids none t = .ok (head, t')) :
    Entered sess.ruleKey (fun id => { data := entry id }) (fun id => Node.modify (store id)) ids
      head t t' := by
  obtain ⟨head', t'', linked', entered⟩ := linkListed_short sess listed short t
  rw [linked, Except.ok.injEq, Prod.mk.injEq] at linked'
  rw [linked'.1, linked'.2]
  exact entered

end

end

theorem linkPredefRules_none {predefQos : Table (List UInt8) PredefQos} {session : Nat}
    {names : List (List UInt8)} {offset : UInt32} {head : Option Nat} {qers : Heap (Node QerInfo)}
    (none : ∀ name ∈ names, predefQos name = none) :
    linkPredefRules predefQos session names offset head qers = .ok (offset, head, qers) := by
  induction names with
  | nil => rfl
  | cons name names ih =>
    simp only [linkPredefRules, none name (mem_cons_self ..)]
    exact ih fun other mem => none other (mem_cons_of_mem _ mem)

end Epc.Up
