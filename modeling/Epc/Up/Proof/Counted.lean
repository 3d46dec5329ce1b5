import Epc.Up.Removal
import Epc.Up.Proof.RuleTable

/-! Tables whose entries count the references to them: an entry is there as long as something refers
to it. -/

namespace Epc.Up

open Epc.Lib List Option Table Heap

/-- The entries of `refs` are there under their key and count their references, and the owner's keys
have no other entry. -/
structure Counts {Entry : Type} (t : RuleTable Entry) (own : RuleKey → Prop) (count : Entry → Nat)
    (keyOf : Entry → RuleKey) (refs : List Nat) : Prop where
  held : ∀ a ∈ refs, ∃ e, t.heap.cells a = some e ∧ count e = refs.count a ∧ own (keyOf e) ∧
    t.byId (keyOf e) = some a
  listed : ∀ key a, own key → t.byId key = some a →
    a ∈ refs ∧ ∃ e, t.heap.cells a = some e ∧ keyOf e = key

namespace Counts

variable {Entry : Type} {t : RuleTable Entry} {own : RuleKey → Prop} {count : Entry → Nat}
  {keyOf : Entry → RuleKey} {refs : List Nat} {a : Nat} {e : Entry}

theorem nil (none : ∀ key, own key → t.byId key = none) : Counts t own count keyOf [] where
  held := forall_mem_nil _
  listed key a isOwn known := by
    rw [none key isOwn] at known
    cases known

theorem perm {refs' : List Nat} (counts : Counts t own count keyOf refs) (same : refs.Perm refs') :
    Counts t own count keyOf refs' where
  held a mem := by
    obtain ⟨e, live, counted, known⟩ := counts.held a (same.mem_iff.mpr mem)
    exact ⟨e, live, counted.trans (same.count_eq a), known⟩
  listed key a isOwn known := by
    obtain ⟨mem, entry⟩ := counts.listed key a isOwn known
    exact ⟨same.mem_iff.mp mem, entry⟩

theorem entry (counts : Counts t own count keyOf refs) (mem : a ∈ refs)
    (live : t.heap.cells a = some e) :
    count e = refs.count a ∧ own (keyOf e) ∧ t.byId (keyOf e) = some a := by
  obtain ⟨e', live', known⟩ := counts.held a mem
  obtain rfl : e = e' := some.inj (live.symm.trans live')
  exact known

variable {f : Entry → Entry}

section

variable (counts : Counts t own count keyOf refs)

include counts

theorem update (b : Nat) (counted : ∀ e, count (f e) = count e) (keyed : ∀ e, keyOf (f e) = keyOf e) :
    Counts (t.update b f) own count keyOf refs := by
  have cell : ∀ a e, t.heap.cells a = some e → ∃ e', (t.update b f).heap.cells a = some e' ∧
      count e' = count e ∧ keyOf e' = keyOf e := by
    intro a e live
    by_cases same : a = b
    · subst same
      exact ⟨f e, by rw [RuleTable.update, update_cells_self, live, map_some],
        counted e, keyed e⟩
    · exact ⟨e, by rw [RuleTable.update, update_cells_of_ne same, live], rfl, rfl⟩
  refine ⟨fun a mem => ?_, fun key a isOwn known => ?_⟩
  · obtain ⟨e, live, number, isOwn, known⟩ := counts.held a mem
    obtain ⟨e', live', sameCount, sameKey⟩ := cell a e live
    exact ⟨e', live', sameCount.trans number, sameKey ▸ isOwn, sameKey ▸ known⟩
  · obtain ⟨mem, e, live, key_eq⟩ := counts.listed key a isOwn known
    obtain ⟨e', live', -, sameKey⟩ := cell a e live
    exact ⟨mem, e', live', sameKey.trans key_eq⟩

theorem link {key : RuleKey} {entry : Entry}
    (isOwn : own key) (keyed : ∀ e, keyOf (f e) = key) (first : count (f entry) = 1)
    (again : ∀ b e, t.byId key = some b → t.heap.cells b = some e → count (f e) = count e + 1) :
    Counts (t.upsert key entry f).2 own count keyOf ((t.upsert key entry f).1 :: refs) := by
  obtain ⟨e, up⟩ := RuleTable.upserted entry f fun b known =>
    (counts.listed key b isOwn known).2.imp fun _ => And.left
  generalize t.upsert key entry f = u at up ⊢
  have number : count (f e) = refs.count u.1 + 1 := by
    rcases up.origin with ⟨-, free, rfl⟩ | ⟨known, live⟩
    · have notHeld : u.1 ∉ refs := by
        intro mem
        obtain ⟨e, live, -⟩ := counts.held _ mem
        rw [free] at live
        cases live
      rw [first, count_eq_zero_of_not_mem notHeld]
    · rw [again _ e known live, (counts.entry (counts.listed key _ isOwn known).1 live).1]
  have self : ∃ e', u.2.heap.cells u.1 = some e' ∧ count e' = (u.1 :: refs).count u.1 ∧
      own (keyOf e') ∧ u.2.byId (keyOf e') = some u.1 :=
    ⟨f e, up.here, by rw [number, count_cons_self], keyed e ▸ isOwn, by rw [keyed, up.byId, add_self]⟩
  refine ⟨forall_mem_cons.mpr ⟨self, fun a mem => ?_⟩, fun other a otherOwn known => ?_⟩
  · by_cases same : a = u.1
    · exact same ▸ self
    · obtain ⟨e', live, number', ownKey, known⟩ := counts.held a mem
      have otherKey : keyOf e' ≠ key := by
        intro sameKey
        rw [sameKey] at known
        rcases up.origin with ⟨absent, -⟩ | ⟨here, -⟩
        · rw [absent] at known
          cases known
        · exact same (some.inj (known.symm.trans here))
      refine ⟨e', (up.elsewhere a same).trans live, ?_, ownKey, ?_⟩
      · rw [count_cons_of_ne (Ne.symm same), number']
      · rw [up.byId, add_of_ne otherKey, known]
  · rw [up.byId] at known
    by_cases same : other = key
    · subst same
      rw [add_self, some.injEq] at known
      subst known
      exact ⟨mem_cons_self .., f e, up.here, keyed e⟩
    · rw [add_of_ne same] at known
      obtain ⟨mem, e', live, sameKey⟩ := counts.listed other a otherOwn known
      refine ⟨mem_cons_of_mem _ mem, e', (up.elsewhere a ?_).trans live, sameKey⟩
      rintro rfl
      rcases up.origin with ⟨-, free, -⟩ | ⟨known', live'⟩
      · rw [free] at live
        cases live
      · obtain ⟨-, e'', live'', key_eq⟩ := counts.listed key _ isOwn known'
        obtain rfl : e'' = e' := some.inj (live''.symm.trans live)
        exact same (sameKey.symm.trans key_eq)

theorem drop (mem : a ∈ refs)
    (live : t.heap.cells a = some e) (more : 1 < count e) (less : count (f e) = count e - 1)
    (keyed : keyOf (f e) = keyOf e) : Counts (t.update a f) own count keyOf (refs.erase a) := by
  obtain ⟨number, ownKey, known⟩ := counts.entry mem live
  have here : (t.update a f).heap.cells a = some (f e) := by
    rw [RuleTable.update, update_cells_self, live, map_some]
  have elsewhere : ∀ b, b ≠ a → (t.update a f).heap.cells b = t.heap.cells b :=
    fun b ne => update_cells_of_ne ne
  refine ⟨fun b bMember => ?_, fun key b isOwn knownB => ?_⟩
  · by_cases same : b = a
    · subst same
      exact ⟨f e, here, by rw [less, count_erase_self, number], keyed ▸ ownKey,
        keyed ▸ known⟩
    · obtain ⟨e', live', number', rest⟩ := counts.held b (mem_of_mem_erase bMember)
      exact ⟨e', (elsewhere b same).trans live',
        by rw [number', count_erase_of_ne same], rest⟩
  · obtain ⟨bMember, e', live', sameKey⟩ := counts.listed key b isOwn knownB
    by_cases same : b = a
    · subst same
      obtain rfl : e = e' := some.inj (live.symm.trans live')
      refine ⟨count_pos_iff.mp ?_, f e, here, keyed.trans sameKey⟩
      rw [count_erase_self, ← number]
      omega
    · exact ⟨(mem_erase_of_ne same).mpr bMember, e', (elsewhere b same).trans live', sameKey⟩

theorem dropLast (mem : a ∈ refs) (live : t.heap.cells a = some e) (last : count e ≤ 1) :
    Counts { heap := t.heap.free a, byId := t.byId.del (keyOf e) } own count keyOf
      (refs.erase a) := by
  obtain ⟨number, ownKey, known⟩ := counts.entry mem live
  have gone : a ∉ refs.erase a := by
    rw [← count_pos_iff, count_erase_self, ← number]
    omega
  have elsewhere : ∀ b, b ≠ a → (t.heap.free a).cells b = t.heap.cells b :=
    fun b ne => free_cells_of_ne ne
  refine ⟨fun b bMember => ?_, fun key b isOwn knownB => ?_⟩
  · have ne : b ≠ a := fun same => gone (same ▸ bMember)
    obtain ⟨e', live', number', ownKey', known'⟩ := counts.held b (mem_of_mem_erase bMember)
    refine ⟨e', (elsewhere b ne).trans live', ?_, ownKey', ?_⟩
    · rw [number', count_erase_of_ne ne]
    · have otherKey : keyOf e' ≠ keyOf e := by
        intro same
        rw [same, known, some.injEq] at known'
        exact ne known'.symm
      exact (del_of_ne otherKey).trans known'
  · have otherKey : key ≠ keyOf e := by
      rintro rfl
      simp only [del_self] at knownB
      cases knownB
    have old : t.byId key = some b := (del_of_ne otherKey).symm.trans knownB
    obtain ⟨bMember, e', live', sameKey⟩ := counts.listed key b isOwn old
    have ne : b ≠ a := by
      rintro rfl
      obtain rfl : e = e' := some.inj (live.symm.trans live')
      exact otherKey sameKey.symm
    exact ⟨(mem_erase_of_ne ne).mpr bMember, e',
      (elsewhere b ne).trans live', sameKey⟩

end

end Counts

end Epc.Up
