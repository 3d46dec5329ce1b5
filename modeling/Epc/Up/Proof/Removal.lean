import Epc.Up.Proof.Counted

/-! What the removal of a PDR does to each of the tables, for lists that are as they should be. -/

namespace Epc.Up

open Epc.Lib List Option Table Heap

section

theorem successor_none {p : Nat} {l : List Nat} (mem : p ∈ l) (none : successor l p = none) :
    l.getLast? = some p := by
  induction l with
  | nil => cases mem
  | cons a rest ih =>
    cases rest with
    | nil =>
      obtain rfl := mem_singleton.mp mem
      rfl
    | cons b rest =>
      rw [successor] at none
      split at none
      · cases none
      · next ne =>
          have inRest : p ∈ b :: rest := by
            rcases mem_cons.mp mem with rfl | inRest
            · exact absurd rfl ne
            · exact inRest
          rw [getLast?_cons_cons]
          exact ih inRest none

theorem removePdrNode_mem {pdrs : List Nat} {p : Nat} {next : Option Nat} (member : p ∈ pdrs)
    (nodup : pdrs.Nodup) (last : next = none → pdrs.getLast? = some p) :
    removePdrNode pdrs p next = (pdrs.erase p, some p) := by
  cases pdrs with
  | nil => cases member
  | cons head rest =>
    simp only [removePdrNode]
    by_cases first : p = head
    · subst first
      rw [if_pos rfl, erase_cons_head]
    · have inRest : p ∈ rest := (mem_cons.mp member).resolve_left first
      rw [if_neg first, if_pos inRest]
      by_cases ends : next = none
      · have lastIs := last ends
        rw [if_pos ends, lastIs]
        obtain ⟨front, front_eq⟩ := getLast?_eq_some_iff.mp lastIs
        rw [front_eq] at nodup ⊢
        have notFront : p ∉ front := by
          rw [nodup_append] at nodup
          exact fun mem => nodup.2.2 p mem p (mem_singleton_self p) rfl
        rw [dropLast_concat, erase_append_right _ notFront, erase_cons_head, append_nil]
      · rw [if_neg ends]

/-- On a heap the function leaves the list that it leaves of the addresses. -/
theorem removePdrNode_chain {α : Type*} {heap : Heap (Node α)} {head : Option Nat} {l : List Nat}
    {p : Nat} {cell : Node α} (chain : heap.Chain head l) (live : heap.cells p = some cell) :
    ∃ head' heap', Llist.removePdrNode heap head p = some (head', heap') ∧
      heap'.Chain head' (removePdrNode l p cell.next).1 := by
  by_cases member : p ∈ l
  · have last : cell.next = none → l.getLast? = some p := by
      obtain ⟨before, after, rfl⟩ := append_of_mem member
      intro ends
      have behind := chain.behind live
      rw [ends, Chain.nil_iff] at behind
      rw [behind, getLast?_append, getLast?_singleton, some_or]
    rw [removePdrNode_mem member chain.nodup last]
    by_cases first : head = some p
    · subst first
      obtain ⟨done, rest⟩ := Llist.removeNode_first (·.next) chain live
      exact ⟨_, _, done, rest⟩
    · exact Llist.removeNode_later (·.next) chain live member first
  · have outside : (removePdrNode l p cell.next).1 = if cell.next = none then l.dropLast else l := by
      cases l with
      | nil => simp [removePdrNode]
      | cons a rest =>
        obtain ⟨ne, notRest⟩ := not_or.mp (mem_cons.not.mp member)
        simp only [removePdrNode, if_neg ne, if_neg notRest]
        split <;> rfl
    rw [outside]
    exact Llist.removeNode_outside (·.next) chain live member

theorem flatMap_perm_cons {L : List Nat} {f g : Nat → List Nat} {a p : Nat} (member : a ∈ L)
    (nodup : L.Nodup) (taken : (f a).Perm (p :: g a)) (others : ∀ b, b ≠ a → g b = f b) :
    (L.flatMap f).Perm (p :: L.flatMap g) := by
  induction L with
  | nil => cases member
  | cons b L ih =>
    rw [nodup_cons] at nodup
    rw [flatMap_cons, flatMap_cons]
    by_cases same : b = a
    · subst same
      have rest : L.flatMap g = L.flatMap f :=
        flatMap_congr fun c mem => others c fun same => nodup.1 (same ▸ mem)
      rw [rest]
      exact taken.append_right _
    · have inRest : a ∈ L := (mem_cons.mp member).resolve_left (Ne.symm same)
      rw [others b same]
      calc f b ++ L.flatMap f
        _ |>.Perm (f b ++ p :: L.flatMap g) := (ih inRest nodup.2).append_left _
        _ |>.Perm (p :: (f b ++ L.flatMap g)) := perm_middle

theorem flatMap_erase {L : List Nat} {g : Nat → List Nat} {a : Nat} (empty : g a = []) :
    (L.erase a).flatMap g = L.flatMap g := by
  induction L with
  | nil => rfl
  | cons b L ih =>
    by_cases same : b = a
    · subst same
      rw [erase_cons_head, flatMap_cons, empty, nil_append]
    · rw [erase_cons_tail (by simpa using same), flatMap_cons, flatMap_cons, ih]

end

section

variable {sess : PfcpSession}

theorem removeQers_chain (sess : PfcpSession) {l : List Nat} {head : Option Nat} {t : RuleTable (Node QerInfo)}
    {fuel : Nat} (chain : t.heap.Chain head l) (enough : l.length ≤ fuel) :
    ∃ t', removeQers sess fuel head t = .ok t' ∧
      (∀ b, b ∉ l → t'.heap.cells b = t.heap.cells b) ∧
      (∀ key, t'.byId key = t.byId key ∨ t'.byId key = none ∧
        ∃ a ∈ l, ∃ node, t.heap.cells a = some node ∧ key = sess.ruleKey node.data.qerId) ∧
      ∀ a ∈ l, ∀ node, t.heap.cells a = some node →
        t'.byId (sess.ruleKey node.data.qerId) = none := by
  induction l generalizing head t fuel with
  | nil =>
    cases chain
    refine ⟨t, ?_, fun _ _ => rfl, fun _ => .inl rfl, forall_mem_nil _⟩
    cases fuel <;> rfl
  | cons a rest ih =>
    have nodup := chain.nodup
    rw [nodup_cons] at nodup
    cases chain with
    | @cons _ node _ live tail =>
      obtain ⟨fuel, rfl⟩ : ∃ n, fuel = n + 1 := ⟨fuel - 1, by
        simp only [length_cons] at enough
        omega⟩
      have tail' : (t.heap.free a).Chain node.next rest := tail.frame fun b mem => by
        have ne : b ≠ a := fun same => nodup.1 (same ▸ mem)
        rw [free_cells_of_ne ne]
      have enoughRest : rest.length ≤ fuel := by
        simp only [length_cons] at enough
        omega
      obtain ⟨t', run, cells, byId, deleted⟩ :=
        ih (t := { heap := t.heap.free a, byId := t.byId.del (sess.ruleKey node.data.qerId) })
          tail' enoughRest
      have cellOf : ∀ b, b ≠ a → (t.heap.free a).cells b = t.heap.cells b :=
        fun b ne => free_cells_of_ne ne
      refine ⟨t', ?_, fun b outside => ?_, fun key => ?_, ?_⟩
      · simp only [removeQers, Llist.removeQerNode, Llist.removeNode, Heap.removeNode, live, if_true]
        exact run
      · obtain ⟨ne, notRest⟩ := not_or.mp (mem_cons.not.mp outside)
        exact (cells b notRest).trans (cellOf b ne)
      · rcases byId key with same | ⟨none, b, mem, node', live', key_eq⟩
        · by_cases here : key = sess.ruleKey node.data.qerId
          · refine .inr ⟨?_, a, mem_cons_self .., node, live, here⟩
            rw [same, here]
            exact del_self _ _
          · exact .inl (same.trans (del_of_ne here))
        · have ne : b ≠ a := fun same => nodup.1 (same ▸ mem)
          refine .inr ⟨none, b, mem_cons_of_mem _ mem, node', ?_, key_eq⟩
          exact (cellOf b ne).symm.trans live'
      · refine forall_mem_cons.mpr ⟨fun node' live' => ?_, fun b mem node' live' => ?_⟩
        · obtain rfl : node = node' := some.inj (live.symm.trans live')
          rcases byId (sess.ruleKey node.data.qerId) with same | ⟨none, -⟩
          · rw [same]
            exact del_self _ _
          · exact none
        · have ne : b ≠ a := fun same => nodup.1 (same ▸ mem)
          exact deleted b mem node' ((cellOf b ne).trans live')

def farCounts (sess : PfcpSession) (t : RuleTable FarInfo) (refs : List Nat) : Prop :=
  Counts t (fun key => ∃ id, key = sess.ruleKey id) (·.pdrCount.toNat)
    (fun far => sess.ruleKey far.farIdValue.toUInt16.toUInt32) refs

def urrCounts (sess : PfcpSession) (t : RuleTable (Node UrrRule)) (refs : List Nat) : Prop :=
  Counts t (fun key => ∃ id, key = sess.ruleKey id) (·.data.pdrCount.toNat)
    (fun node => sess.ruleKey node.data.info.urrId) refs

theorem toNat_sub_one {x : UInt16} (more : 1 < x) : (x - 1).toNat = x.toNat - 1 := by
  have large : 1 ≤ x.toNat := by
    have := UInt16.lt_iff_toNat_lt.mp more
    simp at this
    omega
  rw [UInt16.toNat_sub_of_le _ _ (UInt16.le_iff_toNat_le.mpr (by simpa using large))]
  rfl

theorem one_lt_iff {x : UInt16} : 1 < x ↔ 1 < x.toNat := by
  rw [UInt16.lt_iff_toNat_lt]
  rfl

theorem removeFar_counts {t : RuleTable FarInfo} {refs : List Nat} {a : Nat}
    (counts : farCounts sess t refs) (mem : a ∈ refs) :
    ∃ t', removeFar sess (some a) t = .ok t' ∧ farCounts sess t' (refs.erase a) := by
  obtain ⟨far, live, -, -, known⟩ := counts.held a mem
  simp only [removeFar, live]
  by_cases more : 1 < far.pdrCount
  · rw [if_pos more]
    exact ⟨_, rfl, counts.drop mem live (one_lt_iff.mp more) (toNat_sub_one more) rfl⟩
  · rw [if_neg more, delFarInfoEntry, known]
    refine ⟨_, rfl, counts.dropLast mem live ?_⟩
    rw [one_lt_iff] at more
    omega

theorem removeUrrs_counts {t : RuleTable (Node UrrRule)} {refs : List Nat} {a : Nat} (fuel : Nat)
    (counts : urrCounts sess t refs) (mem : a ∈ refs)
    (ends : ∀ node, t.heap.cells a = some node → node.next = none) :
    ∃ t', removeUrrs sess (fuel + 1) (some a) (some a) t = .ok t' ∧
      urrCounts sess t' (refs.erase a) ∧
      ∀ b node, t'.heap.cells b = some node →
        ∃ old, t.heap.cells b = some old ∧ node.next = old.next := by
  obtain ⟨node, live, -, -, known⟩ := counts.held a mem
  simp only [removeUrrs, live, ends node live]
  by_cases more : 1 < node.data.pdrCount
  · rw [if_pos more]
    refine ⟨_, by cases fuel <;> rfl, counts.drop mem live (one_lt_iff.mp more)
      (toNat_sub_one more) rfl, fun b node' live' => ?_⟩
    by_cases same : b = a
    · subst same
      rw [RuleTable.update, update_cells_self, live, map_some, some.injEq]
        at live'
      subst live'
      exact ⟨node, live, rfl⟩
    · rw [RuleTable.update, update_cells_of_ne same] at live'
      exact ⟨node', live', rfl⟩
  · rw [if_neg more]
    have removed : Llist.removeUrrNode t.heap (some a) a = some (none, t.heap.free a) := by
      simp only [Llist.removeUrrNode, Llist.removeNode, Heap.removeNode, live, if_true]
    simp only [removed]
    refine ⟨_, by cases fuel <;> rfl, counts.dropLast mem live ?_, fun b node' live' => ?_⟩
    · rw [one_lt_iff] at more
      omega
    · have ne : b ≠ a := by
        rintro rfl
        simp only [free_cells_self] at live'
        cases live'
      rw [free_cells_of_ne ne] at live'
      exact ⟨node', live', rfl⟩

end

end Epc.Up
