import Epc.Lib.Chain

/-! The removal of a node from the lists of session data, PDRs, QERs and URRs, `dp/pfcp_up_llist.c`. -/

namespace Epc.Up.Llist

open Epc.Lib List Option

variable {α : Type*}

/-- The body of the four functions; `afterFirst` is the head after removing the first node. -/
def removeNode (afterFirst : Node α → Option Nat) (heap : Heap (Node α)) (head : Option Nat)
    (node : Nat) : Option (Option Nat × Heap (Node α)) :=
  match head with
  | none => some (none, heap)
  | some first => heap.removeNode afterFirst first node

def removeSessDataNode : Heap (Node α) → Option Nat → Nat → Option (Option Nat × Heap (Node α)) :=
  removeNode (·.next)

def removePdrNode : Heap (Node α) → Option Nat → Nat → Option (Option Nat × Heap (Node α)) :=
  removeNode (·.next)

def removeQerNode : Heap (Node α) → Option Nat → Nat → Option (Option Nat × Heap (Node α)) :=
  removeNode (·.next)

/-- `remove_urr_node`: `remove_urr_first_node` returns NULL. -/
def removeUrrNode : Heap (Node α) → Option Nat → Nat → Option (Option Nat × Heap (Node α)) :=
  removeNode fun _ => none

inductive RuleList where
  | sessData
  | pdr
  | qer
  | urr
  deriving DecidableEq, Repr

def RuleList.remove : RuleList → Heap (Node α) → Option Nat → Nat →
    Option (Option Nat × Heap (Node α))
  | .sessData => removeSessDataNode
  | .pdr => removePdrNode
  | .qer => removeQerNode
  | .urr => removeUrrNode

/-- The head that is returned heads the list without the node. -/
def Removes (l : List Nat) (node : Nat) (result : Option (Option Nat × Heap (Node α))) : Prop :=
  ∃ head heap, result = some (head, heap) ∧ heap.Chain head (l.erase node)

variable {heap : Heap (Node α)} {head : Option Nat} {l : List Nat} {node : Nat} {cell : Node α}

section

variable (afterFirst : Node α → Option Nat)

theorem removeNode_first (chain : heap.Chain (some node) l) (live : heap.cells node = some cell) :
    removeNode afterFirst heap (some node) node = some (afterFirst cell, heap.free node) ∧
      (heap.free node).Chain cell.next (l.erase node) := by
  refine ⟨by simp only [removeNode, Heap.removeNode, live, if_true], ?_⟩
  have nodup := chain.nodup
  cases chain with
  | cons live' tail =>
    obtain rfl : cell = _ := some.inj (live.symm.trans live')
    rw [erase_cons_head]
    refine tail.frame fun a inTail => ?_
    rw [Heap.free_cells_of_ne (ne_of_mem_of_not_mem inTail (nodup_cons.mp nodup).1)]

theorem removeNode_later (chain : heap.Chain head l)
    (live : heap.cells node = some cell) (mem : node ∈ l) (later : head ≠ some node) :
    Removes l node (removeNode afterFirst heap head node) := by
  have nodup := chain.nodup
  obtain ⟨before, after, rfl⟩ := append_of_mem mem
  have fresh : node ∉ before := fun again =>
    (nodup_append.mp nodup).2.2 node again node (mem_cons_self ..) rfl
  obtain ⟨first, rfl⟩ : ∃ first, head = some first := by
    rw [chain.head_eq]
    cases before <;> exact ⟨_, rfl⟩
  have ne : node ≠ first := fun same => later (same ▸ rfl)
  have behind := chain.behind live
  rw [Removes, erase_append_right _ fresh, erase_cons_head]
  simp only [removeNode, Heap.removeNode, live, if_neg ne]
  cases next : cell.next with
  | none =>
    rw [next, Heap.Chain.nil_iff] at behind
    subst behind
    rw [append_nil]
    exact chain.removeLast
  | some b =>
    rcases eq_nil_or_concat' before with rfl | ⟨front, c, rfl⟩
    · exact absurd chain.head_eq later
    · have chain : heap.Chain (some first) (front ++ c :: node :: after) := by simpa using chain
      have found : heap.nodeBefore node heap.next first = some (some c) := chain.nodeBefore
        (by have := chain.length_le; simp at this; omega)
      simp only [found]
      refine ⟨_, _, rfl, ?_⟩
      have unlinked := chain.unlink live
      rw [next] at unlinked
      simpa using unlinked

theorem removeNode_outside (chain : heap.Chain head l)
    (live : heap.cells node = some cell) (absent : node ∉ l) :
    ∃ head' heap', removeNode afterFirst heap head node = some (head', heap') ∧
      heap'.Chain head' (if cell.next = none then l.dropLast else l) := by
  cases head with
  | none =>
    obtain rfl := Heap.Chain.nil_iff.mp chain
    exact ⟨none, heap, rfl, by simpa using Heap.Chain.nil⟩
  | some first =>
    have ne : node ≠ first := by
      rintro rfl
      cases chain
      exact absent (mem_cons_self ..)
    simp only [removeNode, Heap.removeNode, live, if_neg ne]
    cases next : cell.next with
    | none =>
      have filled : l ≠ [] := by
        rintro rfl
        cases chain
      obtain ⟨front, last, rfl⟩ := (eq_nil_or_concat' l).resolve_left filled
      rw [if_pos rfl, dropLast_concat]
      exact chain.removeLast
    | some b =>
      simp only [chain.nodeBefore_none absent chain.length_le]
      exact ⟨_, _, rfl, chain⟩

theorem removeNode_outside_iff (chain : heap.Chain head l)
    (live : heap.cells node = some cell) (absent : node ∉ l) :
    Removes l node (removeNode afterFirst heap head node) ↔ (l ≠ [] → cell.next ≠ none) := by
  obtain ⟨head', heap', done, chain'⟩ := removeNode_outside afterFirst chain live absent
  rw [Removes, erase_of_not_mem absent, done]
  constructor
  · rintro ⟨_, _, done', same⟩ filled ends
    cases done'
    rw [if_pos ends] at chain'
    have shorter := congrArg List.length (chain'.unique same)
    rw [length_dropLast] at shorter
    have := length_pos_of_ne_nil filled
    omega
  · intro kept
    refine ⟨head', heap', rfl, ?_⟩
    rcases eq_or_ne l [] with rfl | filled
    · simpa using chain'
    · rwa [if_neg (kept filled)] at chain'

end

/-- A removal leaves the list without the node, except that removing the first URR of several loses
the others, and a node off the list that nothing follows takes the last one with it. -/
theorem remove_removes_iff (list : RuleList) (chain : heap.Chain head l)
    (live : heap.cells node = some cell) :
    Removes l node (list.remove heap head node) ↔
      (node ∈ l → list = .urr → head = some node → l = [node]) ∧
        (node ∉ l → l ≠ [] → cell.next ≠ none) := by
  by_cases member : node ∈ l
  · have outside : node ∉ l → l ≠ [] → cell.next ≠ none := fun absent => absurd member absent
    rw [and_iff_left outside]
    by_cases first : head = some node
    · subst first
      have firstRemoved : ∀ afterFirst : Node α → Option Nat,
          Removes l node (removeNode afterFirst heap (some node) node) ↔
            (heap.free node).Chain (afterFirst cell) (l.erase node) := by
        intro afterFirst
        rw [Removes, (removeNode_first afterFirst chain live).1]
        simp
      have others := (firstRemoved (·.next)).mpr (removeNode_first (·.next) chain live).2
      cases list with
      | sessData | pdr | qer => exact iff_of_true others fun _ isUrr => nomatch isUrr
      | urr =>
        refine (firstRemoved fun _ => none).trans ?_
        rw [Heap.Chain.nil_iff]
        cases chain with
        | cons _ _ => simp
    · have removed := fun afterFirst => removeNode_later afterFirst chain live member first
      refine iff_of_true ?_ fun _ _ isFirst => absurd isFirst first
      cases list with
      | sessData | pdr | qer | urr => exact removed _
  · have inside : node ∈ l → list = .urr → head = some node → l = [node] := fun mem => absurd mem member
    have unchanged := fun afterFirst => removeNode_outside_iff afterFirst chain live member
    rw [and_iff_right inside, forall_prop_of_true member]
    cases list with
    | sessData | pdr | qer | urr => exact unchanged _

/-- Three nodes in a row, and one apart from them. -/
def threeNodes : Heap (Node Unit) where
  cells
    | 0 => some { data := (), next := some 1 }
    | 1 => some { data := (), next := some 2 }
    | 2 | 3 => some { data := () }
    | _ => none
  next := 4
  fresh a above := by
    match a, above with
    | a + 4, _ => rfl

theorem chain_threeNodes : threeNodes.Chain (some 0) [0, 1, 2] :=
  .cons rfl (.cons rfl (.cons rfl .nil))

theorem remove_removes_middle : Removes [0, 1, 2] 1 (RuleList.urr.remove threeNodes (some 0) 1) :=
  (remove_removes_iff .urr chain_threeNodes rfl).mpr (by decide)

/-- The first URR takes the others with it, a node of its own the last one. -/
theorem first_urr_loses_list :
    ¬ Removes [0, 1, 2] 0 (RuleList.urr.remove threeNodes (some 0) 0) ∧
      ¬ Removes [0, 1, 2] 3 (RuleList.pdr.remove threeNodes (some 0) 3) := by
  constructor
  · rintro ⟨head, heap, done, chain⟩
    cases done
    cases chain
  · exact (removeNode_outside_iff (·.next) chain_threeNodes rfl (by decide)).not.mpr (by decide)

end Epc.Up.Llist
