import Epc.Lib.Table

/-! Linked lists in a heap: nodes that refer to the next one by address, the walk to the last node
that an insertion at the tail makes, and the removal of a node. -/

namespace Epc.Lib

open List Option

/-- A cell of a linked list. -/
structure Node (α : Type*) where
  data : α
  next : Option Nat := none
  deriving DecidableEq, Repr

namespace Node

variable {α : Type*}

def modify (f : α → α) (node : Node α) : Node α :=
  { node with data := f node.data }

end Node

namespace Heap

variable {α : Type*} {last : Nat} {cell : Node α} {before after : List Nat} {heap' : Heap (Node α)}

/-- The last node from an address on, none for a dead address or more than `fuel` nodes. -/
def lastNode (heap : Heap (Node α)) : Nat → Nat → Option Nat
  | 0, _ => none
  | fuel + 1, a =>
    match heap.cells a with
    | none => none
    | some node =>
      match node.next with
      | none => some a
      | some b => heap.lastNode fuel b

/-- The last node from an address on and the one before it. -/
def lastTwo (heap : Heap (Node α)) : Nat → Option Nat → Nat → Option (Option Nat × Nat)
  | 0, _, _ => none
  | fuel + 1, before, a =>
    match heap.cells a with
    | none => none
    | some node =>
      match node.next with
      | none => some (before, a)
      | some b => heap.lastTwo fuel (some a) b

/-- The node whose next one is `target`, `none` inside if the list ends without one. -/
def nodeBefore (heap : Heap (Node α)) (target : Nat) : Nat → Nat → Option (Option Nat)
  | 0, _ => none
  | fuel + 1, a =>
    match heap.cells a with
    | none => none
    | some node =>
      if node.next = some target then some (some a)
      else
        match node.next with
        | none => some none
        | some b => heap.nodeBefore target fuel b

/-- The last node is unlinked and freed; the new head comes with the heap. -/
def removeLast (heap : Heap (Node α)) (head : Nat) : Option (Option Nat × Heap (Node α)) :=
  match heap.lastTwo heap.next none head with
  | none => none
  | some (before, last) =>
    let unlinked :=
      match before with
      | none => heap
      | some b => heap.update b fun node => { node with next := none }
    some (if last = head then none else some head, unlinked.free last)

/-- A node is unlinked and freed: the first one, after which the head is `afterFirst`, the last one,
or one in the middle. None for a dead address. -/
def removeNode (heap : Heap (Node α)) (afterFirst : Node α → Option Nat) (head node : Nat) :
    Option (Option Nat × Heap (Node α)) :=
  match heap.cells node with
  | none => none
  | some removed =>
    if node = head then some (afterFirst removed, heap.free head)
    else
      match removed.next with
      | none => heap.removeLast head
      | some _ =>
        match heap.nodeBefore node heap.next head with
        | none => none
        | some none => some (some head, heap)
        | some (some before) =>
          some (some head,
            (heap.update before fun b => { b with next := removed.next }).free node)

/-- The addresses that a walk of at most `fuel` nodes passes. -/
def addresses (heap : Heap (Node α)) : Nat → Option Nat → List Nat
  | _, none => []
  | 0, some _ => []
  | fuel + 1, some a =>
    match heap.cells a with
    | none => []
    | some node => a :: heap.addresses fuel node.next

/-- The addresses of the nodes from a pointer on. -/
inductive Chain (heap : Heap (Node α)) : Option Nat → List Nat → Prop
  | nil : Chain heap none []
  | cons {a : Nat} {node : Node α} {rest : List Nat} :
      heap.cells a = some node → Chain heap node.next rest → Chain heap (some a) (a :: rest)

variable {heap : Heap (Node α)} {head : Option Nat} {l : List Nat} {fuel a : Nat}

theorem Chain.nil_iff : Chain heap none l ↔ l = [] := by
  constructor
  · intro chain
    cases chain
    rfl
  · rintro rfl
    exact .nil

theorem Chain.unique {l' : List Nat}
    (first : Chain heap head l) (second : Chain heap head l') : l = l' := by
  induction first generalizing l' with
  | nil => exact (Chain.nil_iff.mp second).symm
  | cons live _ ih =>
    cases second with
    | cons live' rest' =>
      rw [live, some.injEq] at live'
      subst live'
      rw [ih rest']

theorem Chain.live (chain : Chain heap head l) (mem : a ∈ l) : ∃ node, heap.cells a = some node := by
  induction chain with
  | nil => cases mem
  | @cons b node rest live _ ih =>
    rcases mem_cons.mp mem with rfl | inRest
    · exact ⟨node, live⟩
    · exact ih inRest

theorem Chain.singleton_iff {node : Node α} (live : heap.cells a = some node) (ends : node.next = none) :
    Chain heap (some a) l ↔ l = [a] := by
  constructor
  · intro chain
    cases chain with
    | cons live' rest =>
      rw [live, some.injEq] at live'
      subst live'
      rw [ends, Chain.nil_iff] at rest
      rw [rest]
  · rintro rfl
    exact .cons live (ends ▸ .nil)

section

variable (chain : Chain heap head l)

include chain

theorem Chain.rest (mem : a ∈ l) :
    ∃ before after, l = before ++ a :: after ∧ Chain heap (some a) (a :: after) := by
  induction chain with
  | nil => cases mem
  | @cons b node rest live tail ih =>
    rcases mem_cons.mp mem with rfl | inRest
    · exact ⟨[], rest, rfl, .cons live tail⟩
    · obtain ⟨before, after, rfl, chain⟩ := ih inRest
      exact ⟨b :: before, after, rfl, chain⟩

theorem Chain.nodup : l.Nodup := by
  induction chain with
  | nil => exact nodup_nil
  | @cons a node rest live tail ih =>
    refine nodup_cons.mpr ⟨fun again => ?_, ih⟩
    obtain ⟨before, after, rfl, fromA⟩ := tail.rest again
    have same := congrArg List.length (fromA.unique (.cons live tail))
    simp only [length_cons, length_append] at same
    omega

theorem Chain.length_le : l.length ≤ heap.next := by
  have bounded : ∀ a ∈ l, a ∈ List.range heap.next := by
    intro a mem
    obtain ⟨node, live⟩ := chain.live mem
    exact mem_range.mpr (live_lt live)
  simpa using (chain.nodup.subperm bounded).length_le

theorem Chain.addresses_eq (enough : l.length ≤ fuel) : heap.addresses fuel head = l := by
  induction chain generalizing fuel with
  | nil => cases fuel <;> rfl
  | @cons a node rest live tail ih =>
    cases fuel with
    | zero => cases enough
    | succ fuel =>
      simp only [Heap.addresses, live]
      rw [ih (by simp only [length_cons] at enough; omega)]

/-- A chain only depends on its own nodes, and of these on the links. -/
theorem Chain.frame (kept : ∀ a ∈ l, (heap'.cells a).map Node.next = (heap.cells a).map Node.next) :
    Chain heap' head l := by
  induction chain with
  | nil => exact .nil
  | @cons a node rest live tail ih =>
    obtain ⟨same, keptRest⟩ := forall_mem_cons.mp kept
    rw [live, map_some, map_eq_some_iff] at same
    obtain ⟨node', live', next⟩ := same
    exact .cons live' (next ▸ ih keptRest)

end

theorem Chain.lastNode (chain : Chain heap (some a) l) (enough : l.length ≤ fuel) :
    ∃ last node, heap.lastNode fuel a = some last ∧ last ∈ l ∧ heap.cells last = some node ∧
      node.next = none := by
  induction fuel generalizing a l with
  | zero =>
    cases chain
    cases enough
  | succ fuel ih =>
    cases chain with
    | @cons _ node rest live tail =>
      simp only [Heap.lastNode, live]
      cases next : node.next with
      | none => exact ⟨a, node, rfl, mem_cons_self .., live, next⟩
      | some b =>
        rw [next] at tail
        obtain ⟨last, node', found, mem, live', ends⟩ :=
          ih tail (by simp only [length_cons] at enough; omega)
        exact ⟨last, node', found, mem_cons_of_mem _ mem, live', ends⟩

/-- A node put behind the last one ends every chain with the last one, and changes no other. -/
theorem Chain.append {lastCell : Node α} (node : Node α) (chain : Chain heap head l)
    (lastLive : heap.cells last = some lastCell) (ends : lastCell.next = none)
    (alone : node.next = none) :
    Chain ((heap.alloc node).update last fun n => { n with next := some heap.next }) head
      (if last ∈ l then l ++ [heap.next] else l) := by
  induction chain with
  | nil => simpa using Chain.nil
  | @cons a cell rest live tail ih =>
    have old : a ≠ heap.next := (live_lt live).ne
    by_cases same : a = last
    · subst same
      obtain rfl : cell = lastCell := some.inj (live.symm.trans lastLive)
      rw [ends, Chain.nil_iff] at tail
      subst tail
      rw [if_pos (mem_singleton_self a)]
      have cell_eq : ((heap.alloc node).update a
          fun n => { n with next := some heap.next }).cells a =
            some { cell with next := some heap.next } := by
        rw [update_cells_self, alloc_cells_of_ne old, live, map_some]
      have node_eq : ((heap.alloc node).update a
          fun n => { n with next := some heap.next }).cells heap.next = some node := by
        rw [update_cells_of_ne old.symm, alloc_cells_next]
      exact .cons cell_eq (.cons node_eq (alone ▸ .nil))
    · have cell_eq : ((heap.alloc node).update last
          fun n => { n with next := some heap.next }).cells a = some cell := by
        rw [update_cells_of_ne same, alloc_cells_of_ne old, live]
      by_cases inRest : last ∈ rest
      · rw [if_pos inRest] at ih
        rw [if_pos (mem_cons_of_mem _ inRest)]
        exact .cons cell_eq ih
      · rw [if_neg inRest] at ih
        rw [if_neg (by simp [Ne.symm same, inRest])]
        exact .cons cell_eq ih

theorem Chain.behind {before rest : List Nat} (chain : Chain heap head (before ++ a :: rest))
    (live : heap.cells a = some cell) : Chain heap cell.next rest := by
  induction before generalizing head with
  | nil =>
    cases chain with
    | cons live' tail =>
      obtain rfl : cell = _ := some.inj (live.symm.trans live')
      exact tail
  | cons b before ih =>
    cases chain with
    | cons _ tail => exact ih tail

theorem Chain.relink {before rest rest' : List Nat} (chain : Chain heap head (before ++ a :: rest))
    (kept : ∀ b ∈ before, heap'.cells b = heap.cells b) (live : heap'.cells a = some cell)
    (after : Chain heap' cell.next rest') : Chain heap' head (before ++ a :: rest') := by
  induction before generalizing head with
  | nil =>
    cases chain
    exact .cons live after
  | cons b before ih =>
    obtain ⟨first, others⟩ := forall_mem_cons.mp kept
    cases chain with
    | cons liveB tail => exact .cons (first.trans liveB) (ih tail others)

theorem Chain.unlink {b : Nat}
    (chain : Chain heap head (before ++ b :: a :: after)) (live : heap.cells a = some cell) :
    Chain ((heap.update b fun node => { node with next := cell.next }).free a) head
      (before ++ b :: after) := by
  have nodup := chain.nodup
  simp only [nodup_append, nodup_cons, mem_cons, not_or] at nodup
  obtain ⟨-, ⟨⟨other, notAfter⟩, fresh, -⟩, apart⟩ := nodup
  obtain ⟨cellB, liveB⟩ := chain.live (a := b) (by simp)
  have elsewhere : ∀ c, c ≠ a → c ≠ b →
      ((heap.update b fun node => { node with next := cell.next }).free a).cells c = heap.cells c := by
    intro c notA notB
    rw [free_cells_of_ne notA, update_cells_of_ne notB]
  have linked : ((heap.update b fun node => { node with next := cell.next }).free a).cells b =
      some { cellB with next := cell.next } := by
    rw [free_cells_of_ne other, update_cells_self, liveB, map_some]
  refine chain.relink (fun c inBefore => ?_) linked ?_
  · exact elsewhere c (apart c inBefore a (by simp)) (apart c inBefore b (by simp))
  · rw [append_cons] at chain
    refine (chain.behind live).frame fun c inAfter => ?_
    rw [elsewhere c (fun same => fresh (same ▸ inAfter)) fun same => notAfter (same ▸ inAfter)]

theorem Chain.lastTwo {before : Option Nat} (chain : Chain heap (some a) (l ++ [last]))
    (enough : l.length < fuel) : heap.lastTwo fuel before a = some (l.getLast?.or before, last) := by
  induction fuel generalizing a l before with
  | zero => cases enough
  | succ fuel ih =>
    cases l with
    | nil =>
      cases chain with
      | @cons _ node _ live tail =>
        cases next : node.next with
        | none => simp only [Heap.lastTwo, live, next, getLast?_nil, none_or]
        | some b =>
          rw [next] at tail
          cases tail
    | cons c l =>
      cases chain with
      | @cons _ node _ live tail =>
        cases next : node.next with
        | none =>
          rw [next, Chain.nil_iff] at tail
          simp at tail
        | some b =>
          rw [next] at tail
          simp only [Heap.lastTwo, live, next, ih tail (Nat.lt_of_succ_lt_succ enough)]
          cases l with
          | nil => rfl
          | cons d l => simp [getLast?_cons]

theorem Chain.removeLast (chain : Chain heap (some a) (l ++ [last])) :
    ∃ head' heap', heap.removeLast a = some (head', heap') ∧ Chain heap' head' l := by
  have found : heap.lastTwo heap.next none a = some (l.getLast?.or none, last) :=
    chain.lastTwo (by simpa using chain.length_le)
  obtain ⟨node, live⟩ := chain.live (a := last) (by simp)
  have ends : node.next = none := by
    have behind := chain.behind live
    cases next : node.next with
    | none => rfl
    | some b =>
      rw [next] at behind
      cases behind
  rcases eq_nil_or_concat l with rfl | ⟨front, b, rfl⟩
  · refine ⟨_, _, by rw [Heap.removeLast, found], ?_⟩
    cases chain
    simpa using Chain.nil
  · have ne : last ≠ a := by
      rintro rfl
      have nodup := chain.nodup
      cases front <;> cases chain <;> simp at nodup
    refine ⟨_, _, by rw [Heap.removeLast, found], ?_⟩
    rw [if_neg ne]
    have unlinked := (show Chain heap (some a) (front ++ b :: last :: []) by simpa using chain).unlink live
    simpa [ends] using unlinked

theorem Chain.head_eq (chain : Chain heap head l) : head = l.head? := by
  cases chain <;> rfl

theorem Chain.nodeBefore {b c : Nat} (chain : Chain heap (some c) (before ++ b :: a :: after))
    (enough : before.length < fuel) : heap.nodeBefore a fuel c = some (some b) := by
  induction fuel generalizing before c with
  | zero => cases enough
  | succ fuel ih =>
    have nodup := chain.nodup
    cases before with
    | nil =>
      cases chain with
      | cons live tail => simp only [Heap.nodeBefore, live, tail.head_eq, head?_cons, if_true]
    | cons d before =>
      cases chain with
      | @cons _ node _ live tail =>
        have next : node.next = (before ++ b :: a :: after).head? := tail.head_eq
        obtain ⟨e, first⟩ : ∃ e, (before ++ b :: a :: after).head? = some e := by
          cases before <;> exact ⟨_, rfl⟩
        have other : e ≠ a := by
          rintro rfl
          cases before <;> simp_all
        rw [first] at next
        rw [next] at tail
        simp only [Heap.nodeBefore, live, next, some.injEq, if_neg other]
        exact ih tail (Nat.lt_of_succ_lt_succ enough)

theorem Chain.nodeBefore_none {c : Nat} (chain : Chain heap (some c) l) (absent : a ∉ l)
    (enough : l.length ≤ fuel) : heap.nodeBefore a fuel c = some none := by
  induction fuel generalizing l c with
  | zero =>
    cases chain
    cases enough
  | succ fuel ih =>
    cases chain with
    | @cons _ node rest live tail =>
      rw [mem_cons, not_or] at absent
      have next := tail.head_eq
      cases rest with
      | nil => simp only [Heap.nodeBefore, live, next, head?_nil, reduceCtorEq, if_false]
      | cons d rest =>
        rw [head?_cons] at next
        rw [next] at tail
        have other : d ≠ a := fun same => absent.2 (same ▸ mem_cons_self ..)
        simp only [Heap.nodeBefore, live, next, some.injEq, if_neg other]
        exact ih tail absent.2 (Nat.le_of_succ_le_succ enough)

end Heap

end Epc.Lib
