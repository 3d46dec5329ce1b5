import Mathlib

/-! Keyed tables and allocation heaps.  A table stands for an `rte_hash`: a partial map from keys to
values.  Taken over from its documentation: a lookup finds what was last added under the key and not
deleted since, an addition replaces the value of its key, and no operation changes another key; that
there is room is assumed.  A heap stands for `rte_zmalloc` and `rte_free`: it hands out an address
that no live cell has, and memory that suffices is assumed. -/

namespace Epc.Lib

/-- A finite map seen through its lookups. -/
abbrev Table (Key Value : Type*) := Key → Option Value

namespace Table

variable {Key Value : Type*} [DecidableEq Key] {table : Table Key Value}

def empty : Table Key Value := fun _ => none

def add (table : Table Key Value) (key : Key) (value : Value) : Table Key Value :=
  fun k => if k = key then some value else table k

def del (table : Table Key Value) (key : Key) : Table Key Value :=
  fun k => if k = key then none else table k

omit [DecidableEq Key] in
@[simp] theorem empty_apply (key : Key) : (empty : Table Key Value) key = none := rfl

@[simp] theorem add_self (table : Table Key Value) (key : Key) (value : Value) :
    table.add key value key = some value := by
  simp [add]

theorem add_of_ne {key other : Key} {value : Value}
    (ne : other ≠ key) : table.add key value other = table other := by
  simp [add, ne]

theorem add_eq_some {key other : Key} {value found : Value}
    (held : table.add key value other = some found) :
    other = key ∧ value = found ∨ other ≠ key ∧ table other = some found := by
  by_cases same : other = key
  · exact .inl ⟨same, by simpa [same] using held⟩
  · exact .inr ⟨same, by rwa [add_of_ne same] at held⟩

theorem add_eq_self {key : Key} {value : Value}
    (known : table key = some value) : table.add key value = table := by
  funext k
  by_cases same : k = key <;> simp [add, same, known]

@[simp] theorem del_self (table : Table Key Value) (key : Key) : table.del key key = none := by
  simp [del]

theorem del_of_ne {key other : Key} (ne : other ≠ key) : table.del key other = table other := by
  simp [del, ne]

end Table

/-- Allocated cells, with the address the next allocation returns. -/
structure Heap (Cell : Type*) where
  cells : Table Nat Cell
  next : Nat
  fresh : ∀ a, next ≤ a → cells a = none

namespace Heap

variable {Cell : Type*} {heap : Heap Cell} {cell : Cell}

def empty : Heap Cell where
  cells := Table.empty
  next := 0
  fresh := fun _ _ => rfl

/-- The heap with `cell` stored at the address `heap.next`. -/
def alloc (heap : Heap Cell) (cell : Cell) : Heap Cell where
  cells := heap.cells.add heap.next cell
  next := heap.next + 1
  fresh := by
    intro a bound
    rw [Table.add_of_ne (by omega)]
    exact heap.fresh a (by omega)

/-- Rewrites the cell at a live address; nothing happens elsewhere. -/
def update (heap : Heap Cell) (address : Nat) (f : Cell → Cell) : Heap Cell where
  cells := fun a => if a = address then (heap.cells a).map f else heap.cells a
  next := heap.next
  fresh := by
    intro a bound
    simp [heap.fresh a bound]

def free (heap : Heap Cell) (address : Nat) : Heap Cell where
  cells := heap.cells.del address
  next := heap.next
  fresh := by
    intro a bound
    simp [Table.del, heap.fresh a bound]

@[simp] theorem empty_cells (a : Nat) : (empty : Heap Cell).cells a = none := rfl

@[simp] theorem empty_next : (empty : Heap Cell).next = 0 := rfl

@[simp] theorem alloc_next (heap : Heap Cell) (cell : Cell) :
    (heap.alloc cell).next = heap.next + 1 := rfl

@[simp] theorem alloc_cells_next (heap : Heap Cell) (cell : Cell) :
    (heap.alloc cell).cells heap.next = some cell := by
  simp [alloc]

theorem alloc_cells_of_ne {a : Nat} (ne : a ≠ heap.next) :
    (heap.alloc cell).cells a = heap.cells a := by
  simp [alloc, Table.add_of_ne ne]

@[simp] theorem update_next (heap : Heap Cell) (a : Nat) (f : Cell → Cell) :
    (heap.update a f).next = heap.next := rfl

@[simp] theorem update_cells_self (heap : Heap Cell) (a : Nat) (f : Cell → Cell) :
    (heap.update a f).cells a = (heap.cells a).map f := by
  simp [update]

theorem update_cells_of_ne {a b : Nat} {f : Cell → Cell} (ne : b ≠ a) :
    (heap.update a f).cells b = heap.cells b := by
  simp [update, ne]

@[simp] theorem free_next (heap : Heap Cell) (a : Nat) : (heap.free a).next = heap.next := rfl

@[simp] theorem free_cells_self (heap : Heap Cell) (a : Nat) : (heap.free a).cells a = none := by
  simp [free]

theorem free_cells_of_ne {a b : Nat} (ne : b ≠ a) : (heap.free a).cells b = heap.cells b := by
  simp [free, Table.del_of_ne ne]

theorem live_lt {a : Nat} (live : heap.cells a = some cell) : a < heap.next := by
  by_contra high
  rw [heap.fresh a (by omega)] at live
  cases live

theorem update_congr {a : Nat} {f g : Cell → Cell}
    (live : heap.cells a = some cell) (same : f cell = g cell) : heap.update a f = heap.update a g := by
  unfold update
  congr 1
  funext b
  by_cases here : b = a
  · subst here
    simp [live, same]
  · simp [here]

end Heap

end Epc.Lib
