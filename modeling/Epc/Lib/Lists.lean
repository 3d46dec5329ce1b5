import Mathlib

/-! Linked lists searched and rewritten at the first match, related lists, and the windows of a cyclic
counter. -/

namespace Epc.Lib

open List

variable {α : Type*} {p : α → Bool} {l : List α} {f : α → α} {base start period n : Nat}

/-- Rewrites the first element that passes the test. -/
def updateFirst (p : α → Bool) (f : α → α) : List α → List α
  | [] => []
  | x :: xs => if p x then f x :: xs else x :: updateFirst p f xs

theorem mem_updateFirst {xs : List α} {y : α}
    (mem : y ∈ updateFirst p f xs) : y ∈ xs ∨ ∃ x ∈ xs, p x ∧ y = f x := by
  induction xs with
  | nil => simp [updateFirst] at mem
  | cons x xs ih =>
    rw [updateFirst] at mem
    split at mem
    case isTrue holds =>
      rcases mem_cons.mp mem with rfl | rest
      · exact .inr ⟨x, mem_cons_self, holds, rfl⟩
      · exact .inl (mem_cons_of_mem x rest)
    case isFalse =>
      rcases mem_cons.mp mem with rfl | rest
      · exact .inl mem_cons_self
      · rcases ih rest with old | ⟨z, old, holds, rfl⟩
        · exact .inl (mem_cons_of_mem x old)
        · exact .inr ⟨z, mem_cons_of_mem x old, holds, rfl⟩

theorem updateFirst_append {front back : List α} {x : α} (before : ∀ a ∈ front, p a = false)
    (holds : p x) (f : α → α) : updateFirst p f (front ++ x :: back) = front ++ f x :: back := by
  induction front with
  | nil => exact if_pos holds
  | cons a front ih =>
    rw [forall_mem_cons] at before
    simp [updateFirst, before.1, ih before.2]

theorem updateFirst_congr {p q : α → Bool} (f : α → α) {xs : List α}
    (agree : ∀ x ∈ xs, p x = q x) : updateFirst p f xs = updateFirst q f xs := by
  induction xs with
  | nil => rfl
  | cons x xs ih =>
    rw [updateFirst, updateFirst, agree x mem_cons_self,
      ih fun y mem => agree y (mem_cons_of_mem x mem)]

theorem key_ne_of_nodup {κ : Type*} {key : α → κ} {front back : List α} {x : α}
    (nodup : ((front ++ x :: back).map key).Nodup) : ∀ y ∈ front ++ back, key y ≠ key x := by
  intro y mem same
  rw [map_append, map_cons, nodup_middle, ← map_append, nodup_cons] at nodup
  exact nodup.1 (same ▸ mem_map_of_mem mem)

section

variable {κ : Type*} [DecidableEq κ] (key : α → κ)

/-- The first element with the given key. -/
def findKey (k : κ) (xs : List α) : Option α :=
  xs.find? fun x => key x = k

variable {key}

variable {k : κ} {xs : List α} {x y : α}

theorem findKey_append_self (absent : findKey key k xs = none)
    (named : key x = k) : findKey key k (xs ++ [x]) = some x := by
  rw [findKey, find?_append, show xs.find? _ = none from absent]
  simp [named]

theorem findKey_append_of_ne (ne : key x ≠ k) : findKey key k (xs ++ [x]) = findKey key k xs := by
  simp [findKey, find?_append, ne]

theorem findKey_updateFirst_self (keeps : ∀ x, key x = k → key (f x) = k) :
    findKey key k (updateFirst (fun x => key x = k) f xs) = (findKey key k xs).map f := by
  induction xs with
  | nil => rfl
  | cons x xs ih =>
    by_cases named : key x = k
    · simp [findKey, updateFirst, named, keeps x named]
    · simpa [findKey, updateFirst, named] using ih

theorem findKey_updateFirst_of_ne {k' : κ} (keeps : ∀ x, key (f x) = key x) (ne : k' ≠ k) :
    findKey key k' (updateFirst (fun x => key x = k) f xs) = findKey key k' xs := by
  induction xs with
  | nil => rfl
  | cons x xs ih =>
    by_cases named : key x = k
    · simp [findKey, updateFirst, named, keeps, Ne.symm ne]
    · by_cases sought : key x = k'
      · simp [findKey, updateFirst, sought, ne]
      · simpa [findKey, updateFirst, named, sought] using ih

theorem findKey_some (found : findKey key k xs = some x) : x ∈ xs ∧ key x = k := by
  have equal := find?_some found
  exact ⟨mem_of_find?_eq_some found, by simpa using equal⟩

theorem map_updateFirst_key (named : key y = k) :
    (updateFirst (fun x => key x = k) (fun _ => y) xs).map key = xs.map key := by
  induction xs with
  | nil => rfl
  | cons x xs ih =>
    by_cases here : key x = k
    · simp [updateFirst, here, named]
    · simp [updateFirst, here, ih]

theorem findKey_updateFirst_replaced (named : key y = k) (found : findKey key k xs = some x) :
    findKey key k (updateFirst (fun x => key x = k) (fun _ => y) xs) = some y := by
  rw [findKey_updateFirst_self fun _ _ => named, found, Option.map_some]

theorem mem_updateFirst_key (nodup : (xs.map key).Nodup)
    (found : findKey key k xs = some x) (other : α) :
    other ∈ updateFirst (fun z => key z = k) (fun _ => y) xs ↔
      other = y ∨ (other ∈ xs ∧ key other ≠ k) := by
  obtain ⟨holds, front, back, rfl, before⟩ := find?_eq_some_iff_append.mp found
  obtain rfl := of_decide_eq_true holds
  have apart := key_ne_of_nodup nodup
  rw [updateFirst_append (x := x) (by simpa using before) holds]
  simp only [mem_append, mem_cons]
  constructor
  · rintro (inFront | rfl | inBack)
    · exact .inr ⟨.inl inFront, apart other (mem_append_left _ inFront)⟩
    · exact .inl rfl
    · exact .inr ⟨.inr (.inr inBack), apart other (mem_append_right _ inBack)⟩
  · rintro (rfl | ⟨inFront | rfl | inBack, ne⟩)
    · exact .inr (.inl rfl)
    · exact .inl inFront
    · exact absurd rfl ne
    · exact .inr (.inr inBack)

theorem filter_key_eq_singleton (nodup : (xs.map key).Nodup) (member : x ∈ xs) :
    (xs.filter fun y => key x == key y) = [x] := by
  obtain ⟨front, back, rfl⟩ := append_of_mem member
  have none : (front ++ back).filter (fun y => key x == key y) = [] :=
    filter_eq_nil_iff.mpr fun y mem same => key_ne_of_nodup nodup y mem (eq_of_beq same).symm
  rw [filter_append, append_eq_nil_iff] at none
  rw [filter_append, filter_cons_of_pos (by simp), none.1, none.2, nil_append]

end

/-- `n` consecutive values of a counter from `start` that wraps at `period`, shifted by `base`. -/
def cycle (base start period n : Nat) : List Nat :=
  (List.range n).map fun i => base + (start + i) % period

@[simp] theorem length_cycle (base start period n : Nat) :
    (cycle base start period n).length = n := by
  simp [cycle]

theorem cycle_succ (base start period n : Nat) :
    cycle base start period (n + 1) =
      cycle base start period n ++ [base + (start + n) % period] := by
  simp [cycle, range_succ]

theorem cycle_add (base start period m n : Nat) :
    cycle base start period (m + n) =
      cycle base start period m ++ cycle base (start + m) period n := by
  simp [cycle, range_add, Nat.add_assoc]

theorem cycle_nodup (short : n ≤ period) : (cycle base start period n).Nodup := by
  apply List.Nodup.map_on _ nodup_range
  intro i memberI j memberJ same
  rw [mem_range] at memberI memberJ
  have congruent : start + i ≡ start + j [MOD period] := Nat.add_left_cancel same
  exact (Nat.ModEq.add_left_cancel' start congruent).eq_of_lt_of_lt (by omega) (by omega)

theorem nodup_of_infix_cycle {window : List Nat} (inside : window <:+: cycle base start period n)
    (short : window.length ≤ period) : window.Nodup := by
  obtain ⟨before, after, split⟩ := inside
  have total : n = before.length + (window.length + after.length) := by
    have := congrArg List.length split
    simp only [length_append, length_cycle] at this
    omega
  rw [total, cycle_add, cycle_add, append_assoc] at split
  obtain ⟨-, rest⟩ := append_inj split (by simp)
  obtain ⟨same, -⟩ := append_inj rest (by simp)
  rw [same]
  exact cycle_nodup short

theorem perm_cons_eraseP_of_find? {a : α} (found : l.find? p = some a) : l.Perm (a :: l.eraseP p) := by
  obtain ⟨holds, front, back, rfl, before⟩ := find?_eq_some_iff_append.mp found
  rw [eraseP_append_right _ (by simpa using before), eraseP_cons_of_pos holds]
  exact perm_middle

theorem eraseP_eq_filter (once : (l.filter p).length ≤ 1) : l.eraseP p = l.filter fun a => !p a := by
  induction l with
  | nil => rfl
  | cons a l ih =>
    by_cases first : p a
    · rw [filter_cons_of_pos first, length_cons] at once
      have none : l.filter p = [] := length_eq_zero_iff.mp (by omega)
      rw [eraseP_cons_of_pos first, filter_cons_of_neg (by simp [first])]
      refine (filter_eq_self.mpr fun b mem => ?_).symm
      simpa using filter_eq_nil_iff.mp none b mem
    · rw [filter_cons_of_neg first] at once
      rw [eraseP_cons_of_neg first, filter_cons_of_pos (by simp [first]), ih once]

theorem updateFirst_perm {a b : α} (found : l.find? p = some a) :
    (updateFirst p (fun _ => b) l).Perm (b :: l.eraseP p) := by
  obtain ⟨holds, front, back, rfl, before⟩ := find?_eq_some_iff_append.mp found
  rw [updateFirst_append (by simpa using before) holds, eraseP_append_right _ (by simpa using before),
    eraseP_cons_of_pos holds]
  exact perm_middle

section

variable {κ : Type*} [DecidableEq κ] {known : κ → Bool} {keys : List κ} {k : κ}

/-- The keys in front of the first one that is known or repeats an earlier one. -/
def newUntil (known : κ → Bool) : List κ → List κ
  | [] => []
  | k :: keys => if known k then [] else k :: newUntil (fun other => known other || other == k) keys

theorem mem_newUntil (mem : k ∈ newUntil known keys) : k ∈ keys ∧ known k = false := by
  induction keys generalizing known with
  | nil => cases mem
  | cons first keys ih =>
    rw [newUntil] at mem
    split at mem
    · cases mem
    · next new =>
      rcases mem_cons.mp mem with rfl | later
      · exact ⟨mem_cons_self .., by simpa using new⟩
      · obtain ⟨inKeys, unknown⟩ := ih later
        exact ⟨mem_cons_of_mem _ inKeys, (Bool.or_eq_false_iff.mp unknown).1⟩

theorem nodup_newUntil (known : κ → Bool) (keys : List κ) : (newUntil known keys).Nodup := by
  induction keys generalizing known with
  | nil => exact nodup_nil
  | cons first keys ih =>
    rw [newUntil]
    split
    · exact nodup_nil
    · refine nodup_cons.mpr ⟨fun again => ?_, ih _⟩
      simpa using (mem_newUntil again).2

end

/-- What each element does to a property of the list before it decides it for every prefix. -/
theorem forall_prefix_iff {P : List α → Prop} {C : List α → α → Prop} (nil : P [])
    (step : ∀ before x, before ++ [x] <+: l → P before → (P (before ++ [x]) ↔ C before x)) :
    (∀ front, front <+: l → P front) ↔ ∀ before x, before ++ [x] <+: l → C before x := by
  refine ⟨fun all before x isPrefix => ?_, fun all front isPrefix => ?_⟩
  · have front := all before ((prefix_append _ _).trans isPrefix)
    exact (step before x isPrefix front).mp (all _ isPrefix)
  · induction front using reverseRecOn with
    | nil => exact nil
    | append_singleton before x ih =>
      have front := ih ((prefix_append _ _).trans isPrefix)
      exact (step before x isPrefix front).mpr (all before x isPrefix)

theorem exists_mem_of_forall₂ {β : Type*} {R : α → β → Prop} {l' : List β} {a : α}
    (related : Forall₂ R l l') (mem : a ∈ l) : ∃ b ∈ l', R a b := by
  induction related with
  | nil => cases mem
  | cons here _ ih =>
    rcases mem_cons.mp mem with rfl | later
    · exact ⟨_, mem_cons_self, here⟩
    · obtain ⟨b, among, there⟩ := ih later
      exact ⟨b, mem_cons_of_mem _ among, there⟩

end Epc.Lib
