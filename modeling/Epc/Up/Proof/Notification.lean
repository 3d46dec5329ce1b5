import Epc.Up.DlRing

/-! The keys that `notification_handler` sees. The loops over a burst of packets share the array and the
index with the loop over the keys, so which keys are seen depends on the numbers of packets. -/

namespace Epc.Up

open Epc.Lib List Heap
open Option hiding mem_map mem_map_of_mem

section

def nextIndex (index count : Nat) : Nat :=
  if count = 0 then index + 1 else (count - 1) % burstSize + 2

/-- The walk over the keys by their numbers of packets: it meets no place twice and none that a
burst was written to, and ends after all. -/
def keyWalk (counts : List Nat) : Nat → Nat → Nat → List Nat → Bool
  | 0, _, _, _ => false
  | fuel + 1, index, overwritten, seen =>
    if counts.length ≤ index then seen.length == counts.length
    else if index < overwritten ∨ index ∈ seen then false
    else
      let count := counts.getD index 0
      keyWalk counts fuel (nextIndex index count) (max overwritten (min count burstSize))
        (seen ++ [index])

def allKeysMet (counts : List Nat) : Bool :=
  keyWalk counts (counts.length + 1) 0 0 []

example : allKeysMet [0, 1, 2] = true := by decide

example : allKeysMet [1, 1] = false := by decide

end

section

variable {Pkt : Type} {accept : Nat → Nat}

theorem transmit_all (accepts : ∀ call, 1 ≤ accept call) (fuel : Nat) (pkts : List Pkt) (calls : Nat)
    (enough : pkts.length ≤ fuel) :
    ∃ calls', transmit accept fuel pkts calls = some (pkts, calls') := by
  induction fuel generalizing pkts calls with
  | zero =>
    obtain rfl := eq_nil_of_length_eq_zero (Nat.le_zero.mp enough)
    exact ⟨calls, rfl⟩
  | succ fuel ih =>
    cases pkts with
    | nil => exact ⟨calls, rfl⟩
    | cons pkt pkts =>
      have some := accepts calls
      have pos : 1 ≤ min (min (pkts.length + 1) burstSize) (accept calls) := by
        simp only [burstSize]
        omega
      obtain ⟨calls', rest⟩ := ih
        ((pkt :: pkts).drop (min (min (pkts.length + 1) burstSize) (accept calls))) (calls + 1)
        (by simp only [length_drop, length_cons] at enough ⊢; omega)
      refine ⟨calls', ?_⟩
      rw [transmit, rest, map_some, take_append_drop]

structure Drained (pkts : List Pkt) (h h' : Handler Pkt) : Prop where
  sent : h'.sent = h.sent ++ pkts
  handled : h'.handled = h.handled
  index : h'.index + 1 = nextIndex h.index pkts.length
  front : ∀ j < min pkts.length burstSize, ∃ pkt, h'.slots[j]? = some (.packet pkt)
  rest : ∀ j, min pkts.length burstSize ≤ j → h'.slots[j]? = h.slots[j]?

theorem overwrite_front (slots : List (Slot Pkt)) (burst : List Pkt) {j : Nat} (inside : j < burst.length) :
    ∃ pkt, (overwrite slots burst)[j]? = some (.packet pkt) := by
  refine ⟨burst[j], ?_⟩
  rw [overwrite, getElem?_append_left (by simpa using inside), getElem?_map,
    getElem?_eq_getElem inside]
  rfl

theorem overwrite_rest (slots : List (Slot Pkt)) (burst : List Pkt) {j : Nat}
    (outside : burst.length ≤ j) : (overwrite slots burst)[j]? = slots[j]? := by
  rw [overwrite, getElem?_append_right (by simpa using outside), getElem?_drop, length_map]
  congr 1
  omega

theorem drain_all (accepts : ∀ call, 1 ≤ accept call) (fuel : Nat) (pkts : List Pkt) (h : Handler Pkt)
    (enough : pkts.length ≤ fuel) : ∃ h', drain accept fuel pkts h = some h' ∧ Drained pkts h h' := by
  induction fuel generalizing pkts h with
  | zero =>
    obtain rfl := eq_nil_of_length_eq_zero (Nat.le_zero.mp enough)
    exact ⟨h, rfl, by simp, rfl, rfl, by simp, fun _ _ => rfl⟩
  | succ fuel ih =>
    cases pkts with
    | nil => exact ⟨h, rfl, by simp, rfl, rfl, by simp, fun _ _ => rfl⟩
    | cons pkt pkts =>
      have length : ((pkt :: pkts).take burstSize).length = min (pkts.length + 1) burstSize := by
        rw [length_take, length_cons, Nat.min_comm]
      obtain ⟨calls', sent⟩ := transmit_all accepts ((pkt :: pkts).take burstSize).length
        ((pkt :: pkts).take burstSize) h.calls le_rfl
      obtain ⟨h', rest, drained⟩ := ih ((pkt :: pkts).drop burstSize)
        { h with
          slots := overwrite h.slots ((pkt :: pkts).take burstSize)
          index := ((pkt :: pkts).take burstSize).length
          sent := h.sent ++ (pkt :: pkts).take burstSize
          calls := calls' }
        (by simp only [length_drop, length_cons, burstSize] at enough ⊢; omega)
      refine ⟨h', ?_, ?_, drained.handled, ?_, fun j inside => ?_, fun j outside => ?_⟩
      · rw [drain, sent]
        exact rest
      · rw [drained.sent]
        rw [append_assoc, take_append_drop]
      · -- the last burst is the rest of the packets after the full ones
        rw [drained.index, length]
        simp only [nextIndex, length_drop, length_cons, burstSize]
        split <;> split <;> omega
      · by_cases later : j < min ((pkt :: pkts).drop burstSize).length burstSize
        · exact drained.front j later
        · rw [drained.rest j (Nat.not_lt.mp later)]
          exact overwrite_front _ _ (by rw [length]; simpa using inside)
      · have beyond : min ((pkt :: pkts).drop burstSize).length burstSize ≤ j := by
          simp only [length_drop, length_cons, burstSize] at outside ⊢
          omega
        rw [drained.rest j beyond]
        exact overwrite_rest _ _ (by rw [length]; simpa using outside)

end

section

variable {Pkt : Type} (resolve : UInt32 → Option Nat)

def pktsOf (s : RingState Pkt) (key : UInt32) : List Pkt :=
  ((((resolve key).bind s.sessions.cells).bind (·.dlRing)).bind s.rings.cells).elim [] (·.pkts)

/-- The keys name different live sessions, whose rings are live and their own. -/
structure Named (keys : List UInt32) (s : RingState Pkt) : Prop where
  distinct : (keys.map resolve).Nodup
  live : ∀ key ∈ keys, ∃ session data, resolve key = some session ∧
    s.sessions.cells session = some data ∧ ∀ ring ∈ data.dlRing, (s.rings.cells ring).isSome
  apart : ∀ a b data data' ring, s.sessions.cells a = some data → s.sessions.cells b = some data' →
    data.dlRing = some ring → data'.dlRing = some ring → a = b

def Emptied (s : RingState Pkt) (key : UInt32) : Prop :=
  ∃ session data, resolve key = some session ∧ s.sessions.cells session = some data ∧
    data.sessState = .connected ∧
      ∀ ring ∈ data.dlRing, (s.rings.cells ring).map (·.pkts) = some []

structure Released (keys : List UInt32) (s : RingState Pkt) (h : Handler Pkt) (s' : RingState Pkt) :
    Prop where
  once : h.handled.Perm keys
  emptied : ∀ key ∈ keys, Emptied resolve s' key
  sent : h.sent.Perm (keys.flatMap (pktsOf resolve s))
  inOrder : ∀ key ∈ keys, (pktsOf resolve s key).Sublist h.sent

variable {resolve}

def RingState.afterKey (s : RingState Pkt) (session : Nat) (data : BufferData) : RingState Pkt :=
  let s := s.updateSession session fun data => { data with sessState := .connected }
  match data.dlRing with
  | none => s
  | some ring =>
    { s with
      rings := s.rings.update ring fun r => { r with pkts := [] }
      container := enqueueContainer s.container ring }

section

variable (s : RingState Pkt) (session : Nat)

theorem afterKey_sessions (data : BufferData) :
    (s.afterKey session data).sessions =
      s.sessions.update session fun data => { data with sessState := .connected } := by
  unfold RingState.afterKey
  cases data.dlRing <;> rfl

theorem afterKey_rings_self {data : BufferData} {ring : Nat} (own : data.dlRing = some ring) :
    (s.afterKey session data).rings.cells ring =
      (s.rings.cells ring).map fun r => { r with pkts := [] } := by
  rw [RingState.afterKey, own]
  exact update_cells_self ..

theorem afterKey_rings_of_ne {data : BufferData} {ring : Nat} (other : data.dlRing ≠ some ring) :
    (s.afterKey session data).rings.cells ring = s.rings.cells ring := by
  unfold RingState.afterKey
  cases own : data.dlRing with
  | none => rfl
  | some r =>
    rw [own] at other
    exact update_cells_of_ne fun same => other (congrArg some same.symm)

end

section

variable {keys : List UInt32} {s : RingState Pkt} {key : UInt32} {session : Nat} {data : BufferData}

theorem afterKey_cells {a : Nat} {entry : BufferData}
    (live : (s.afterKey session data).sessions.cells a = some entry) :
    ∃ before, s.sessions.cells a = some before ∧ entry.dlRing = before.dlRing := by
  rw [afterKey_sessions] at live
  by_cases here : a = session
  · subst here
    rw [update_cells_self, map_eq_some_iff] at live
    obtain ⟨before, found, rfl⟩ := live
    exact ⟨before, found, rfl⟩
  · rw [update_cells_of_ne here] at live
    exact ⟨entry, live, rfl⟩

theorem isSome_afterKey_rings (ring : Nat) :
    ((s.afterKey session data).rings.cells ring).isSome = (s.rings.cells ring).isSome := by
  by_cases own : data.dlRing = some ring
  · rw [afterKey_rings_self s session own, isSome_map]
  · rw [afterKey_rings_of_ne s session own]

section

variable (named : Named resolve keys s)

include named

theorem Named.afterKey (found : s.sessions.cells session = some data) :
    Named resolve keys (s.afterKey session data) := by
  refine ⟨named.distinct, fun key mem => ?_, ?_⟩
  · obtain ⟨a, entry, resolved, live, rings⟩ := named.live key mem
    by_cases here : a = session
    · subst here
      refine ⟨a, { entry with sessState := .connected }, resolved, ?_, fun ring own => ?_⟩
      · rw [afterKey_sessions, update_cells_self, live, map_some]
      · rw [isSome_afterKey_rings]
        exact rings ring own
    · refine ⟨a, entry, resolved, ?_, fun ring own => ?_⟩
      · rw [afterKey_sessions, update_cells_of_ne here, live]
      · rw [isSome_afterKey_rings]
        exact rings ring own
  · intro a b left right ring liveLeft liveRight ownLeft ownRight
    obtain ⟨left', liveLeft', sameLeft⟩ := afterKey_cells liveLeft
    obtain ⟨right', liveRight', sameRight⟩ := afterKey_cells liveRight
    exact named.apart a b left' right' ring liveLeft' liveRight' (sameLeft ▸ ownLeft)
      (sameRight ▸ ownRight)

theorem emptied_afterKey (mem : key ∈ keys) (resolved : resolve key = some session)
    (found : s.sessions.cells session = some data) : Emptied resolve (s.afterKey session data) key := by
  refine ⟨session, { data with sessState := .connected }, resolved, ?_, rfl, fun ring own => ?_⟩
  · rw [afterKey_sessions, update_cells_self, found, map_some]
  · obtain ⟨a, entry, resolved', live, rings⟩ := named.live key mem
    obtain rfl : session = a := some_inj.mp (resolved.symm.trans resolved')
    obtain rfl : data = entry := some_inj.mp (found.symm.trans live)
    obtain ⟨r, ringLive⟩ := isSome_iff_exists.mp (rings ring own)
    have own : data.dlRing = some ring := own
    rw [afterKey_rings_self s session own, ringLive]
    rfl

section

variable (found : s.sessions.cells session = some data)

include found

theorem afterKey_other
    {a : Nat} {entry : BufferData} (ne : a ≠ session) (live : s.sessions.cells a = some entry) :
    (s.afterKey session data).sessions.cells a = some entry ∧
      ∀ ring ∈ entry.dlRing, (s.afterKey session data).rings.cells ring = s.rings.cells ring := by
  refine ⟨?_, fun ring own => afterKey_rings_of_ne s session fun own' =>
    ne (named.apart a session entry data ring live found own own')⟩
  rw [afterKey_sessions, update_cells_of_ne ne, live]

theorem Emptied.afterKey {other : UInt32} (ne : resolve other ≠ some session)
    (emptied : Emptied resolve s other) : Emptied resolve (s.afterKey session data) other := by
  obtain ⟨a, entry, resolved, live, connected, empty⟩ := emptied
  obtain ⟨live', rings⟩ := afterKey_other named found
    (fun same => ne (resolved.trans (congrArg some same))) live
  refine ⟨a, entry, resolved, live', connected, fun ring own => ?_⟩
  rw [rings ring own]
  exact empty ring own

theorem pktsOf_afterKey {other : UInt32} (mem : other ∈ keys) (ne : resolve other ≠ some session) :
    pktsOf resolve (s.afterKey session data) other = pktsOf resolve s other := by
  obtain ⟨a, entry, resolved, live, -⟩ := named.live other mem
  obtain ⟨live', rings⟩ := afterKey_other named found
    (fun same => ne (resolved.trans (congrArg some same))) live
  simp only [pktsOf, resolved, bind_some, live, live']
  cases own : entry.dlRing with
  | none => rfl
  | some ring => rw [bind_some, bind_some, rings ring own]

end

end

end

section

variable {accept : Nat → Nat} {keys : List UInt32} {s : RingState Pkt} {h : Handler Pkt}

theorem notifyLoop_key {key : UInt32} (accepts : ∀ call, 1 ≤ accept call) (named : Named resolve keys s)
    (mem : key ∈ keys) (here : h.slots[h.index]? = some (.key key)) (inside : h.index < keys.length) :
    ∃ session data h', resolve key = some session ∧ s.sessions.cells session = some data ∧
      Drained (pktsOf resolve s key)
        { h with slots := h.slots.set h.index .freed, handled := h.handled ++ [key] } h' ∧
      ∀ fuel, notifyLoop accept resolve keys.length (fuel + 1) h s =
        notifyLoop accept resolve keys.length fuel { h' with index := h'.index + 1 }
          (s.afterKey session data) := by
  obtain ⟨session, data, resolved, found, rings⟩ := named.live key mem
  cases own : data.dlRing with
  | none =>
    have empty : pktsOf resolve s key = [] := by simp [pktsOf, resolved, found, own]
    refine ⟨session, data,
      { h with slots := h.slots.set h.index .freed, handled := h.handled ++ [key] },
      resolved, found, ?_, fun fuel => ?_⟩
    · rw [empty]
      exact ⟨by simp, rfl, rfl, by simp, fun _ _ => rfl⟩
    · simp only [notifyLoop, Nat.not_le.mpr inside, here, resolved, found, own, if_false,
        RingState.afterKey]
  | some ring =>
    obtain ⟨r, ringLive⟩ := isSome_iff_exists.mp (rings ring own)
    have content : pktsOf resolve s key = r.pkts := by simp [pktsOf, resolved, found, own, ringLive]
    obtain ⟨h', drains, drained⟩ := drain_all accepts r.pkts.length r.pkts
      { h with slots := h.slots.set h.index .freed, handled := h.handled ++ [key] } le_rfl
    refine ⟨session, data, h', resolved, found, content ▸ drained, fun fuel => ?_⟩
    have same : (s.updateSession session fun data => { data with sessState := .connected }).rings.cells
        ring = some r := ringLive
    simp only [notifyLoop, Nat.not_le.mpr inside, here, resolved, found, own, if_false, same, drains,
      RingState.afterKey]

theorem notifyLoop_lost (inside : h.index < keys.length)
    (lost : ∀ key, h.slots[h.index]? ≠ some (.key key)) (fuel : Nat) :
    notifyLoop accept resolve keys.length fuel h s = none := by
  cases fuel with
  | zero => rfl
  | succ fuel =>
    rw [notifyLoop, if_neg (Nat.not_le.mpr inside)]
    split
    · rename_i key there
      exact absurd there (lost key)
    · rfl

variable (resolve keys) in
/-- The loop after the keys at some indices, against the state that it started in. -/
structure Progress (s₀ : RingState Pkt) (overwritten : Nat) (seen : List Nat) (h : Handler Pkt)
    (s : RingState Pkt) : Prop where
  named : Named resolve keys s
  inside : ∀ j ∈ seen, j < keys.length
  distinct : seen.Nodup
  lost : ∀ j < keys.length, j < overwritten ∨ j ∈ seen → ∀ key, h.slots[j]? ≠ some (.key key)
  kept : ∀ j < keys.length, overwritten ≤ j → j ∉ seen → h.slots[j]? = some (.key (keys.getD j 0))
  handled : h.handled = seen.map (keys.getD · 0)
  sent : h.sent = (seen.map (keys.getD · 0)).flatMap (pktsOf resolve s₀)
  emptied : ∀ j ∈ seen, Emptied resolve s (keys.getD j 0)
  untouched : ∀ j < keys.length, j ∉ seen →
    pktsOf resolve s (keys.getD j 0) = pktsOf resolve s₀ (keys.getD j 0)

theorem Progress.start (named : Named resolve keys s) :
    Progress resolve keys s 0 [] (.start keys) s where
  named
  inside := forall_mem_nil _
  distinct := nodup_nil
  lost := by simp
  kept := by
    intro j inside _ _
    rw [Handler.start, getElem?_map, getElem?_eq_getElem inside, getD_eq_getElem _ _ inside]
    rfl
  handled := rfl
  sent := rfl
  emptied := forall_mem_nil _
  untouched := fun _ _ _ => rfl

theorem getD_mem {j : Nat} (inside : j < keys.length) : keys.getD j 0 ∈ keys := by
  rw [getD_eq_getElem _ _ inside]
  exact getElem_mem inside

theorem Named.resolve_ne (named : Named resolve keys s) {i j : Nat} (insideI : i < keys.length)
    (insideJ : j < keys.length) (ne : i ≠ j) : resolve (keys.getD i 0) ≠ resolve (keys.getD j 0) := by
  rw [getD_eq_getElem _ _ insideI, getD_eq_getElem _ _ insideJ]
  intro same
  have boundI : i < (keys.map resolve).length := by simpa using insideI
  have boundJ : j < (keys.map resolve).length := by simpa using insideJ
  have equal : (keys.map resolve)[i] = (keys.map resolve)[j] := by simpa using same
  exact ne (named.distinct.getElem_inj_iff.mp equal)

variable {s₀ : RingState Pkt} {overwritten : Nat} {seen : List Nat}

theorem Progress.round
    (accepts : ∀ call, 1 ≤ accept call) (progress : Progress resolve keys s₀ overwritten seen h s)
    (inside : h.index < keys.length) (kept : overwritten ≤ h.index) (unseen : h.index ∉ seen) :
    ∃ h' s', Progress resolve keys s₀
        (max overwritten (min (pktsOf resolve s₀ (keys.getD h.index 0)).length burstSize))
        (seen ++ [h.index]) h' s' ∧
      h'.index = nextIndex h.index (pktsOf resolve s₀ (keys.getD h.index 0)).length ∧
      ∀ fuel, notifyLoop accept resolve keys.length (fuel + 1) h s =
        notifyLoop accept resolve keys.length fuel h' s' := by
  have slot := progress.kept h.index inside kept unseen
  obtain ⟨session, data, h', resolved, found, drained, round⟩ :=
    notifyLoop_key accepts progress.named (getD_mem inside) slot inside
  have elsewhere : ∀ j < keys.length, j ≠ h.index → resolve (keys.getD j 0) ≠ some session :=
    fun j insideJ ne => resolved ▸ progress.named.resolve_ne insideJ inside ne
  rw [progress.untouched h.index inside unseen] at drained
  refine ⟨{ h' with index := h'.index + 1 }, s.afterKey session data, ?_, drained.index, round⟩
  constructor
  case named => exact progress.named.afterKey found
  case inside =>
    intro j mem
    rcases mem_append.mp mem with old | new
    · exact progress.inside j old
    · rw [mem_singleton.mp new]
      exact inside
  case distinct =>
    rw [nodup_append]
    refine ⟨progress.distinct, nodup_singleton _, fun a old b new => ?_⟩
    rw [mem_singleton.mp new]
    exact fun same => unseen (same ▸ old)
  case lost =>
    intro j insideJ gone key there
    by_cases front : j < min (pktsOf resolve s₀ (keys.getD h.index 0)).length burstSize
    · obtain ⟨pkt, packet⟩ := drained.front j front
      rw [packet] at there
      cases there
    · rw [drained.rest j (Nat.not_lt.mp front)] at there
      by_cases now : h.index = j
      · subst now
        have bound : h.index < h.slots.length := (List.getElem?_eq_some_iff.mp slot).1
        rw [getElem?_set_self bound] at there
        cases there
      · rw [getElem?_set_ne now] at there
        refine progress.lost j insideJ ?_ key there
        rcases gone with overwrite | mem
        · exact .inl (by omega)
        · rw [mem_append, mem_singleton] at mem
          exact .inr (mem.resolve_right fun same => now same.symm)
  case kept =>
    intro j insideJ beyond unseenJ
    rw [mem_append, mem_singleton, not_or] at unseenJ
    rw [drained.rest j (by omega), getElem?_set_ne (Ne.symm unseenJ.2)]
    exact progress.kept j insideJ (by omega) unseenJ.1
  case handled =>
    rw [map_append, ← progress.handled]
    exact drained.handled
  case sent =>
    rw [map_append, flatMap_append, ← progress.sent, map_singleton, flatMap_singleton]
    exact drained.sent
  case emptied =>
    intro j mem
    rcases mem_append.mp mem with old | new
    · have ne : j ≠ h.index := fun same => unseen (same ▸ old)
      exact (progress.emptied j old).afterKey progress.named found
        (elsewhere j (progress.inside j old) ne)
    · rw [mem_singleton.mp new]
      exact emptied_afterKey progress.named (getD_mem inside) resolved found
  case untouched =>
    intro j insideJ unseenJ
    rw [mem_append, mem_singleton, not_or] at unseenJ
    rw [pktsOf_afterKey progress.named found (getD_mem insideJ) (elsewhere j insideJ unseenJ.2)]
    exact progress.untouched j insideJ unseenJ.1

section

variable (progress : Progress resolve keys s₀ overwritten seen h s)

include progress

theorem Progress.subperm : seen.Subperm (List.range keys.length) :=
  progress.distinct.subperm fun j mem => mem_range.mpr (progress.inside j mem)

theorem Progress.length_le : seen.length ≤ keys.length := by
  simpa using progress.subperm.length_le

theorem Progress.perm (all : seen.length = keys.length) : (seen.map (keys.getD · 0)).Perm keys := by
  have range : seen.Perm (List.range keys.length) :=
    progress.subperm.perm_of_length_le (by rw [length_range, all])
  have image : (List.range keys.length).map (keys.getD · 0) = keys := by
    apply ext_getElem (by simp)
    intro i _ inside
    simp [getElem?_eq_getElem inside]
  exact (range.map _).trans (.of_eq image)

theorem Progress.released (all : seen.length = keys.length) : Released resolve keys s₀ h s := by
  have perm := progress.perm all
  refine ⟨progress.handled ▸ perm, fun key mem => ?_, ?_, fun key mem => ?_⟩
  · obtain ⟨j, seen, rfl⟩ := mem_map.mp (perm.mem_iff.mpr mem)
    exact progress.emptied j seen
  · rw [progress.sent]
    exact perm.flatMap_right _
  · rw [progress.sent]
    exact sublist_flatten_of_mem (mem_map_of_mem (perm.mem_iff.mpr mem))

end

theorem notifyLoop_iff (accepts : ∀ call, 1 ≤ accept call) (fuel walkFuel : Nat)
    (overwritten : Nat) (seen : List Nat) (progress : Progress resolve keys s₀ overwritten seen h s)
    (enough : keys.length < fuel + seen.length) (walkEnough : keys.length < walkFuel + seen.length) :
    (∃ h' s', notifyLoop accept resolve keys.length fuel h s = some (h', s') ∧
        Released resolve keys s₀ h' s') ↔
      keyWalk (keys.map fun key => (pktsOf resolve s₀ key).length) walkFuel h.index overwritten seen =
        true := by
  have bound := progress.length_le
  induction fuel generalizing walkFuel h s overwritten seen with
  | zero => omega
  | succ fuel ih =>
    cases walkFuel with
    | zero => omega
    | succ walkFuel =>
      rw [keyWalk, length_map]
      by_cases passed : keys.length ≤ h.index
      · -- the loop ends here, and every key was met or not
        rw [if_pos passed, notifyLoop, if_pos passed, beq_iff_eq]
        constructor
        · rintro ⟨h', s', ended, released⟩
          cases ended
          have same := released.once.length_eq
          rwa [progress.handled, length_map] at same
        · exact fun all => ⟨h, s, rfl, progress.released all⟩
      · have inside := Nat.not_le.mp passed
        rw [if_neg passed]
        by_cases lost : h.index < overwritten ∨ h.index ∈ seen
        · rw [if_pos lost, notifyLoop_lost inside (progress.lost h.index inside lost)]
          simp
        · rw [if_neg lost]
          rw [not_or, Nat.not_lt] at lost
          obtain ⟨h', s', progress', index, round⟩ := progress.round accepts inside lost.1 lost.2
          have count : (keys.map fun key => (pktsOf resolve s₀ key).length).getD h.index 0 =
              (pktsOf resolve s₀ (keys.getD h.index 0)).length := by
            rw [getD_eq_getElem _ _ (by simpa using inside), getElem_map,
              getD_eq_getElem _ _ inside]
          have grown : (seen ++ [h.index]).length = seen.length + 1 := by simp
          rw [round fuel, count]
          dsimp only
          rw [← index]
          exact ih walkFuel _ _ progress' (by omega) (by omega) progress'.length_le

/-- Every packet buffered for the sessions of the keys is released exactly if the numbers of packets
let the loop meet all keys. -/
theorem notificationHandler_releases_iff (accept : Nat → Nat) (resolve : UInt32 → Option Nat)
    (keys : List UInt32) (s : RingState Pkt) (accepts : ∀ call, 1 ≤ accept call)
    (named : Named resolve keys s) :
    (∃ h s', notificationHandler accept resolve keys s = some (h, s') ∧
        Released resolve keys s h s') ↔
      allKeysMet (keys.map fun key => (pktsOf resolve s key).length) = true := by
  refine notifyLoop_iff accepts _ _ 0 [] (Progress.start named) ?_ (by simp)
  exact lt_of_lt_of_le (Nat.lt_succ_self _) (Nat.le_mul_of_pos_left _ (Nat.succ_pos _))

end

end

section

def twoSessions (first second : List Nat) : RingState Nat where
  rings := (Heap.empty.alloc { capacity := 63, pkts := first }).alloc { capacity := 63, pkts := second }
  container := [0, 1]
  numDlRings := 2
  sessions := (Heap.empty.alloc { dlRing := some 0, sessState := .idle }).alloc
    { dlRing := some 1, sessState := .idle }
  sessionsOf := fun context => if context = 0 then [0, 1] else []
  pcktCnt := fun _ => 64

def twoTeids (key : UInt32) : Option Nat :=
  if key = 10 then some 0 else if key = 11 then some 1 else none

theorem named_twoSessions (first second : List Nat) :
    Named twoTeids [10, 11] (twoSessions first second) := by
  refine ⟨by decide, fun key mem => ?_, ?_⟩
  · rcases mem_pair.mp mem with rfl | rfl
    · exact ⟨0, { dlRing := some 0, sessState := .idle }, rfl, rfl, by rintro ring ⟨⟩; rfl⟩
    · exact ⟨1, { dlRing := some 1, sessState := .idle }, rfl, rfl, by rintro ring ⟨⟩; rfl⟩
  · -- each session has the ring with its own number
    have own : ∀ a data, (twoSessions first second).sessions.cells a = some data →
        data.dlRing = some a := by
      intro a data live
      have bound : a < 2 := live_lt live
      interval_cases a <;> · cases live; rfl
    intro a b data data' ring liveA liveB ownA ownB
    rw [own a data liveA] at ownA
    rw [own b data' liveB] at ownB
    exact some_inj.mp (ownA.trans ownB.symm)

theorem notificationHandler_releases_second :
    ∃ h s', notificationHandler (fun _ => 32) twoTeids [10, 11] (twoSessions [] [7]) = some (h, s') ∧
      Released twoTeids [10, 11] (twoSessions [] [7]) h s' :=
  (notificationHandler_releases_iff (fun _ => 32) twoTeids [10, 11] (twoSessions [] [7])
    (fun _ => by decide)
    (named_twoSessions [] [7])).mpr (by decide)

/-- One packet of the first session and the key of the second is passed over. -/
theorem notificationHandler_passes_second :
    Named twoTeids [10, 11] (twoSessions [7] [8]) ∧
      ¬∃ h s', notificationHandler (fun _ => 32) twoTeids [10, 11] (twoSessions [7] [8]) = some (h, s') ∧
        Released twoTeids [10, 11] (twoSessions [7] [8]) h s' := by
  refine ⟨named_twoSessions [7] [8], ?_⟩
  rintro ⟨h, s', ended, released⟩
  have handled : (notificationHandler (fun _ => 32) twoTeids [10, 11] (twoSessions [7] [8])).map
      (·.1.handled) = some [10] := by decide
  rw [ended, map_some, some_inj] at handled
  have once := released.once.length_eq
  rw [handled] at once
  cases once

end

end Epc.Up
