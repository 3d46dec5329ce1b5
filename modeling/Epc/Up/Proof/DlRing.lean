import Epc.Lib.Run
import Epc.Up.Proof.Notification

/-! Runs of what is done with the rings, and when the container of the rings holds those of the sessions.
The container gives out its oldest ring, whichever ring is freed. -/

namespace Epc.Up

open Epc.Lib Epc.Lib.Run List Function Option Heap

section

variable {Holder Item : Type*} [DecidableEq Holder]

structure Holds (itemOf : Holder → Option Item) (queue : List Item) : Prop where
  nodup : queue.Nodup
  mem_iff : ∀ item, item ∈ queue ↔ ∃ holder, itemOf holder = some item
  apart : ∀ a b item, itemOf a = some item → itemOf b = some item → a = b

variable {itemOf : Holder → Option Item} {queue : List Item} {holder : Holder} {item : Item}

theorem Holds.release (holds : Holds itemOf (item :: queue)) (own : itemOf holder = some item) :
    Holds (Function.update itemOf holder none) queue := by
  obtain ⟨absent, nodup⟩ := nodup_cons.mp holds.nodup
  have other : ∀ a kept, Function.update itemOf holder none a = some kept →
      a ≠ holder ∧ itemOf a = some kept := by
    intro a kept has
    by_cases same : a = holder
    · subst same
      rw [update_self] at has
      cases has
    · exact ⟨same, by rwa [update_of_ne same] at has⟩
  refine ⟨nodup, fun kept => ⟨fun mem => ?_, ?_⟩, fun a b kept hasA hasB =>
    holds.apart a b kept (other a kept hasA).2 (other b kept hasB).2⟩
  · obtain ⟨a, has⟩ := (holds.mem_iff kept).mp (mem_cons_of_mem _ mem)
    refine ⟨a, ?_⟩
    rw [update_of_ne, has]
    rintro rfl
    exact absent (some_inj.mp (own.symm.trans has) ▸ mem)
  · rintro ⟨a, has⟩
    obtain ⟨ne, old⟩ := other a kept has
    rcases mem_cons.mp ((holds.mem_iff kept).mpr ⟨a, old⟩) with rfl | mem
    · exact absurd (holds.apart a holder kept old own) ne
    · exact mem

theorem Holds.acquire (holds : Holds itemOf queue) (free : itemOf holder = none) (new : item ∉ queue) :
    Holds (Function.update itemOf holder (some item)) (queue ++ [item]) := by
  have old : ∀ a kept, itemOf a = some kept →
      Function.update itemOf holder (some item) a = some kept := by
    intro a kept has
    rw [update_of_ne, has]
    rintro rfl
    rw [free] at has
    cases has
  have inverse : ∀ a kept, Function.update itemOf holder (some item) a = some kept →
      (a = holder ∧ kept = item) ∨ (itemOf a = some kept ∧ kept ≠ item) := by
    intro a kept has
    by_cases same : a = holder
    · subst same
      rw [update_self, some_inj] at has
      exact .inl ⟨rfl, has.symm⟩
    · rw [update_of_ne same] at has
      refine .inr ⟨has, ?_⟩
      rintro rfl
      exact new ((holds.mem_iff kept).mpr ⟨a, has⟩)
  constructor
  case nodup =>
    rw [nodup_append]
    refine ⟨holds.nodup, nodup_singleton _, fun a mem b here => ?_⟩
    rw [mem_singleton.mp here]
    rintro rfl
    exact new mem
  case mem_iff =>
    intro kept
    rw [mem_append, mem_singleton, holds.mem_iff]
    constructor
    · rintro (⟨a, has⟩ | rfl)
      · exact ⟨a, old a kept has⟩
      · exact ⟨holder, update_self ..⟩
    · rintro ⟨a, has⟩
      exact (inverse a kept has).elim (fun h => .inr h.2) fun h => .inl ⟨a, h.1⟩
  case apart =>
    intro a b kept hasA hasB
    rcases inverse a kept hasA with ⟨rfl, rfl⟩ | ⟨oldA, differentA⟩ <;>
      rcases inverse b kept hasB with ⟨rfl, same⟩ | ⟨oldB, differentB⟩
    · rfl
    · exact absurd rfl differentB
    · exact absurd same differentA
    · exact holds.apart a b kept oldA oldB

end

section

variable {Pkt : Type} {f : BufferData → BufferData}

namespace RingState

def ringOf (s : RingState Pkt) (session : Nat) : Option Nat :=
  (s.sessions.cells session).bind (·.dlRing)

def contextRings (s : RingState Pkt) (context : Nat) : List Nat :=
  (s.sessionsOf context).filterMap s.ringOf

/-- The container holds the rings of live session data, each once, and no freed ring. -/
structure ContainerExact (s : RingState Pkt) : Prop where
  once : s.container.Nodup
  mem_iff : ∀ ring, ring ∈ s.container ↔
    ∃ session data, s.sessions.cells session = some data ∧ data.dlRing = some ring
  live : ∀ ring ∈ s.container, (s.rings.cells ring).isSome

structure Inv (s : RingState Pkt) : Prop where
  holds : Holds s.ringOf s.container
  live : ∀ ring ∈ s.container, (s.rings.cells ring).isSome
  bounded : s.container.length ≤ s.numDlRings

/-- The contexts list live session data, each in one place of one list. -/
structure Listed (s : RingState Pkt) : Prop where
  nodup : ∀ context, (s.sessionsOf context).Nodup
  live : ∀ context, ∀ session ∈ s.sessionsOf context, (s.sessions.cells session).isSome
  apart : ∀ a b session, session ∈ s.sessionsOf a → session ∈ s.sessionsOf b → a = b

structure SameSessions (s s' : RingState Pkt) : Prop where
  lists : s'.sessionsOf = s.sessionsOf
  live : ∀ session, (s'.sessions.cells session).isSome = (s.sessions.cells session).isSome

theorem SameSessions.refl (s : RingState Pkt) : SameSessions s s := ⟨rfl, fun _ => rfl⟩

theorem SameSessions.trans {s t u : RingState Pkt} (first : SameSessions s t)
    (second : SameSessions t u) : SameSessions s u :=
  ⟨second.lists.trans first.lists, fun session => (second.live session).trans (first.live session)⟩

theorem Listed.same {s s' : RingState Pkt} (listed : Listed s) (same : SameSessions s s') :
    Listed s' := by
  refine ⟨fun context => ?_, fun context session mem => ?_, fun a b session inA inB => ?_⟩
  · rw [same.lists]
    exact listed.nodup context
  · rw [same.lists] at mem
    rw [same.live]
    exact listed.live context session mem
  · rw [same.lists] at inA inB
    exact listed.apart a b session inA inB

theorem Inv.containerExact {s : RingState Pkt} (inv : Inv s) : ContainerExact s := by
  refine ⟨inv.holds.nodup, fun ring => ?_, inv.live⟩
  rw [inv.holds.mem_iff]
  simp only [ringOf, bind_eq_some_iff]

theorem ringOf_freeSession (s : RingState Pkt) (session : Nat) :
    ringOf { s with sessions := s.sessions.free session } = Function.update s.ringOf session none := by
  funext a
  by_cases here : a = session
  · subst here
    rw [update_self, ringOf, free_cells_self]
    rfl
  · rw [update_of_ne here, ringOf, free_cells_of_ne here]
    rfl

theorem SameSessions.of_update {s s' : RingState Pkt} {session : Nat}
    (lists : s'.sessionsOf = s.sessionsOf) (sessions : s'.sessions = s.sessions.update session f) :
    SameSessions s s' := by
  refine ⟨lists, fun a => ?_⟩
  rw [sessions]
  by_cases here : a = session
  · rw [here, update_cells_self, isSome_map]
  · rw [update_cells_of_ne here]

section

variable {s : RingState Pkt} {session ring : Nat} {data : BufferData}

theorem ringOf_of_data (found : s.sessions.cells session = some data) :
    s.ringOf session = data.dlRing := by
  rw [ringOf, found]
  rfl

variable {rest : List Nat} {s' : RingState Pkt}

theorem ringOf_of_update (found : s.sessions.cells session = some data)
    {item : Option Nat} (sessions : s'.sessions = s.sessions.update session f)
    (now : (f data).dlRing = item) : s'.ringOf = Function.update s.ringOf session item := by
  funext a
  by_cases here : a = session
  · rw [here, update_self, ringOf, sessions, update_cells_self, found]
    exact now
  · rw [update_of_ne here, ringOf, sessions, update_cells_of_ne here]
    rfl

theorem Inv.release (inv : Inv s) (oldest : s.container = ring :: rest)
    (own : s.ringOf session = some ring) (rings : s'.rings = s.rings.free ring)
    (container : s'.container = s.container.tail) (count : s'.numDlRings = s.numDlRings)
    (ringOf : s'.ringOf = Function.update s.ringOf session none) : Inv s' := by
  have bounded := inv.bounded
  rw [oldest, length_cons] at bounded
  rw [oldest, tail_cons] at container
  refine ⟨?_, ?_, ?_⟩
  · rw [ringOf, container]
    exact Holds.release (oldest ▸ inv.holds) own
  · rw [rings, container]
    intro r mem
    have nodup := inv.holds.nodup
    rw [oldest, nodup_cons] at nodup
    have ne : r ≠ ring := fun same => nodup.1 (same ▸ mem)
    rw [free_cells_of_ne ne]
    exact inv.live r (oldest ▸ mem_cons_of_mem _ mem)
  · rw [container, count]
    omega

theorem Inv.releaseRing (inv : Inv s) (oldest : s.container = ring :: rest)
    (found : s.sessions.cells session = some data) (own : data.dlRing = some ring)
    (gone : (f data).dlRing = none) : Inv ((s.releaseRing ring).updateSession session f) :=
  inv.release oldest ((ringOf_of_data found).trans own) rfl rfl rfl
    (ringOf_of_update found rfl gone)

def withRing (capacity : UInt8 → Nat) (size : UInt8) (s : RingState Pkt) : RingState Pkt :=
  { s with
    rings := s.rings.alloc { capacity := capacity size }
    container := enqueueContainer s.container s.rings.next
    numDlRings := s.numDlRings + 1 }

theorem allocateRing_cases (capacity : UInt8 → Nat) (size : UInt8) (s : RingState Pkt) :
    allocateRing capacity size s = (none, s) ∨
      allocateRing capacity size s = (some s.rings.next, s.withRing capacity size) := by
  rw [allocateRing]
  split
  · exact .inr rfl
  · exact .inl rfl

theorem Inv.enqueueContainer_eq (ring : Nat) (inv : Inv s) (few : s.numDlRings + 1 < dlRingContainerSize) :
    enqueueContainer s.container ring = s.container ++ [ring] := by
  have bounded := inv.bounded
  rw [enqueueContainer, if_pos (by omega)]

theorem Inv.next_notMem (inv : Inv s) : s.rings.next ∉ s.container := by
  intro mem
  obtain ⟨r, live⟩ := isSome_iff_exists.mp (inv.live _ mem)
  exact absurd (live_lt live) (lt_irrefl _)

theorem Inv.acquire (inv : Inv s) (free : s.ringOf session = none)
    (rings : ∀ r, (s.rings.cells r).isSome ∨ r = s.rings.next → (s'.rings.cells r).isSome)
    (container : s'.container = s.container ++ [s.rings.next]) (count : s'.numDlRings = s.numDlRings + 1)
    (ringOf : s'.ringOf = Function.update s.ringOf session (some s.rings.next)) : Inv s' := by
  refine ⟨?_, fun r mem => rings r ?_, ?_⟩
  · rw [ringOf, container]
    exact inv.holds.acquire free inv.next_notMem
  · rw [container, mem_append, mem_singleton] at mem
    exact mem.imp_left (inv.live r)
  · have bounded := inv.bounded
    rw [container, count, length_append, length_singleton]
    omega

theorem Inv.congr (inv : Inv s) (rings : ∀ r, (s'.rings.cells r).isSome = (s.rings.cells r).isSome)
    (container : s'.container = s.container) (count : s'.numDlRings = s.numDlRings)
    (ringOf : s'.ringOf = s.ringOf) : Inv s' := by
  refine ⟨?_, fun r mem => ?_, ?_⟩
  · rw [ringOf, container]
    exact inv.holds
  · rw [rings]
    exact inv.live r (container ▸ mem)
  · rw [container, count]
    exact inv.bounded

end

section

variable {s : RingState Pkt}

variable {session ring new : Nat} {rest : List Nat}

theorem prefix_rest (own : s.ringOf session = some ring)
    (ahead : (session :: rest).filterMap s.ringOf <+: s.container) :
    ∃ container, s.container = ring :: container ∧ rest.filterMap s.ringOf <+: container := by
  rw [filterMap_cons_some own] at ahead
  obtain ⟨later, split⟩ := ahead
  exact ⟨rest.filterMap s.ringOf ++ later, split.symm, prefix_append _ _⟩

theorem filterMap_update (ringOf : Nat → Option Nat) (item : Option Nat) (absent : session ∉ rest) :
    rest.filterMap (Function.update ringOf session item) = rest.filterMap ringOf := by
  refine filterMap_congr fun a mem => update_of_ne ?_ _ _
  rintro rfl
  exact absent mem

section

variable (list : List Nat) (inv : Inv s) (nodup : list.Nodup)
  (live : ∀ session ∈ list, (s.sessions.cells session).isSome)
  (ahead : list.filterMap s.ringOf <+: s.container)

include list inv nodup live ahead

theorem Inv.dropBuffered :
    ∃ s', Up.dropBuffered list s = some s' ∧ Inv s' ∧ SameSessions s s' ∧
      s'.numDlRings = s.numDlRings := by
  induction list generalizing s with
  | nil => exact ⟨s, rfl, inv, .refl s, rfl⟩
  | cons session rest ih =>
    obtain ⟨absent, nodup⟩ := nodup_cons.mp nodup
    rw [forall_mem_cons] at live
    obtain ⟨data, found⟩ := isSome_iff_exists.mp live.1
    cases own : data.dlRing with
    | none =>
      rw [filterMap_cons_none ((ringOf_of_data found).trans own)] at ahead
      simpa only [Up.dropBuffered, found, own] using ih inv nodup live.2 ahead
    | some ring =>
      have has := (ringOf_of_data found).trans own
      obtain ⟨container, oldest, ahead⟩ := prefix_rest has ahead
      have freed : ((s.releaseRing ring).updateSession session fun data =>
          { data with dlRing := none }).ringOf = _ := ringOf_of_update found rfl rfl
      have same : SameSessions s ((s.releaseRing ring).updateSession session fun data =>
        { data with dlRing := none }) := .of_update rfl rfl
      obtain ⟨s', done, inv', same', count⟩ := ih (inv.releaseRing oldest found own rfl) nodup
        (fun a mem => (same.live a).trans (live.2 a mem))
        (by
          rw [freed, filterMap_update _ _ absent]
          change _ <+: s.container.tail
          rw [oldest]
          exact ahead)
      refine ⟨s', ?_, inv', same.trans same', count⟩
      simpa only [Up.dropBuffered, found, own] using done

theorem Inv.deleteSessionData :
    ∃ s', Up.deleteSessionData list s = some s' ∧ Inv s' ∧ s'.sessionsOf = s.sessionsOf ∧
      (∀ session ∉ list, s'.sessions.cells session = s.sessions.cells session) := by
  induction list generalizing s with
  | nil => exact ⟨s, rfl, inv, rfl, fun _ _ => rfl⟩
  | cons session rest ih =>
    obtain ⟨absent, nodup⟩ := nodup_cons.mp nodup
    rw [forall_mem_cons] at live
    obtain ⟨data, found⟩ := isSome_iff_exists.mp live.1
    have ne : ∀ a ∈ rest, a ≠ session := fun a mem same => absent (same ▸ mem)
    have keep : ∀ a ∈ rest, ((s.sessions.free session).cells a).isSome := fun a mem => by
      rw [free_cells_of_ne (ne a mem)]
      exact live.2 a mem
    cases own : data.dlRing with
    | none =>
      rw [filterMap_cons_none ((ringOf_of_data found).trans own)] at ahead
      have freed := ringOf_freeSession s session
      rw [update_eq_self_iff.mpr ((ringOf_of_data found).trans own).symm] at freed
      have inv₁ : Inv { s with sessions := s.sessions.free session } :=
        inv.congr (fun _ => rfl) rfl rfl freed
      obtain ⟨s', done, inv', lists, others⟩ := ih inv₁ nodup keep (by rwa [freed])
      refine ⟨s', ?_, inv', lists, fun a out => ?_⟩
      · simpa only [Up.deleteSessionData, found, own] using done
      · rw [mem_cons, not_or] at out
        rw [others a out.2, free_cells_of_ne out.1]
    | some ring =>
      have has := (ringOf_of_data found).trans own
      obtain ⟨container, oldest, ahead⟩ := prefix_rest has ahead
      have freed := ringOf_freeSession (s.releaseRing ring) session
      have inv₁ : Inv { s.releaseRing ring with
          sessions := (s.releaseRing ring).sessions.free session } :=
        inv.release oldest has rfl rfl rfl freed
      obtain ⟨s', done, inv', lists, others⟩ := ih inv₁ nodup keep
        (by
          rw [freed]
          change rest.filterMap (Function.update s.ringOf session none) <+: s.container.tail
          rw [filterMap_update _ _ absent, oldest]
          exact ahead)
      refine ⟨s', ?_, inv', lists, fun a out => ?_⟩
      · simpa only [Up.deleteSessionData, found, own] using done
      · rw [mem_cons, not_or] at out
        rw [others a out.2]
        exact free_cells_of_ne out.1

end

variable {capacity : UInt8 → Nat} {size : UInt8} {context : Nat}

variable (capacity size) in
def replaceRing (s : RingState Pkt) (session ring : Nat) (r : DlRing Pkt) : RingState Pkt :=
  let s' := { s.withRing capacity size with
    rings := (s.withRing capacity size).rings.update s.rings.next fun r' =>
      { r' with pkts := r.pkts.take r'.capacity } }
  (s'.releaseRing ring).updateSession session fun data => { data with dlRing := some s.rings.next }

variable {r : DlRing Pkt} {data : BufferData}

theorem isSome_replaceRing_rings {a : Nat} (ne : a ≠ ring)
    (live : (s.rings.cells a).isSome ∨ a = s.rings.next) :
    ((s.replaceRing capacity size session ring r).rings.cells a).isSome := by
  change ((((s.rings.alloc _).update s.rings.next _).free ring).cells a).isSome
  rw [free_cells_of_ne ne]
  by_cases here : a = s.rings.next
  · rw [here, update_cells_self, alloc_cells_next]
    rfl
  · rw [update_cells_of_ne here, alloc_cells_of_ne here]
    exact live.resolve_right here

theorem Inv.replaceRing (inv : Inv s) (oldest : s.container = ring :: rest)
    (found : s.sessions.cells session = some data) (own : data.dlRing = some ring)
    (few : s.numDlRings + 1 < dlRingContainerSize) :
    Inv (s.replaceRing capacity size session ring r) ∧
      (s.replaceRing capacity size session ring r).container = rest ++ [s.rings.next] := by
  have container : (s.replaceRing capacity size session ring r).container =
      rest ++ [s.rings.next] := by
    change (enqueueContainer s.container s.rings.next).tail = _
    rw [inv.enqueueContainer_eq s.rings.next few, oldest]
    rfl
  have next : ring ≠ s.rings.next := fun same => inv.next_notMem (oldest ▸ same ▸ mem_cons_self)
  have freed : ((s.releaseRing ring).updateSession session fun data =>
      { data with dlRing := none }).ringOf = _ := ringOf_of_update found rfl rfl
  have free := (congrFun freed session).trans (update_self ..)
  refine ⟨(inv.releaseRing (f := fun data => { data with dlRing := none }) oldest found own
    rfl).acquire free (fun a live => ?_) ?_ rfl ?_, container⟩
  · refine isSome_replaceRing_rings ?_ (live.imp_left fun live => ?_)
    · rintro rfl
      rcases live with live | isNext
      · rw [updateSession, RingState.releaseRing, free_cells_self] at live
        cases live
      · exact next isNext
    · by_cases here : a = ring
      · rw [here, updateSession, RingState.releaseRing, free_cells_self] at live
        cases live
      · rwa [updateSession, RingState.releaseRing, free_cells_of_ne here] at live
  · rw [container]
    change _ = s.container.tail ++ _
    rw [oldest]
    rfl
  · rw [freed, update_idem]
    exact ringOf_of_update found rfl rfl

theorem replaceRings_ok (context : Nat) (list : List Nat) (nodup : list.Nodup)
    (live : ∀ session ∈ list, (s.sessions.cells session).isSome)
    (apart : (list.filterMap s.ringOf).Nodup)
    (rings : ∀ ring ∈ list.filterMap s.ringOf, (s.rings.cells ring).isSome)
    (inv : s.numDlRings < dlRingContainerSize → Inv s ∧ list.filterMap s.ringOf <+: s.container) :
    ∃ s', replaceRings capacity size context list s = some s' ∧ SameSessions s s' ∧
      s.numDlRings ≤ s'.numDlRings ∧ (s'.numDlRings < dlRingContainerSize → Inv s') := by
  induction list generalizing s with
  | nil =>
    exact ⟨_, rfl, ⟨rfl, fun _ => rfl⟩, le_rfl,
      fun few => (inv few).1.congr (fun _ => rfl) rfl rfl rfl⟩
  | cons session rest ih =>
    obtain ⟨absent, nodup⟩ := nodup_cons.mp nodup
    rw [forall_mem_cons] at live
    obtain ⟨data, found⟩ := isSome_iff_exists.mp live.1
    have has := ringOf_of_data found
    cases own : data.dlRing with
    | none =>
      rw [filterMap_cons_none (has.trans own)] at apart rings inv
      simpa only [replaceRings, found, own] using ih nodup live.2 apart rings inv
    | some ring =>
      rw [own] at has
      rw [filterMap_cons_some has] at apart rings
      rw [forall_mem_cons] at rings
      obtain ⟨r, ringLive⟩ := isSome_iff_exists.mp rings.1
      rcases allocateRing_cases capacity size s with failed | made
      · refine ⟨s, ?_, .refl s, le_rfl, fun few => (inv few).1⟩
        simp only [replaceRings, found, own, ringLive, failed]
      · have same : SameSessions s (s.replaceRing capacity size session ring r) :=
          .of_update rfl rfl
        have others : rest.filterMap (s.replaceRing capacity size session ring r).ringOf =
            rest.filterMap s.ringOf := by
          rw [ringOf_of_update found rfl rfl, filterMap_update _ _ absent]
        obtain ⟨s', done, same', grows, inv'⟩ := ih nodup
          (fun a mem => (same.live a).trans (live.2 a mem)) (others ▸ (nodup_cons.mp apart).2)
          (fun a kept => by
            rw [others] at kept
            exact isSome_replaceRing_rings (fun same => (nodup_cons.mp apart).1 (same ▸ kept))
              (.inl (rings.2 a kept)))
          (fun few => by
            obtain ⟨inv, ahead⟩ := inv (Nat.lt_of_succ_lt few)
            obtain ⟨container, oldest, ahead⟩ := prefix_rest has ahead
            obtain ⟨inv', queue⟩ := inv.replaceRing oldest found own few
            rw [others, queue]
            exact ⟨inv', ahead.trans (prefix_append _ _)⟩)
        refine ⟨s', ?_, same.trans same', Nat.le_of_succ_le grows, inv'⟩
        simp only [replaceRings, found, own, ringLive, made]
        exact done

end

section

variable {s : RingState Pkt} {session ring : Nat} {data : BufferData}

theorem bufferPkt_ok (pdr : BufferPdr) (session : Nat) (pkt : Pkt) {r : DlRing Pkt}
    (ringLive : s.rings.cells ring = some r) :
    ∃ s', Up.bufferPkt pdr session ring pkt s = some s' ∧ SameSessions s s' ∧
      s'.numDlRings = s.numDlRings ∧
      (Inv s → s.ringOf session = some ring →
        ((pdr.nocp || pdr.buff || pdr.forw) = true → r.capacity ≤ r.pkts.length →
          s.container.head? = some ring) → Inv s') := by
  rw [Up.bufferPkt]
  split
  case isFalse => exact ⟨s, rfl, .refl s, rfl, fun inv _ _ => inv⟩
  case isTrue buffers =>
    rw [ringLive, map_some]
    refine ⟨_, rfl, ?_⟩
    split
    case isTrue =>
      refine ⟨⟨rfl, fun _ => rfl⟩, rfl, fun inv _ _ => inv.congr (fun a => ?_) rfl rfl rfl⟩
      by_cases here : a = ring
      · rw [here, update_cells_self, isSome_map]
      · rw [update_cells_of_ne here]
    case isFalse more =>
      refine ⟨.of_update rfl rfl, rfl, fun inv own full => ?_⟩
      obtain ⟨data, found, own⟩ := bind_eq_some_iff.mp own
      obtain ⟨rest, oldest⟩ := head?_eq_some_iff.mp (full buffers (Nat.not_lt.mp more))
      exact inv.releaseRing oldest found own rfl

end

end RingState

inductive RingOp (Pkt : Type) where
  | openData (context : Nat)
  | enqueue (pdr : Option BufferPdr) (session : Nat) (pkt : Pkt) (endMarker : Bool)
  | notify (accept : Nat → Nat) (resolve : UInt32 → Option Nat) (keys : List UInt32)
  | reportResponse (context : Nat) (size : UInt8)
  | dropBuffered (context : Nat)
  | delete (context : Nat)

section

variable (capacity : UInt8 → Nat)

def RingOp.exec (s : RingState Pkt) : RingOp Pkt → Option (RingState Pkt)
  | .openData context => some (openSessionData context s)
  | .enqueue pdr session pkt endMarker => enqueueDlPkt capacity pdr session pkt endMarker s
  | .notify accept resolve keys => (notificationHandler accept resolve keys s).map (·.2)
  | .reportResponse context size => processUpSessionReportResp capacity context size s
  | .dropBuffered context => Up.dropBuffered (s.sessionsOf context) s
  | .delete context => upDeleteSession context s

def RingOp.step (s : RingState Pkt) (op : RingOp Pkt) : RingState Pkt :=
  (op.exec capacity s).getD s

/-- A packet is buffered for a live session; a full ring is the oldest of the container. -/
def RingState.EnqueueOk (s : RingState Pkt) (pdr : BufferPdr) (session : Nat) : Prop :=
  (s.sessions.cells session).isSome ∧
    ((pdr.nocp || pdr.buff || pdr.forw) = true →
      (∀ ring ∈ s.ringOf session, ∀ r ∈ s.rings.cells ring,
        r.capacity ≤ r.pkts.length → s.container.head? = some ring) ∧
      (s.ringOf session = none → capacity pdr.pcktCnt = 0 → s.container = []))

instance decidableEnqueueOk (s : RingState Pkt) (pdr : BufferPdr) (session : Nat) :
    Decidable (s.EnqueueOk capacity pdr session) := by
  unfold RingState.EnqueueOk
  infer_instance

/-- The rings freed are the oldest of the container, in order; no session with a ring is notified.
-/
def RingOp.Ok (s : RingState Pkt) : RingOp Pkt → Prop
  | .openData _ => True
  | .enqueue pdr session _ endMarker =>
    ∀ p ∈ pdr, (p.drop || endMarker) = false → s.EnqueueOk capacity p session
  | .notify _ resolve keys =>
    ∀ key ∈ keys, ∀ session ∈ resolve key,
      (s.sessions.cells session).map (·.dlRing) = some none
  | .reportResponse context size => s.pcktCnt context = size ∨ s.contextRings context <+: s.container
  | .dropBuffered context => s.contextRings context <+: s.container
  | .delete context => s.contextRings context <+: s.container

instance decidableRingOk (s : RingState Pkt) : ∀ op : RingOp Pkt, Decidable (op.Ok capacity s)
  | .openData _ => isTrue trivial
  | .enqueue pdr session _ endMarker =>
    inferInstanceAs (Decidable
      (∀ p ∈ pdr, (p.drop || endMarker) = false → s.EnqueueOk capacity p session))
  -- the keys are those of the list, not all there are
  | .notify _ _ keys => List.decidableBAll _ keys
  | .reportResponse context size =>
    inferInstanceAs (Decidable
      (s.pcktCnt context = size ∨ s.contextRings context <+: s.container))
  | .dropBuffered context => inferInstanceAs (Decidable (s.contextRings context <+: s.container))
  | .delete context => inferInstanceAs (Decidable (s.contextRings context <+: s.container))

variable {capacity} {s : RingState Pkt}

namespace RingState

theorem sessionsOf_openSessionData_self (s : RingState Pkt) (context : Nat) :
    (openSessionData context s).sessionsOf context = s.sessionsOf context ++ [s.sessions.next] :=
  update_self ..

theorem sessionsOf_openSessionData_of_ne (s : RingState Pkt) {context c : Nat}
    (ne : c ≠ context) : (openSessionData context s).sessionsOf c = s.sessionsOf c :=
  update_of_ne ne ..

theorem listed_openSessionData (listed : Listed s) (context : Nat) :
    Listed (openSessionData context s) := by
  have fresh : ∀ c, s.sessions.next ∉ s.sessionsOf c := by
    intro c mem
    obtain ⟨data, live⟩ := isSome_iff_exists.mp (listed.live c _ mem)
    exact absurd (live_lt live) (lt_irrefl _)
  have listedIn : ∀ c session, session ∈ (openSessionData context s).sessionsOf c →
      session ∈ s.sessionsOf c ∨ (c = context ∧ session = s.sessions.next) := by
    intro c session mem
    by_cases here : c = context
    · subst here
      rw [sessionsOf_openSessionData_self, mem_append, mem_singleton] at mem
      exact mem.imp_right fun same => ⟨rfl, same⟩
    · rw [sessionsOf_openSessionData_of_ne s here] at mem
      exact .inl mem
  refine ⟨fun c => ?_, fun c session mem => ?_, fun a b session inA inB => ?_⟩
  · by_cases here : c = context
    · subst here
      rw [sessionsOf_openSessionData_self, nodup_append]
      refine ⟨listed.nodup c, nodup_singleton _, fun a old b new same => ?_⟩
      rw [mem_singleton] at new
      exact fresh c (new ▸ same ▸ old)
    · rw [sessionsOf_openSessionData_of_ne s here]
      exact listed.nodup c
  · change ((s.sessions.alloc {}).cells session).isSome
    rcases listedIn c session mem with old | ⟨-, rfl⟩
    · rw [alloc_cells_of_ne fun same => fresh c (same ▸ old)]
      exact listed.live c session old
    · rw [alloc_cells_next]
      rfl
  · rcases listedIn a session inA with oldA | ⟨rfl, newA⟩ <;>
      rcases listedIn b session inB with oldB | ⟨rfl, newB⟩
    · exact listed.apart a b session oldA oldB
    · exact absurd (newB ▸ oldA) (fresh a)
    · exact absurd (newA ▸ oldB) (fresh b)
    · rfl

theorem ringOf_openSessionData (s : RingState Pkt) (context : Nat) :
    (openSessionData context s).ringOf = s.ringOf := by
  funext a
  by_cases here : a = s.sessions.next
  · subst here
    rw [ringOf, ringOf, openSessionData, alloc_cells_next, s.sessions.fresh _ le_rfl]
    rfl
  · rw [ringOf, ringOf, openSessionData, alloc_cells_of_ne here]

theorem listed_delete {s' : RingState Pkt} (listed : Listed s) (context : Nat)
    (lists : s'.sessionsOf = s.sessionsOf) (others : ∀ session ∉ s.sessionsOf context,
      s'.sessions.cells session = s.sessions.cells session) :
    Listed { s' with sessionsOf := Function.update s'.sessionsOf context [] } := by
  have left : ∀ c session, session ∈ Function.update s'.sessionsOf context [] c →
      c ≠ context ∧ session ∈ s.sessionsOf c := by
    intro c session mem
    by_cases here : c = context
    · subst here
      rw [update_self] at mem
      cases mem
    · rw [update_of_ne here, lists] at mem
      exact ⟨here, mem⟩
  refine ⟨fun c => ?_, fun c session mem => ?_, fun a b session inA inB => ?_⟩
  · by_cases here : c = context
    · subst here
      dsimp only
      rw [update_self]
      exact nodup_nil
    · dsimp only
      rw [update_of_ne here, lists]
      exact listed.nodup c
  · obtain ⟨ne, old⟩ := left c session mem
    rw [others session fun deleted => ne (listed.apart c context session old deleted)]
    exact listed.live c session old
  · exact listed.apart a b session (left a session inA).2 (left b session inB).2

def Ringless (resolve : UInt32 → Option Nat) (keys : List UInt32) (s : RingState Pkt) : Prop :=
  ∀ key ∈ keys, ∀ session ∈ resolve key, (s.sessions.cells session).map (·.dlRing) = some none

theorem notifyLoop_ringless (accept : Nat → Nat) {resolve : UInt32 → Option Nat} {keys : List UInt32}
    (fuel : Nat) (h : Handler Pkt) (ringless : Ringless resolve keys s) (inv : Inv s)
    (slots : ∀ j < keys.length, h.index ≤ j → h.slots[j]? = some (.key (keys.getD j 0)))
    (within : h.index ≤ keys.length) (enough : keys.length < fuel + h.index) :
    ∃ h' s', notifyLoop accept resolve keys.length fuel h s = some (h', s') ∧ Inv s' ∧
      SameSessions s s' := by
  induction fuel generalizing h s with
  | zero => omega
  | succ fuel ih =>
    by_cases passed : keys.length ≤ h.index
    · exact ⟨h, s, by rw [notifyLoop, if_pos passed], inv, .refl s⟩
    · have inside := Nat.not_le.mp passed
      have slot := slots h.index inside le_rfl
      cases resolved : resolve (keys.getD h.index 0) with
      | none =>
        obtain ⟨h', s', done, rest⟩ := ih { h with index := h.index + 1 } ringless inv
          (fun j insideJ later => slots j insideJ (Nat.le_of_succ_le later))
          (by dsimp only; omega) (by dsimp only; omega)
        refine ⟨h', s', ?_, rest⟩
        simpa only [notifyLoop, passed, if_false, slot, resolved] using done
      | some session =>
        obtain ⟨data, found, own⟩ := map_eq_some_iff.mp
          (ringless _ (getD_mem inside) session resolved)
        have sameRings : (s.updateSession session fun data =>
            { data with sessState := .connected }).ringOf = s.ringOf := by
          rw [ringOf_of_update found rfl rfl]
          exact update_eq_self_iff.mpr ((ringOf_of_data found).trans rfl).symm
        have ringless' : Ringless resolve keys (s.updateSession session fun data =>
            { data with sessState := .connected }) := by
          intro key mem a resolvedA
          have before := ringless key mem a resolvedA
          by_cases here : a = session
          · subst here
            rw [updateSession, update_cells_self, Option.map_map]
            exact before
          · rw [updateSession, update_cells_of_ne here]
            exact before
        obtain ⟨h', s', done, inv', same⟩ := ih
          { h with
            slots := h.slots.set h.index .freed
            handled := h.handled ++ [keys.getD h.index 0]
            index := h.index + 1 } ringless'
          (inv.congr (fun _ => rfl) rfl rfl sameRings)
          (fun j insideJ later => by
            dsimp only at later ⊢
            rw [getElem?_set_ne (by omega)]
            exact slots j insideJ (by omega))
          (by dsimp only; omega) (by dsimp only; omega)
        refine ⟨h', s', ?_, inv', .trans (t := s.updateSession session _) (.of_update rfl rfl) same⟩
        simpa only [notifyLoop, passed, if_false, slot, resolved, found, own] using done

variable (capacity) in
def startBuffering (s : RingState Pkt) (pdr : BufferPdr) (session : Nat) : RingState Pkt :=
  (s.withRing capacity pdr.pcktCnt).updateSession session fun data =>
    { dlRing := some s.rings.next
      sessState := if data.sessState = .idle ∧ pdr.nocp then .inProgress else data.sessState }

variable {session : Nat}

theorem Inv.startBuffering {pdr : BufferPdr} {data : BufferData} (inv : Inv s)
    (found : s.sessions.cells session = some data) (own : data.dlRing = none)
    (few : s.numDlRings + 1 < dlRingContainerSize) : Inv (s.startBuffering capacity pdr session) := by
  refine inv.acquire ((ringOf_of_data found).trans own) (fun r live => ?_)
    (inv.enqueueContainer_eq _ few) rfl (ringOf_of_update found rfl rfl)
  change ((s.rings.alloc _).cells r).isSome
  by_cases new : r = s.rings.next
  · rw [new, alloc_cells_next]
    rfl
  · rw [alloc_cells_of_ne new]
    exact live.resolve_right new

theorem Inv.firstPkt {pdr : BufferPdr} {data : BufferData} (pkt : Pkt) (inv : Inv s)
    (found : s.sessions.cells session = some data) (own : data.dlRing = none)
    (fits : (pdr.nocp || pdr.buff || pdr.forw) = true → capacity pdr.pcktCnt = 0 → s.container = []) :
    ∃ s', Up.bufferPkt pdr session s.rings.next pkt (s.startBuffering capacity pdr session) = some s' ∧
      SameSessions s s' ∧ (s'.numDlRings < dlRingContainerSize → Inv s') := by
  have live : (s.startBuffering capacity pdr session).rings.cells s.rings.next =
      some { capacity := capacity pdr.pcktCnt } := alloc_cells_next _ _
  have started : SameSessions s (s.startBuffering capacity pdr session) := .of_update rfl rfl
  obtain ⟨s', done, same, count, inv'⟩ := bufferPkt_ok pdr session pkt live
  refine ⟨s', done, started.trans same, fun few => ?_⟩
  rw [count] at few
  have ringOf : (s.startBuffering capacity pdr session).ringOf = _ := ringOf_of_update found rfl rfl
  refine inv' (inv.startBuffering found own few) ?_ fun buffers full => ?_
  · rw [ringOf, update_self]
  · have empty := fits buffers (Nat.le_zero.mp full)
    change (enqueueContainer s.container s.rings.next).head? = _
    rw [inv.enqueueContainer_eq _ few, empty]
    rfl

theorem Inv.enqueueDlPkt {pdr : Option BufferPdr} (pkt : Pkt) {endMarker : Bool}
    (inv : Inv s) (ok : ∀ p ∈ pdr, (p.drop || endMarker) = false → s.EnqueueOk capacity p session) :
    ∃ s', Up.enqueueDlPkt capacity pdr session pkt endMarker s = some s' ∧ SameSessions s s' ∧
      (s'.numDlRings < dlRingContainerSize → Inv s') := by
  cases pdr with
  | none => exact ⟨s, rfl, .refl s, fun _ => inv⟩
  | some pdr =>
    cases passed : pdr.drop || endMarker with
    | true => exact ⟨s, by simp [Up.enqueueDlPkt, passed], .refl s, fun _ => inv⟩
    | false =>
      obtain ⟨live, fits⟩ : s.EnqueueOk capacity pdr session := ok pdr rfl passed
      obtain ⟨data, found⟩ := isSome_iff_exists.mp live
      have has := ringOf_of_data found
      cases own : data.dlRing with
      | some ring =>
        rw [own] at has
        obtain ⟨r, ringLive⟩ := isSome_iff_exists.mp
          (inv.live ring ((inv.holds.mem_iff ring).mpr ⟨session, has⟩))
        obtain ⟨s', done, same, -, inv'⟩ := bufferPkt_ok pdr session pkt ringLive
        refine ⟨s', ?_, same, fun _ => inv' inv has fun buffers =>
          (fits buffers).1 ring has r ringLive⟩
        simpa [Up.enqueueDlPkt, passed, found, own] using done
      | none =>
        rw [own] at has
        rcases allocateRing_cases capacity pdr.pcktCnt s with failed | made
        · refine ⟨s, ?_, .refl s, fun _ => inv⟩
          simp [Up.enqueueDlPkt, passed, found, own, failed]
        · obtain ⟨s', done, same, inv'⟩ := inv.firstPkt pkt found own
            fun buffers => (fits buffers).2 has
          refine ⟨s', ?_, same, inv'⟩
          simp only [Up.enqueueDlPkt, passed, found, own, made, Bool.false_eq_true, if_false]
          exact done

end RingState

open RingState

theorem RingOp.exec_inv {op : RingOp Pkt} (inv : Inv s) (listed : Listed s) (ok : op.Ok capacity s) :
    ∃ s', op.exec capacity s = some s' ∧ Listed s' ∧
      (s'.numDlRings < dlRingContainerSize → Inv s') := by
  cases op with
  | openData context =>
    exact ⟨_, rfl, listed_openSessionData listed context, fun _ =>
      inv.congr (fun _ => rfl) rfl rfl (ringOf_openSessionData s context)⟩
  | enqueue pdr session pkt endMarker =>
    obtain ⟨s', done, same, inv'⟩ := inv.enqueueDlPkt pkt ok
    exact ⟨s', done, listed.same same, inv'⟩
  | notify accept resolve keys =>
    obtain ⟨h, s', done, inv', same⟩ := notifyLoop_ringless accept
      ((keys.length + 1) * (keys.length + 1)) (.start keys) ok inv
      (fun j inside _ => by
        rw [Handler.start, getElem?_map, getElem?_eq_getElem inside, getD_eq_getElem _ _ inside]
        rfl)
      (Nat.zero_le _)
      (lt_of_lt_of_le (Nat.lt_succ_self _) (Nat.le_mul_of_pos_left _ (Nat.succ_pos _)))
    refine ⟨s', ?_, listed.same same, fun _ => inv'⟩
    rw [RingOp.exec, notificationHandler, done]
    rfl
  | reportResponse context size =>
    by_cases unchanged : s.pcktCnt context = size
    · exact ⟨s, by rw [RingOp.exec, processUpSessionReportResp, if_pos unchanged], listed, fun _ => inv⟩
    · have ahead := ok.resolve_left unchanged
      obtain ⟨s', done, same, -, inv'⟩ := replaceRings_ok context (s.sessionsOf context)
        (listed.nodup context) (listed.live context) (inv.holds.nodup.sublist ahead.sublist)
        (fun ring mem => inv.live ring (ahead.subset mem)) fun _ => ⟨inv, ahead⟩
      refine ⟨s', ?_, listed.same same, inv'⟩
      rw [RingOp.exec, processUpSessionReportResp, if_neg unchanged, done]
  | dropBuffered context =>
    obtain ⟨s', done, inv', same, -⟩ := inv.dropBuffered (s.sessionsOf context) (listed.nodup context)
      (listed.live context) ok
    exact ⟨s', done, listed.same same, fun _ => inv'⟩
  | delete context =>
    obtain ⟨s', done, inv', lists, others⟩ := inv.deleteSessionData (s.sessionsOf context)
      (listed.nodup context) (listed.live context) ok
    refine ⟨_, ?_, listed_delete listed context lists others, fun _ => ?_⟩
    · rw [RingOp.exec, upDeleteSession, done, map_some]
    · exact inv'.congr (fun _ => rfl) rfl rfl rfl

def RingState.initial : RingState Pkt where
  rings := .empty
  container := []
  numDlRings := 0
  sessions := .empty
  sessionsOf := fun _ => []
  pcktCnt := fun _ => 0

theorem inv_initial : Inv (.initial : RingState Pkt) := by
  refine ⟨⟨nodup_nil, fun ring => ?_, fun _ _ _ has => ?_⟩, forall_mem_nil _, le_rfl⟩
  · simp [RingState.initial, ringOf]
  · cases has

theorem listed_initial : Listed (.initial : RingState Pkt) :=
  ⟨fun _ => nodup_nil, fun _ => forall_mem_nil _, fun _ _ _ mem => nomatch mem⟩

/-- In an admitted run with fewer rings than the container has places, every step leaves the
container with the rings of the sessions. -/
theorem ringRun_containerExact (capacity : UInt8 → Nat) (ops : List (RingOp Pkt))
    (guarded : Guarded (RingOp.step capacity)
      (fun s op => op.Ok capacity s ∧ (op.step capacity s).numDlRings < dlRingContainerSize)
      .initial ops) (before : List (RingOp Pkt)) (op : RingOp Pkt) (isPrefix : before ++ [op] <+: ops) :
    ∃ s', op.exec capacity (run (RingOp.step capacity) .initial before) = some s' ∧
      s'.ContainerExact := by
  obtain ⟨s', done, inv, -⟩ := guarded.exec_at isPrefix (RingOp.exec capacity)
    (fun s => Inv s ∧ Listed s) ⟨inv_initial, listed_initial⟩ (fun _ _ => rfl)
    fun s op ⟨inv, listed⟩ ⟨ok, few⟩ => by
      obtain ⟨s', done, listed', inv'⟩ := RingOp.exec_inv inv listed ok
      rw [RingOp.step, done, getD_some] at few
      exact ⟨s', done, inv' few, listed'⟩
  exact ⟨s', done, inv.containerExact⟩

def bufferingPdr : BufferPdr where
  drop := false
  nocp := true
  buff := true
  forw := false
  pcktCnt := 1

/-- Two sessions buffer packets, the first fills its ring and gives it up, the second's is replaced;
the first is deleted and a third notified. -/
def bufferRun : List (RingOp Nat) :=
  [.openData 0, .openData 1, .openData 2, .enqueue (some bufferingPdr) 0 7 false,
    .enqueue (some bufferingPdr) 1 8 false, .enqueue (some bufferingPdr) 0 9 false,
    .enqueue (some bufferingPdr) 0 10 false, .reportResponse 1 4, .delete 0,
    .notify (fun _ => 32) (fun _ => some 2) [5]]

theorem ringRun_containerExact_bufferRun :
    Guarded (RingOp.step UInt8.toNat)
        (fun s op => op.Ok UInt8.toNat s ∧ (op.step UInt8.toNat s).numDlRings < dlRingContainerSize)
        .initial bufferRun ∧
      ∃ s', (RingOp.notify (fun _ => 32) (fun _ => some 2) [5]).exec UInt8.toNat
          (run (RingOp.step UInt8.toNat) .initial (bufferRun.take 9)) = some s' ∧
        s'.ContainerExact := by
  have guarded : Guarded (RingOp.step UInt8.toNat)
      (fun s op => op.Ok UInt8.toNat s ∧ (op.step UInt8.toNat s).numDlRings < dlRingContainerSize)
      .initial bufferRun := by
    decide +kernel
  exact ⟨guarded, ringRun_containerExact UInt8.toNat bufferRun guarded (bufferRun.take 9)
    (.notify (fun _ => 32) (fun _ => some 2) [5]) prefix_rfl⟩

def notifiedRun : List (RingOp Nat) :=
  [.openData 0, .enqueue (some bufferingPdr) 0 7 false, .notify (fun _ => 32) (fun _ => some 0) [5]]

/-- The ring was not taken out of the container, and is put back. -/
theorem notifiedRun_not_containerExact :
    Guarded (RingOp.step UInt8.toNat)
        (fun s op => (op.exec UInt8.toNat s).isSome ∧
          (op.step UInt8.toNat s).numDlRings < dlRingContainerSize)
        .initial notifiedRun ∧
      ¬(run (RingOp.step UInt8.toNat) .initial notifiedRun).ContainerExact := by
  refine ⟨by decide +kernel, fun exact => ?_⟩
  have once := exact.once
  exact absurd once (by decide)

end

end

end Epc.Up
