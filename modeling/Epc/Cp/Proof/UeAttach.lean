import Epc.Cp.UeBooks
import Epc.Cp.Proof.UeContext

/-! What the contexts, PDN connections and bearers say of each other, and that it stays so when a bearer
is attached. -/

namespace Epc.Cp

open Epc.Lib Epc.Lib.Run List Option Table Heap UeState

section

variable {Value : Type} {bound key : Nat} {table : Table Nat Value}

theorem filled_le (bound : Nat) (table : Table Nat Value) : filled bound table ≤ bound :=
  countP_le_length.trans_eq length_range

theorem filled_congr {table' : Table Nat Value}
    (same : ∀ i < bound, (table' i).isSome = (table i).isSome) :
    filled bound table' = filled bound table :=
  countP_congr fun i mem => by rw [same i (mem_range.mp mem)]

theorem filled_empty (bound : Nat) : filled bound (Table.empty : Table Nat Value) = 0 := by
  simp [filled]

theorem filled_succ (bound : Nat) (table : Table Nat Value) :
    filled (bound + 1) table = filled bound table + if (table bound).isSome then 1 else 0 := by
  simp [filled, range_succ, countP_append]

theorem filled_add (value : Value) (inside : key < bound) (absent : table key = none) :
    filled bound (table.add key value) = filled bound table + 1 := by
  induction bound with
  | zero => cases inside
  | succ bound ih =>
    rw [filled_succ, filled_succ]
    by_cases last : key = bound
    · subst last
      have below : filled key (table.add key value) = filled key table :=
        filled_congr fun i lt => by rw [add_of_ne (Nat.ne_of_lt lt)]
      simp [below, absent]
    · rw [ih (by omega), add_of_ne (Ne.symm last)]
      omega

theorem filled_add_outside (value : Value) (outside : bound ≤ key) :
    filled bound (table.add key value) = filled bound table :=
  filled_congr fun i lt => by rw [add_of_ne (by omega)]

theorem eq_of_filled_one (one : filled bound table = 1) {i j : Nat} (hi : i < bound) (hj : j < bound)
    (atI : (table i).isSome) (atJ : (table j).isSome) : i = j := by
  by_contra ne
  have cleared : filled bound (table.del i) = 0 := by
    obtain ⟨value, held⟩ := isSome_iff_exists.mp atI
    have back : (table.del i).add i value = table := by
      funext k
      by_cases same : k = i
      · rw [same, add_self, held]
      · rw [add_of_ne same, del_of_ne same]
    have counted := filled_add value hi (del_self table i)
    rw [back] at counted
    omega
  have none : ¬ ((table.del i) j).isSome := by
    rw [filled, countP_eq_zero] at cleared
    exact cleared j (mem_range.mpr hj)
  rw [del_of_ne (Ne.symm ne)] at none
  exact none atJ

end

section

theorem bearerBit_testBit {ebiIndex i : Nat} (inside : ebiIndex < 16) :
    (bearerBit ebiIndex).toNat.testBit i = decide (ebiIndex = i) := by
  have small : 2 ^ ebiIndex < 2 ^ 16 := Nat.pow_lt_pow_right (by decide) inside
  rw [bearerBit, UInt16.toNat_ofNat', Nat.shiftLeft_eq, Nat.one_mul, Nat.mod_eq_of_lt small,
    Nat.testBit_two_pow]

theorem bearerBit_or_testBit (bitmap : UInt16) {ebiIndex i : Nat} (inside : ebiIndex < 16) :
    (bitmap ||| bearerBit ebiIndex).toNat.testBit i =
      (bitmap.toNat.testBit i || decide (ebiIndex = i)) := by
  rw [UInt16.toNat_or, Nat.testBit_or, bearerBit_testBit inside]

end

/-- The bearer `b` of an index belongs to the PDN connection `p` of the context `c`. -/
structure Bears (s : UeStore) (c p i b : Nat) : Prop where
  pdn : (s.ue.bearers.cells b).bind EpsBearer.pdn = some p
  context : s.contextOf p = some c
  listed : ∃ pdn, s.ue.pdns.cells p = some pdn ∧ pdn.epsBearers i = some b

/-- A live PDN connection is counted right, and its context has it and its bearers. -/
structure PdnKept (s : UeStore) (p : Nat) (pdn : PdnConnection) : Prop where
  apn : pdn.apnInUse.isSome
  numBearer : pdn.numBearer.toNat = filled (maxBearers * 2) pdn.epsBearers
  home : ∃ c ctx, s.contextOf p = some c ∧ s.ue.contexts.cells c = some ctx ∧
    (∃ j < maxBearers, ctx.slots j = some (.pdn p)) ∧
    ∀ i b, pdn.epsBearers i = some b → ctx.slots (maxBearers + i) = some (.bearer b)

/-- A live context is found under its IMSI, and what it refers to is its own. -/
structure ContextKept (s : UeStore) (c : Nat) (ctx : UeContext) : Prop where
  imsi : s.ue.ueContextByImsiHash ctx.imsi = some c
  pdns : ∀ j < maxBearers, ∀ pointer, ctx.slots j = some pointer → ∃ p b, pointer = .pdn p ∧
    ctx.slots (maxBearers + j) = some (.bearer b) ∧ Bears s c p j b
  bearers : ∀ i pointer, ctx.slots (maxBearers + i) = some pointer → ∃ p b, pointer = .bearer b ∧
    Bears s c p i b
  bitmap : ∀ i < maxBearers,
    ctx.bearerBitmap.toNat.testBit i = (ctx.slots (maxBearers + i)).isSome
  numPdns : ctx.numPdns.toNat = filled maxBearers ctx.slots

def UeContext.books (ctx : UeContext) : UInt64 × Table Nat Ptr × UInt16 × UInt8 :=
  (ctx.imsi, ctx.slots, ctx.bearerBitmap, ctx.numPdns)

def PdnConnection.books (pdn : PdnConnection) : Option Apn × UInt8 × Table Nat Nat :=
  (pdn.apnInUse, pdn.numBearer, pdn.epsBearers)

theorem ContextKept.transfer {s s' : UeStore} {c : Nat} {ctx ctx' : UeContext}
    (kept : ContextKept s c ctx) (same : ctx'.books = ctx.books)
    (imsi : s'.ue.ueContextByImsiHash ctx.imsi = some c)
    (bears : ∀ p i b, Bears s c p i b → Bears s' c p i b) : ContextKept s' c ctx' := by
  simp only [UeContext.books, Prod.mk.injEq] at same
  obtain ⟨sameImsi, slots, bitmap, numPdns⟩ := same
  constructor
  all_goals simp only [sameImsi, slots, bitmap, numPdns]
  case imsi => exact imsi
  case bitmap => exact kept.bitmap
  case numPdns => exact kept.numPdns
  case pdns =>
    intro j inside pointer held
    obtain ⟨p, b, rfl, bearer, old⟩ := kept.pdns j inside pointer held
    exact ⟨p, b, rfl, bearer, bears p j b old⟩
  case bearers =>
    intro i pointer held
    obtain ⟨p, b, rfl, old⟩ := kept.bearers i pointer held
    exact ⟨p, b, rfl, bears p i b old⟩

theorem PdnKept.home_of {s : UeStore} {c p : Nat} {ctx : UeContext} {pdn : PdnConnection}
    (kept : PdnKept s p pdn) (home : s.contextOf p = some c) (live : s.ue.contexts.cells c = some ctx) :
    (∃ j < maxBearers, ctx.slots j = some (.pdn p)) ∧
      ∀ i b, pdn.epsBearers i = some b → ctx.slots (maxBearers + i) = some (.bearer b) := by
  obtain ⟨c₂, ctx₂, home₂, live₂, listed⟩ := kept.home
  obtain rfl : c₂ = c := some.inj (home₂.symm.trans home)
  obtain rfl : ctx₂ = ctx := some.inj (live₂.symm.trans live)
  exact listed

structure Booked (s : UeStore) : Prop where
  entry : ∀ imsi c, s.ue.ueContextByImsiHash imsi = some c →
    ∃ ctx, s.ue.contexts.cells c = some ctx ∧ ctx.imsi = imsi
  contexts : ∀ c ctx, s.ue.contexts.cells c = some ctx → ContextKept s c ctx
  pdns : ∀ p pdn, s.ue.pdns.cells p = some pdn → PdnKept s p pdn

theorem Booked.initial : Booked {} :=
  ⟨nofun, nofun, nofun⟩

theorem Booked.booksRight {s : UeStore} (kept : Booked s) : BooksRight s.ue := by
  refine ⟨fun c ctx live => ?_, fun p pdn live => (kept.pdns p pdn live).numBearer⟩
  have context := kept.contexts c ctx live
  refine ⟨context.bitmap, fun i _ pointer held => ?_, context.numPdns⟩
  obtain ⟨p, b, rfl, bears⟩ := context.bearers i pointer held
  obtain ⟨pdn, livePdn, listed⟩ := bears.listed
  obtain ⟨bearer, liveBearer, owner⟩ := bind_eq_some_iff.mp bears.pdn
  exact ⟨b, bearer, p, pdn, rfl, liveBearer, owner, livePdn, listed⟩

/-- The bearer `b` is now that of an index of `c`, in the PDN connection `p`: both are new, or the
bearer is, or it is set up again. -/
structure Attached (s s' : UeStore) (c p b index : Nat) (ctx ctx' : UeContext)
    (old new : PdnConnection) : Prop where
  byImsi : s'.ue.ueContextByImsiHash = s.ue.ueContextByImsiHash
  context : s.ue.contexts.cells c = some ctx
  context' : s'.ue.contexts.cells c = some ctx'
  contexts : ∀ c₂, c₂ ≠ c → s'.ue.contexts.cells c₂ = s.ue.contexts.cells c₂
  pdn' : s'.ue.pdns.cells p = some new
  pdns : ∀ p₂, p₂ ≠ p → s'.ue.pdns.cells p₂ = s.ue.pdns.cells p₂
  bearer' : (s'.ue.bearers.cells b).bind EpsBearer.pdn = some p
  bearers : ∀ b₂, b₂ ≠ b → s'.ue.bearers.cells b₂ = s.ue.bearers.cells b₂
  contextOf : s'.contextOf = s.contextOf.add p c
  before : s.ue.pdns.cells p = some old ∧ s.contextOf p = some c ∨
    s.ue.pdns.cells p = none ∧ old.epsBearers = Table.empty
  epsBearers : new.epsBearers = old.epsBearers.add index b
  slot : ctx.slots (maxBearers + index) = none ∧ s.ue.bearers.cells b = none ∨
    ctx.slots (maxBearers + index) = some (.bearer b) ∧ Bears s c p index b
  slot' : ctx'.slots (maxBearers + index) = some (.bearer b)
  slots : ∀ i, i ≠ index → ctx'.slots (maxBearers + i) = ctx.slots (maxBearers + i)
  pdnSlots : ∀ j < maxBearers, ctx'.slots j = ctx.slots j ∨
    j = index ∧ ctx'.slots j = some (.pdn p)
  home : ∃ j < maxBearers, ctx'.slots j = some (.pdn p)
  imsi : ctx'.imsi = ctx.imsi
  bitmap : ∀ i < maxBearers,
    ctx'.bearerBitmap.toNat.testBit i = (ctx'.slots (maxBearers + i)).isSome
  numPdns : ctx'.numPdns.toNat = filled maxBearers ctx'.slots
  numBearer : new.numBearer.toNat = filled (maxBearers * 2) new.epsBearers
  apn : new.apnInUse.isSome

section

variable {s s' : UeStore} {c p b index : Nat} {ctx ctx' : UeContext} {old new : PdnConnection}

variable (attached : Attached s s' c p b index ctx ctx' old new)

include attached

theorem Attached.own : Bears s' c p index b := by
  refine ⟨attached.bearer', ?_, new, attached.pdn', ?_⟩
  · rw [attached.contextOf, add_self]
  · rw [attached.epsBearers, add_self]

theorem Attached.bears {c₂ p₂ i b₂ : Nat}
    (bears : Bears s c₂ p₂ i b₂) (other : c₂ = c → i ≠ index) : Bears s' c₂ p₂ i b₂ := by
  obtain ⟨pdn, live, listed⟩ := bears.listed
  refine ⟨?_, ?_, ?_⟩
  · by_cases same : b₂ = b
    · subst same
      rcases attached.slot with ⟨-, fresh⟩ | ⟨-, was⟩
      · have := bears.pdn
        rw [fresh] at this
        cases this
      · rw [attached.bearer', ← was.pdn, bears.pdn]
    · rw [attached.bearers b₂ same, bears.pdn]
  · rw [attached.contextOf]
    by_cases same : p₂ = p
    · subst same
      rcases attached.before with ⟨-, home⟩ | ⟨fresh, -⟩
      · rw [add_self, ← home, bears.context]
      · rw [fresh] at live
        cases live
    · rw [add_of_ne same, bears.context]
  · by_cases same : p₂ = p
    · subst same
      rcases attached.before with ⟨was, home⟩ | ⟨fresh, -⟩
      · rw [was, some.injEq] at live
        have here : c₂ = c := some.inj (bears.context.symm.trans home)
        refine ⟨new, attached.pdn', ?_⟩
        rw [attached.epsBearers, add_of_ne (other here), live, listed]
      · rw [fresh] at live
        cases live
    · exact ⟨pdn, by rw [attached.pdns p₂ same, live], listed⟩

theorem Attached.of_slot {p₂ b₂ : Nat} (held : ctx.slots (maxBearers + index) = some (.bearer b₂))
    (bears : Bears s c p₂ index b₂) : b₂ = b ∧ p₂ = p := by
  rcases attached.slot with ⟨free, -⟩ | ⟨was, own⟩
  · rw [free] at held
    cases held
  · rw [was, some.injEq, Ptr.bearer.injEq] at held
    subst held
    exact ⟨rfl, some.inj (bears.pdn.symm.trans own.pdn)⟩

theorem Attached.contextKept (kept : ContextKept s c ctx) : ContextKept s' c ctx' := by
  refine ⟨?_, fun j inside pointer held => ?_, fun i pointer held => ?_, attached.bitmap,
    attached.numPdns⟩
  · rw [attached.byImsi, attached.imsi, kept.imsi]
  · rcases attached.pdnSlots j inside with same | ⟨rfl, added⟩
    · rw [same] at held
      obtain ⟨p₂, b₂, rfl, bearer, bears⟩ := kept.pdns j inside pointer held
      by_cases here : j = index
      · subst here
        obtain ⟨rfl, rfl⟩ := attached.of_slot bearer bears
        exact ⟨p₂, b₂, rfl, attached.slot', attached.own⟩
      · exact ⟨p₂, b₂, rfl, by rw [attached.slots j here, bearer], attached.bears bears fun _ => here⟩
    · rw [added, some.injEq] at held
      exact ⟨p, b, held.symm, attached.slot', attached.own⟩
  · by_cases here : i = index
    · subst here
      rw [attached.slot', some.injEq] at held
      exact ⟨p, b, held.symm, attached.own⟩
    · rw [attached.slots i here] at held
      obtain ⟨p₂, b₂, rfl, bears⟩ := kept.bearers i pointer held
      exact ⟨p₂, b₂, rfl, attached.bears bears fun _ => here⟩

theorem Attached.otherContextKept {c₂ : Nat} {ctx₂ : UeContext} (other : c₂ ≠ c) (kept : ContextKept s c₂ ctx₂) :
    ContextKept s' c₂ ctx₂ :=
  kept.transfer rfl (by rw [attached.byImsi, kept.imsi]) fun _ _ _ bears =>
    attached.bears bears fun same => absurd same other

theorem Attached.pdnKept (kept : Booked s) : PdnKept s' p new := by
  refine ⟨attached.apn, attached.numBearer, c, ctx', ?_, attached.context', attached.home,
    fun i b₂ listed => ?_⟩
  · rw [attached.contextOf, add_self]
  · rw [attached.epsBearers] at listed
    rcases add_eq_some listed with ⟨rfl, rfl⟩ | ⟨here, listed⟩
    · exact attached.slot'
    · rcases attached.before with ⟨was, home⟩ | ⟨-, empty⟩
      · rw [attached.slots i here]
        exact ((kept.pdns p old was).home_of home attached.context).2 i b₂ listed
      · rw [empty] at listed
        cases listed

theorem Attached.otherPdnKept (kept : Booked s) {p₂ : Nat} {pdn₂ : PdnConnection} (other : p₂ ≠ p)
    (live : s.ue.pdns.cells p₂ = some pdn₂) : PdnKept s' p₂ pdn₂ := by
  have was := kept.pdns p₂ pdn₂ live
  obtain ⟨c₂, ctx₂, home, live₂, ⟨j, inside, held⟩, all⟩ := was.home
  have home' : s'.contextOf p₂ = some c₂ := by rw [attached.contextOf, add_of_ne other, home]
  by_cases here : c₂ = c
  · subst here
    obtain rfl : ctx₂ = ctx := some.inj (live₂.symm.trans attached.context)
    refine ⟨was.apn, was.numBearer, c₂, ctx', home', attached.context', ⟨j, inside, ?_⟩,
      fun i b₂ listed => ?_⟩
    · rcases attached.pdnSlots j inside with same | ⟨rfl, -⟩
      · rw [same, held]
      · obtain ⟨p₃, b₃, same, bearer, bears⟩ := (kept.contexts c₂ ctx₂ live₂).pdns j inside _ held
        rw [Ptr.pdn.injEq] at same
        subst same
        exact absurd (attached.of_slot bearer bears).2 other
    · have was := all i b₂ listed
      by_cases index' : i = index
      · subst index'
        rcases attached.slot with ⟨free, -⟩ | ⟨own, -⟩
        · rw [free] at was
          cases was
        · rw [attached.slot', ← own, was]
      · rw [attached.slots i index', was]
  · exact ⟨was.apn, was.numBearer, c₂, ctx₂, home', by rw [attached.contexts c₂ here, live₂],
      ⟨j, inside, held⟩, all⟩

theorem Attached.booked (kept : Booked s) : Booked s' := by
  refine ⟨fun imsi c₂ found => ?_, fun c₂ ctx₂ live => ?_, fun p₂ pdn₂ live => ?_⟩
  · rw [attached.byImsi] at found
    obtain ⟨ctx₂, live, same⟩ := kept.entry imsi c₂ found
    by_cases here : c₂ = c
    · subst here
      obtain rfl : ctx₂ = ctx := some.inj (live.symm.trans attached.context)
      exact ⟨ctx', attached.context', attached.imsi.trans same⟩
    · exact ⟨ctx₂, by rw [attached.contexts c₂ here, live], same⟩
  · by_cases here : c₂ = c
    · subst here
      obtain rfl : ctx₂ = ctx' := some.inj (live.symm.trans attached.context')
      exact attached.contextKept (kept.contexts c₂ ctx attached.context)
    · rw [attached.contexts c₂ here] at live
      exact attached.otherContextKept here (kept.contexts c₂ ctx₂ live)
  · by_cases here : p₂ = p
    · subst here
      obtain rfl : pdn₂ = new := some.inj (live.symm.trans attached.pdn')
      exact attached.pdnKept kept
    · rw [attached.pdns p₂ here] at live
      exact attached.otherPdnKept kept here live

theorem Attached.pdnOf : UeStore.pdnOf s'.ue c index = some p := by
  have held : s'.ue.epsBearer c index = some (some b) := by
    simp only [epsBearer, UeContext.epsBearer, attached.context', attached.slot',
      bind_eq_bind, bind_some]
  simpa only [UeStore.pdnOf, held, bind_eq_bind, bind_some] using attached.bearer'

end

section

variable {s : UeStore} {ue : UeState}

theorem of_map_eq {α β : Type} {f : α → β} {x y : Option α} {a : α} (same : x.map f = y.map f)
    (here : y = some a) : ∃ a', x = some a' ∧ f a' = f a := by
  rw [here, map_some] at same
  exact map_eq_some_iff.mp same

theorem update_cells_map {Cell View : Type} {view : Cell → View} {f : Cell → Cell}
    {heap heap' : Heap Cell} {b : Nat} (updated : heap' = heap.update b f)
    (same : ∀ cell, view (f cell) = view cell) (a : Nat) :
    (heap'.cells a).map view = (heap.cells a).map view := by
  subst updated
  by_cases here : a = b
  · rw [here, update_cells_self, Option.map_map]
    exact congrArg (Option.map · _) (funext same)
  · rw [update_cells_of_ne here]

theorem Booked.congr (kept : Booked s)
    (contexts : ∀ a, (ue.contexts.cells a).map UeContext.books = (s.ue.contexts.cells a).map UeContext.books)
    (pdns : ∀ a, (ue.pdns.cells a).map PdnConnection.books = (s.ue.pdns.cells a).map PdnConnection.books)
    (bearers : ue.bearers = s.ue.bearers)
    (byImsi : ue.ueContextByImsiHash = s.ue.ueContextByImsiHash) : Booked { s with ue := ue } := by
  refine ⟨fun imsi a found => ?_, fun a ctx' live => ?_, fun p pdn' live => ?_⟩
  · obtain ⟨ctx, live, same⟩ := kept.entry imsi a (by simpa only [byImsi] using found)
    obtain ⟨ctx', live', view⟩ := of_map_eq (contexts a) live
    exact ⟨ctx', live', (congrArg Prod.fst view).trans same⟩
  · obtain ⟨ctx, was, view⟩ := of_map_eq (contexts a).symm live
    have context := kept.contexts a ctx was
    refine context.transfer view.symm (by simpa only [byImsi] using context.imsi) fun p i b old => ?_
    obtain ⟨pdn, livePdn, listed⟩ := old.listed
    obtain ⟨pdn', live', view⟩ := of_map_eq (pdns p) livePdn
    refine ⟨by simpa only [bearers] using old.pdn, old.context, pdn', live', ?_⟩
    rw [← listed]
    exact congrFun (congrArg (·.2.2) view) i
  · obtain ⟨pdn, was, view⟩ := of_map_eq (pdns p).symm live
    have old := kept.pdns p pdn was
    obtain ⟨c, ctx, home, liveCtx, listed⟩ := old.home
    obtain ⟨ctx', live', view'⟩ := of_map_eq (contexts c) liveCtx
    simp only [PdnConnection.books, Prod.mk.injEq] at view
    simp only [UeContext.books, Prod.mk.injEq] at view'
    refine ⟨by rw [← view.1]; exact old.apn, by rw [← view.2.1, ← view.2.2]; exact old.numBearer,
      c, ctx', home, live', ?_⟩
    rw [← view.2.2, view'.2.1]
    exact listed

theorem Booked.csrSequence (kept : Booked s) (p : Nat) (sequence : UInt32) :
    Booked { s with
      ue := { s.ue with
        pdns := s.ue.pdns.update p fun pdn => { pdn with csrSequence := sequence } } } :=
  kept.congr (fun _ => rfl) (update_cells_map rfl fun _ => rfl) rfl rfl

theorem Booked.newContext (kept : Booked s) {r : CreateUeRequest}
    (absent : s.ue.ueContextByImsiHash r.imsi = none) : Booked { s with ue := s.ue.newContext r } := by
  have live_ne : ∀ {c ctx}, s.ue.contexts.cells c = some ctx → c ≠ s.ue.contexts.next := by
    rintro c ctx live rfl
    exact absurd (live_lt live) (Nat.lt_irrefl _)
  refine ⟨fun imsi c found => ?_, fun c ctx live => ?_, fun p pdn live => ?_⟩
  · simp only [UeState.newContext] at found ⊢
    rcases add_eq_some found with ⟨rfl, rfl⟩ | ⟨-, found⟩
    · exact ⟨_, alloc_cells_next _ _, rfl⟩
    · obtain ⟨ctx, live, same⟩ := kept.entry imsi c found
      exact ⟨ctx, by rw [alloc_cells_of_ne (live_ne live), live], same⟩
  · simp only [UeState.newContext] at live
    by_cases here : c = s.ue.contexts.next
    · subst here
      rw [alloc_cells_next, some.injEq] at live
      subst live
      exact ⟨add_self .., (fun _ _ _ none => by cases none), (fun _ _ none => by cases none),
        fun i _ => by simp, (filled_empty _).symm⟩
    · rw [alloc_cells_of_ne here] at live
      have context := kept.contexts c ctx live
      have other : ctx.imsi ≠ r.imsi := by
        intro same
        rw [← same, context.imsi] at absent
        cases absent
      exact context.transfer rfl ((add_of_ne other).trans context.imsi) fun _ _ _ old =>
        ⟨old.pdn, old.context, old.listed⟩
  · have old := kept.pdns p pdn live
    obtain ⟨c, ctx, home, live₂, listed⟩ := old.home
    exact ⟨old.apn, old.numBearer, c, ctx, home,
      (alloc_cells_of_ne (live_ne live₂)).trans live₂, listed⟩

end

section

variable {s : UeStore} {c index : Nat} {ctx : UeContext} {r : CreateUeRequest}

theorem UeState.getPdnFrom_congr {s t : UeState} {ctx ctx' : UeContext} (pdns : t.pdns = s.pdns)
    (slots : ctx'.slots = ctx.slots) (requested : Apn) (is : List Nat) :
    t.getPdnFrom ctx' requested is = s.getPdnFrom ctx requested is := by
  induction is with
  | nil => rfl
  | cons i is ih =>
    have first : ctx'.pdn i = ctx.pdn i := by rw [UeContext.pdn, UeContext.pdn, slots]
    simp only [getPdnFrom, first, pdns, ih]

theorem UeState.getPdn_withBearers (s : UeState) (bearers : Heap EpsBearer) (c : Nat) (requested : Apn) :
    UeState.getPdn { s with bearers } c requested = s.getPdn c requested := by
  unfold UeState.getPdn
  cases s.contexts.cells c with
  | none => rfl
  | some ctx => exact getPdnFrom_congr rfl rfl _ _

def Attaches (s : UeStore) (c index : Nat) (ctx : UeContext) (pdn : Option Nat) (r : CreateUeRequest) :
    Prop :=
  ∃ ue b p, s.ue.attachBearer c index pdn r = some (ue, b, p) ∧ ∃ ctx' old new, Attached s
    { ue := ue.finishBearer b p r, contextOf := s.contextOf.add p c } c p b index ctx ctx' old new

theorem UeState.epsBearer_of_slot {s : UeState} (live : s.contexts.cells c = some ctx)
    (free : ctx.slots (maxBearers + index) = none) : s.epsBearer c index = some none := by
  simp only [epsBearer, UeContext.epsBearer, live, free, bind_eq_bind, bind_some]

variable {p b : Nat} {pdn : PdnConnection}

theorem dropPdnBearers_alone {s : UeState} {is : List Nat} (live : s.pdns.cells p = some pdn)
    (alone : ∀ i ∈ is, i ≠ index → pdn.epsBearers i = none) :
    ∃ bearers, is.foldlM (dropPdnBearer c p index b) s = some { s with bearers } ∧
      ((bearers.cells b).isSome ↔ (s.bearers.cells b).isSome) ∧
      ∀ b₂, b₂ ≠ b → bearers.cells b₂ = s.bearers.cells b₂ := by
  induction is generalizing s with
  | nil => exact ⟨s.bearers, rfl, Iff.rfl, fun _ _ => rfl⟩
  | cons i is ih =>
    obtain ⟨first, later⟩ := forall_mem_cons.mp alone
    have dropped : ∃ bearers, dropPdnBearer c p index b s i = some { s with bearers } ∧
        ((bearers.cells b).isSome ↔ (s.bearers.cells b).isSome) ∧
        ∀ b₂, b₂ ≠ b → bearers.cells b₂ = s.bearers.cells b₂ := by
      cases listed : pdn.epsBearers i with
      | none =>
        refine ⟨s.bearers, ?_, Iff.rfl, fun _ _ => rfl⟩
        simp only [dropPdnBearer, live, listed, bind_eq_bind, bind_some]
      | some other =>
        have own : i = index := by
          by_contra ne
          rw [first ne] at listed
          cases listed
        refine ⟨s.bearers.update b fun _ => {}, ?_, ?_,
          fun b₂ ne => update_cells_of_ne ne⟩
        · simp only [dropPdnBearer, live, listed, if_pos own, bind_eq_bind, bind_some]
        · rw [update_cells_self, isSome_map]
    obtain ⟨bearers, step, some, others⟩ := dropped
    obtain ⟨bearers', rest, some', others'⟩ := ih (s := { s with bearers }) live later
    refine ⟨bearers', ?_, some'.trans some, fun b₂ ne => ?_⟩
    · rw [foldlM_cons, step]
      exact rest
    · rw [others' b₂ ne]
      exact others b₂ ne

def Completed (s : UeStore) (r : CreateUeRequest) (c index : Nat) (done : Option UeState) : Prop :=
  ∃ ue p, done = some ue ∧ ue.ueContextByImsiHash r.imsi = some c ∧
    UeStore.pdnOf ue c index = some p ∧ Booked { ue := ue, contextOf := s.contextOf.add p c }

theorem Completed.of_attached {ue : UeState} (kept : Booked { s with ue := ue }) {flag : UInt8}
    {pdn : Option Nat} (assigned : s.ue.assignTeid c flag r.cpType = some ue)
    (entry : ue.ueContextByImsiHash r.imsi = some c)
    (attach : Attaches { s with ue := ue } c index ctx pdn r) :
    Completed s r c index (s.ue.completeContext c index pdn flag r) := by
  obtain ⟨ue', b, p, attached, ctx', old, new, books⟩ := attach
  refine ⟨ue'.finishBearer b p r, p, ?_, ?_, books.pdnOf, books.booked kept⟩
  · simp only [completeContext, assigned, attached, bind_eq_bind, bind_some]
  · have same := books.byImsi
    rw [same, entry]

section

variable (kept : Booked s) (live : s.ue.contexts.cells c = some ctx)

include kept live

theorem Booked.getPdnFrom (requested : Apn) {is : List Nat}
    (inside : ∀ i ∈ is, i < maxBearers) :
    ∃ found, s.ue.getPdnFrom ctx requested is = some found ∧
      ∀ p, found = some p → ∃ j < maxBearers, ctx.slots j = some (.pdn p) := by
  induction is with
  | nil => exact ⟨none, rfl, nofun⟩
  | cons i is ih =>
    obtain ⟨here, later⟩ := forall_mem_cons.mp inside
    obtain ⟨found, rest, known⟩ := ih later
    cases held : ctx.slots i with
    | none =>
      refine ⟨found, ?_, known⟩
      simp only [UeState.getPdnFrom, UeContext.pdn, held, bind_eq_bind, bind_some, rest]
    | some pointer =>
      obtain ⟨p, b, rfl, -, bears⟩ := (kept.contexts c ctx live).pdns i here pointer held
      obtain ⟨pdn, livePdn, -⟩ := bears.listed
      obtain ⟨apn, inUse⟩ := isSome_iff_exists.mp (kept.pdns p pdn livePdn).apn
      simp only [UeState.getPdnFrom, UeContext.pdn, held, livePdn, inUse, bind_eq_bind, bind_some]
      split
      · refine ⟨some p, rfl, fun q same => ?_⟩
        cases same
        exact ⟨i, here, held⟩
      · exact ⟨found, rest, known⟩

theorem Booked.getPdn (requested : Apn) :
    ∃ found, s.ue.getPdn c requested = some found ∧
      ∀ p, found = some p → ∃ j < maxBearers, ctx.slots j = some (.pdn p) := by
  simp only [UeState.getPdn, live, bind_eq_bind, bind_some]
  exact kept.getPdnFrom live requested fun i mem => mem_range.mp mem

theorem Booked.attach_new (free : ctx.slots (maxBearers + index) = none)
    (inside : index < maxBearers)
    (unused : s.ue.getPdn c r.apnRequested = some none) (pdn : Option Nat) :
    Attaches s c index ctx pdn r := by
  have slotFree : ctx.slots index = none := by
    cases held : ctx.slots index with
    | none => rfl
    | some pointer =>
      obtain ⟨p, b, -, bearer, -⟩ := (kept.contexts c ctx live).pdns index inside pointer held
      rw [free] at bearer
      cases bearer
  have numPdns := (kept.contexts c ctx live).numPdns
  have few : filled maxBearers ctx.slots ≤ 14 := filled_le _ _
  simp only [Attaches, attachBearer, epsBearer_of_slot live free, getPdn_withBearers, unused, bind_eq_bind,
    bind_some]
  refine ⟨_, _, _, rfl,
    { (ctx.setEpsBearer index s.ue.bearers.next).setPdn index s.ue.pdns.next with
      numPdns := ctx.numPdns + 1
      bearerBitmap := ctx.bearerBitmap ||| bearerBit index }, {},
    { numBearer := 1
      defaultBearerId := r.ebi
      epsBearers := Table.empty.add index s.ue.bearers.next
      apnInUse := some r.apnRequested }, ?_⟩
  constructor
  case byImsi | contextOf | imsi | epsBearers => rfl
  case context => exact live
  case context' => exact (update_cells_self ..).trans (by rw [live]; rfl)
  case contexts => exact fun c₂ other => update_cells_of_ne other
  case pdn' => exact (update_cells_self ..).trans (by rw [alloc_cells_next]; rfl)
  case pdns =>
    exact fun p₂ other =>
      (update_cells_of_ne other).trans (alloc_cells_of_ne other)
  case bearer' =>
    exact (congrArg (Option.bind · EpsBearer.pdn) (update_cells_self ..)).trans
      (by rw [alloc_cells_next]; rfl)
  case bearers =>
    exact fun b₂ other =>
      (update_cells_of_ne other).trans (alloc_cells_of_ne other)
  case before => exact .inr ⟨s.ue.pdns.fresh _ le_rfl, rfl⟩
  case slot => exact .inl ⟨free, s.ue.bearers.fresh _ le_rfl⟩
  case slot' => exact (add_of_ne (by omega)).trans (add_self ..)
  case slots =>
    exact fun i other => (add_of_ne (by omega)).trans (add_of_ne (by omega))
  case pdnSlots =>
    intro j below
    by_cases here : j = index
    · exact .inr ⟨here, by rw [here]; exact add_self _ _ _⟩
    · exact .inl ((add_of_ne here).trans (add_of_ne (by omega)))
  case home => exact ⟨index, inside, add_self _ _ _⟩
  case bitmap =>
    intro i below
    have was := (kept.contexts c ctx live).bitmap i below
    change (ctx.bearerBitmap ||| bearerBit index).toNat.testBit i =
      (((ctx.slots.add (maxBearers + index) _).add index _) (maxBearers + i)).isSome
    rw [bearerBit_or_testBit _ (by rw [maxBearers] at inside; omega), add_of_ne (by omega)]
    by_cases here : i = index
    · subst here
      simp
    · rw [add_of_ne (by omega), was, decide_eq_false (Ne.symm here), Bool.or_false]
  case numPdns =>
    change (ctx.numPdns + 1).toNat = filled maxBearers ((ctx.slots.add (maxBearers + index) _).add index _)
    have free' : (ctx.slots.add (maxBearers + index) (.bearer s.ue.bearers.next)) index = none :=
      (add_of_ne (by omega)).trans slotFree
    rw [filled_add _ inside free', filled_add_outside _ (by omega), ← numPdns, UInt8.toNat_add]
    simp only [UInt8.reduceToNat]
    omega
  case numBearer =>
    change 1 = filled (maxBearers * 2) (Table.empty.add index _)
    rw [filled_add _ (by omega) rfl, filled_empty]
  case apn => rfl

theorem Booked.attach_shared (free : ctx.slots (maxBearers + index) = none)
    (outside : index = maxBearers)
    (used : s.ue.getPdn c r.apnRequested = some (some p)) (pdn : Option Nat) :
    Attaches s c index ctx pdn r := by
  obtain ⟨found, same, known⟩ := kept.getPdn live r.apnRequested
  obtain rfl : found = some p := some.inj (same.symm.trans used)
  obtain ⟨j, inside, held⟩ := known p rfl
  obtain ⟨q, default, isPdn, -, bears⟩ := (kept.contexts c ctx live).pdns j inside _ held
  obtain rfl : p = q := Ptr.pdn.inj isPdn
  obtain ⟨old, livePdn, -⟩ := bears.listed
  have was := kept.pdns p old livePdn
  have numBearer := was.numBearer
  have few : filled (maxBearers * 2) old.epsBearers ≤ 28 := filled_le _ _
  have notListed : old.epsBearers index = none := by
    cases listed : old.epsBearers index with
    | none => rfl
    | some b =>
      have there := (was.home_of bears.context live).2 index b listed
      rw [free] at there
      cases there
  simp only [Attaches, attachBearer, epsBearer_of_slot live free, getPdn_withBearers, used, bind_eq_bind,
    bind_some]
  refine ⟨_, _, _, rfl, ctx.setEpsBearer index s.ue.bearers.next, old,
    { old with
      numBearer := old.numBearer + 1
      epsBearers := old.epsBearers.add index s.ue.bearers.next
      apnInUse := some r.apnRequested }, ?_⟩
  constructor
  case byImsi | contextOf | imsi | epsBearers => rfl
  case context => exact live
  case context' => exact (update_cells_self ..).trans (by rw [live]; rfl)
  case contexts => exact fun c₂ other => update_cells_of_ne other
  case pdn' =>
    exact (update_cells_self ..).trans (by rw [update_cells_self, livePdn]; rfl)
  case pdns =>
    exact fun p₂ other =>
      (update_cells_of_ne other).trans (update_cells_of_ne other)
  case bearer' =>
    exact (congrArg (Option.bind · EpsBearer.pdn) (update_cells_self ..)).trans
      (by rw [alloc_cells_next]; rfl)
  case bearers =>
    exact fun b₂ other =>
      (update_cells_of_ne other).trans (alloc_cells_of_ne other)
  case before => exact .inl ⟨livePdn, bears.context⟩
  case slot => exact .inl ⟨free, s.ue.bearers.fresh _ le_rfl⟩
  case slot' => exact add_self ..
  case slots => exact fun i other => add_of_ne (by omega)
  case pdnSlots => exact fun i below => .inl (add_of_ne (by omega))
  case home => exact ⟨j, inside, (add_of_ne (by omega)).trans held⟩
  case bitmap =>
    intro i below
    change _ = ((ctx.slots.add (maxBearers + index) _) (maxBearers + i)).isSome
    rw [add_of_ne (by omega)]
    exact (kept.contexts c ctx live).bitmap i below
  case numPdns =>
    exact (kept.contexts c ctx live).numPdns.trans (filled_add_outside _ (by omega)).symm
  case numBearer =>
    rw [filled_add _ (by rw [outside]; decide) notListed, ← numBearer, UInt8.toNat_add]
    simp only [UInt8.reduceToNat]
    omega
  case apn => rfl

theorem Booked.attach_again (held : ctx.slots (maxBearers + index) = some (.bearer b))
    (bears : Bears s c p index b) (livePdn : s.ue.pdns.cells p = some pdn)
    (alone : ∀ i < maxBearers, i ≠ index → pdn.epsBearers i = none) :
    Attaches s c index ctx (some p) r := by
  obtain ⟨bearers, dropped, liveBearer, others⟩ := dropPdnBearers_alone (c := c) (b := b) livePdn
    fun i mem => alone i (mem_range.mp mem)
  obtain ⟨bearer, liveOld, -⟩ := bind_eq_some_iff.mp bears.pdn
  obtain ⟨bearer', liveNew⟩ : ∃ bearer', bearers.cells b = some bearer' := by
    rw [← isSome_iff_exists, liveBearer, liveOld]
    rfl
  obtain ⟨pdn', same, listed⟩ := bears.listed
  obtain rfl : pdn' = pdn := some.inj (same.symm.trans livePdn)
  have was := kept.pdns p pdn' livePdn
  have holds : s.ue.epsBearer c index = some (some b) := by
    simp only [epsBearer, UeContext.epsBearer, live, held, bind_eq_bind, bind_some]
  simp only [Attaches, attachBearer, holds, dropped, bind_eq_bind, bind_some]
  refine ⟨_, _, _, rfl, ctx, pdn', { pdn' with apnInUse := some r.apnRequested }, ?_⟩
  constructor
  case byImsi | contextOf | imsi | apn => rfl
  case context | context' => exact live
  case contexts => exact fun c₂ _ => rfl
  case pdn' => exact (update_cells_self ..).trans (by rw [livePdn]; rfl)
  case pdns => exact fun p₂ other => update_cells_of_ne other
  case bearer' =>
    exact (congrArg (Option.bind · EpsBearer.pdn) (update_cells_self ..)).trans
      (by rw [liveNew]; rfl)
  case bearers => exact fun b₂ other => (update_cells_of_ne other).trans (others b₂ other)
  case before => exact .inl ⟨livePdn, bears.context⟩
  case epsBearers => exact (add_eq_self listed).symm
  case slot => exact .inr ⟨held, bears⟩
  case slot' => exact held
  case slots => exact fun i _ => rfl
  case pdnSlots => exact fun j _ => .inl rfl
  case home => exact (was.home_of bears.context live).1
  case bitmap => exact (kept.contexts c ctx live).bitmap
  case numPdns => exact (kept.contexts c ctx live).numPdns
  case numBearer => exact was.numBearer

theorem Booked.assignTeid (flag : UInt8) (cpType : CpType) :
    ∃ ue ctx', s.ue.assignTeid c flag cpType = some ue ∧ Booked { s with ue := ue } ∧
      ue.contexts.cells c = some ctx' ∧ ctx'.slots = ctx.slots ∧ ue.pdns = s.ue.pdns ∧
      ue.bearers = s.ue.bearers ∧ ue.ueContextByImsiHash = s.ue.ueContextByImsiHash := by
  simp only [UeState.assignTeid, live, bind_eq_bind, bind_some]
  refine ⟨_, { ctx with
      s11SgwGtpcTeid := (getS11SgwGtpcTeid s.ue.counters flag cpType ctx.s11SgwGtpcTeid).1 },
    rfl, ?_, (update_cells_self ..).trans (by rw [live]; rfl), rfl, rfl, rfl, rfl⟩
  exact kept.congr (update_cells_map rfl fun _ => rfl) (fun _ => rfl) rfl rfl

variable (entry : s.ue.ueContextByImsiHash r.imsi = some c)

include entry

theorem Booked.complete_free (free : ctx.slots (maxBearers + index) = none) (bound : index ≤ maxBearers)
    (fits : s.ue.getPdn c r.apnRequested = some none ↔ index < maxBearers) (flag : UInt8) :
    Completed s r c index (s.ue.completeContext c index none flag r) := by
  obtain ⟨ue, ctx', assigned, kept', live', slots, pdns, -, byImsi⟩ := kept.assignTeid live flag r.cpType
  have free' : ctx'.slots (maxBearers + index) = none := by rw [slots, free]
  have getPdn : ue.getPdn c r.apnRequested = s.ue.getPdn c r.apnRequested := by
    simp only [UeState.getPdn, live, live', bind_eq_bind, bind_some]
    exact getPdnFrom_congr pdns slots _ _
  have entry' : ue.ueContextByImsiHash r.imsi = some c := by rw [byImsi, entry]
  by_cases inside : index < maxBearers
  · exact Completed.of_attached kept' assigned entry'
      (kept'.attach_new live' free' inside (getPdn.trans (fits.mpr inside)) none)
  · obtain ⟨found, same, -⟩ := kept.getPdn live r.apnRequested
    cases found with
    | none => exact absurd (fits.mp same) inside
    | some p =>
      exact Completed.of_attached kept' assigned entry'
        (kept'.attach_shared live' free' (by omega) (getPdn.trans same) none)

theorem Booked.complete_again (held : ctx.slots (maxBearers + index) = some (.bearer b))
    (bears : Bears s c p index b) (livePdn : s.ue.pdns.cells p = some pdn)
    (alone : ∀ i < maxBearers, i ≠ index → pdn.epsBearers i = none) (flag : UInt8) :
    Completed s r c index (s.ue.completeContext c index (some p) flag r) := by
  obtain ⟨ue, ctx', assigned, kept', live', slots, pdns, bearers, byImsi⟩ :=
    kept.assignTeid live flag r.cpType
  have bears' : Bears { s with ue := ue } c p index b :=
    ⟨by simpa only [bearers] using bears.pdn, bears.context, by simpa only [pdns] using bears.listed⟩
  exact Completed.of_attached kept' assigned (by rw [byImsi, entry])
    (kept'.attach_again live' (by rw [slots, held]) bears' (by rw [pdns, livePdn]) alone)

end

end

end Epc.Cp
