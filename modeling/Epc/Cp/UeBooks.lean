import Epc.Lib.Run
import Epc.Cp.UeContext

/-! UE contexts over creation and deletion: `delete_bearer_context` and `delete_sess_context`
(`cp/gtpc_session.c`) beside `create_ue_context`.  A context says four times which bearers it has: in
its bitmap, in its own array, in the arrays of its PDN connections and in their counters. -/

namespace Epc.Cp

open Epc.Lib Epc.Lib.Run

/-- `contextOf` is the member `context` of the PDN connections. -/
structure UeStore where
  ue : UeState := {}
  contextOf : Table Nat Nat := Table.empty

namespace UeStore

def pdnOf (s : UeState) (c ebiIndex : Nat) : Option Nat := do
  let b ← (← s.epsBearer c ebiIndex)
  (← s.bearers.cells b).pdn

/-- `create_ue_context`; then its caller stores the context in the PDN connection. -/
def create (r : CreateUeRequest) (s : UeStore) : Option UeStore := do
  let (ue, ret) ← s.ue.createUeContext r
  if ret = 0 then do
    let c ← ue.ueContextByImsiHash r.imsi
    let ebiIndex ← getEbiIndex r.ebi.toNat
    let p ← pdnOf ue c ebiIndex
    some { ue, contextOf := s.contextOf.add p c }
  else some { s with ue }

/-- `delete_bearer_context`; `rulesDeleted` is that `delete_rule_in_bearer` returned 0. -/
def deleteBearerContext (rulesDeleted : Bool) (p ebiIndex : Nat) (s : UeStore) : Option UeStore := do
  match (← s.ue.pdns.cells p).epsBearers ebiIndex with
  | none => some s
  | some b =>
    if rulesDeleted then do
      let c ← s.contextOf p
      let _ ← s.ue.contexts.cells c
      some { s with
        ue := { s.ue with
          bearers := s.ue.bearers.free b
          pdns := s.ue.pdns.update p fun pdn =>
            { pdn with epsBearers := pdn.epsBearers.del ebiIndex }
          contexts := s.ue.contexts.update c fun ctx =>
            { ctx.clearEpsBearer ebiIndex with
              bearerBitmap := ctx.bearerBitmap &&& ~~~bearerBit ebiIndex } } }
    else some s

/-- The end of `delete_sess_context`: the PDN connection is freed, with the last one the context. -/
def releasePdn (c p : Nat) (ctx : UeContext) (s : UeStore) : UeStore :=
  if ctx.numPdns - 1 = 0 then
    { ue := { s.ue with
        pdns := s.ue.pdns.free p
        contexts := s.ue.contexts.free c
        ueContextByFteidHash := s.ue.ueContextByFteidHash.del ctx.s11SgwGtpcTeid
        ueContextByImsiHash := s.ue.ueContextByImsiHash.del ctx.imsi }
      contextOf := s.contextOf.del p }
  else
    { ue := { s.ue with
        pdns := s.ue.pdns.free p
        contexts := s.ue.contexts.update c fun ctx => { ctx with numPdns := ctx.numPdns - 1 } }
      contextOf := s.contextOf.del p }

/-- `delete_sess_context`; `rulesDeleted` is where `delete_rule_in_bearer` returns 0. -/
def deleteSessContext (rulesDeleted : Nat → Bool) (c p : Nat) (s : UeStore) : Option UeStore := do
  let s ← (List.range maxBearers).foldlM (fun s i => deleteBearerContext (rulesDeleted i) p i s) s
  let _ ← (← s.ue.pdns.cells p).apnInUse
  let ctx ← s.ue.contexts.cells c
  some (releasePdn c p ctx s)

end UeStore

/-- The calls, and the assignments to `csr_sequence` between them. -/
inductive UeOp where
  | create (request : CreateUeRequest)
  | csrSequence (p : Nat) (sequence : UInt32)
  | deleteBearer (p ebiIndex : Nat) (rulesDeleted : Bool)
  | deleteSession (p : Nat) (rulesDeleted : Nat → Bool)

namespace UeOp

/-- None where the C code goes through an invalid pointer. -/
def exec (s : UeStore) : UeOp → Option UeStore
  | .create r => s.create r
  | .csrSequence p sequence => do
      let _ ← s.ue.pdns.cells p
      some { s with
        ue := { s.ue with pdns := s.ue.pdns.update p fun pdn => { pdn with csrSequence := sequence } } }
  | .deleteBearer p ebiIndex rulesDeleted => s.deleteBearerContext rulesDeleted p ebiIndex
  | .deleteSession p rulesDeleted => do s.deleteSessContext rulesDeleted (← s.contextOf p) p

def step (s : UeStore) (op : UeOp) : UeStore := (op.exec s).getD s

end UeOp

def filled {Value : Type} (bound : Nat) (table : Table Nat Value) : Nat :=
  (List.range bound).countP fun i => (table i).isSome

/-- The bitmap has the occupied slots of bearers, each with a bearer that its PDN connection has at
that index, and the PDN connections are counted. -/
structure ContextRight (s : UeState) (ctx : UeContext) : Prop where
  bitmap : ∀ i < maxBearers,
    ctx.bearerBitmap.toNat.testBit i = (ctx.slots (maxBearers + i)).isSome
  owned : ∀ i < maxBearers * 2, ∀ pointer, ctx.slots (maxBearers + i) = some pointer →
    ∃ b bearer p pdn, pointer = .bearer b ∧ s.bearers.cells b = some bearer ∧ bearer.pdn = some p ∧
      s.pdns.cells p = some pdn ∧ pdn.epsBearers i = some b
  numPdns : ctx.numPdns.toNat = filled maxBearers ctx.slots

/-- Every context is right, and every PDN connection counts its bearers. -/
structure BooksRight (s : UeState) : Prop where
  contexts : ∀ c ctx, s.contexts.cells c = some ctx → ContextRight s ctx
  numBearer : ∀ p pdn, s.pdns.cells p = some pdn →
    pdn.numBearer.toNat = filled (maxBearers * 2) pdn.epsBearers

/-- A new subscriber's PDN connection is inside the array. A further new bearer is of a new APN
exactly if its index is inside the array. A known bearer is that of a request received again, or the
only one of its PDN connection inside the array. -/
def CreateFits (s : UeState) (r : CreateUeRequest) (ebiIndex : Nat) : Prop :=
  match s.ueContextByImsiHash r.imsi with
  | none => ebiIndex < maxBearers
  | some c =>
    match UeStore.pdnOf s c ebiIndex with
    | none => s.getPdn c r.apnRequested = some none ↔ ebiIndex < maxBearers
    | some p => ∀ pdn, s.pdns.cells p = some pdn →
        pdn.csrSequence = r.sequence ∨ ∀ i < maxBearers, i ≠ ebiIndex → pdn.epsBearers i = none

/-- Besides, no bearer is deleted alone, and only the last session of a context. -/
def UeOp.Fits (s : UeStore) : UeOp → Prop
  | .create r => (1 ≤ r.ebi.toNat ∧ r.ebi.toNat ≤ 15) ∧ CreateFits s.ue r (r.ebi.toNat - 1)
  | .csrSequence p _ => (s.ue.pdns.cells p).isSome
  | .deleteBearer p ebiIndex rulesDeleted => ∃ pdn, s.ue.pdns.cells p = some pdn ∧
      (pdn.epsBearers ebiIndex = none ∨ rulesDeleted = false)
  | .deleteSession p _ => ∃ pdn c ctx, s.ue.pdns.cells p = some pdn ∧ s.contextOf p = some c ∧
      s.ue.contexts.cells c = some ctx ∧ ctx.numPdns = 1

end Epc.Cp
