import Epc.Lib.Table
import Epc.Cp.GtpcTeid

/-! UE contexts of the control plane and `create_ue_context` (`cp/ue.c`).  Contexts, PDN connections
and bearers live in heaps and refer to each other by address; a step the C code could only take
through an invalid pointer has no result. -/

namespace Epc.Cp

open Epc.Lib

/-- `MAX_BEARERS` of the control plane. -/
def maxBearers : Nat := 14

/-- `GET_EBI_INDEX`; the `-1` of the macro is `none`. -/
def getEbiIndex (ebi : Nat) : Option Nat :=
  if 1 ≤ ebi ∧ ebi ≤ maxBearers * 2 then some (ebi - 1) else none

/-- `1 << ebi_index` as `bearer_bitmap` of 16 bits keeps it. -/
def bearerBit (ebiIndex : Nat) : UInt16 := UInt16.ofNat (1 <<< ebiIndex)

def maxFiltersPerUe : Nat := 16

def enoent : Int := 2

def gtpv2cCauseSystemFailure : Int := 72
def gtpcReTransmittedReq : Int := -2

structure Apn where
  apnNameLabel : List UInt8
  apnNameLength : Nat
  deriving DecidableEq, Repr

/-- The parts of `eps_bearer` that context creation touches. -/
structure EpsBearer where
  epsBearerId : UInt8 := 0
  packetFilterMap : List Int := List.replicate maxFiltersPerUe 0
  pdn : Option Nat := none

structure PdnConnection where
  numBearer : UInt8 := 0
  defaultBearerId : UInt8 := 0
  csrSequence : UInt32 := 0
  apnInUse : Option Apn := none
  epsBearers : Table Nat Nat := Table.empty

inductive Ptr where
  | pdn (address : Nat)
  | bearer (address : Nat)
  deriving DecidableEq, Repr

/-- `slots` is the memory of the adjacent `pdns[MAX_BEARERS]` and `eps_bearers[MAX_BEARERS*2]`:
`eps_bearers[i]` is slot `MAX_BEARERS + i`. -/
structure UeContext where
  imsi : UInt64 := 0
  imsiLen : UInt8 := 0
  s11SgwGtpcTeid : UInt32 := 0
  bearerBitmap : UInt16 := 0
  numPdns : UInt8 := 0
  slots : Table Nat Ptr := Table.empty

namespace UeContext

/-- Reads `eps_bearers[i]`; the outer `none` is a pointer of the wrong kind. -/
def epsBearer (ctx : UeContext) (i : Nat) : Option (Option Nat) :=
  match ctx.slots (maxBearers + i) with
  | none => some none
  | some (.bearer b) => some (some b)
  | some (.pdn _) => none

def pdn (ctx : UeContext) (i : Nat) : Option (Option Nat) :=
  match ctx.slots i with
  | none => some none
  | some (.pdn p) => some (some p)
  | some (.bearer _) => none

def setEpsBearer (ctx : UeContext) (i b : Nat) : UeContext :=
  { ctx with slots := ctx.slots.add (maxBearers + i) (.bearer b) }

def clearEpsBearer (ctx : UeContext) (i : Nat) : UeContext :=
  { ctx with slots := ctx.slots.del (maxBearers + i) }

def setPdn (ctx : UeContext) (i p : Nat) : UeContext :=
  { ctx with slots := ctx.slots.add i (.pdn p) }

end UeContext

structure UeState where
  counters : GtpcCounters := {}
  contexts : Heap UeContext := Heap.empty
  pdns : Heap PdnConnection := Heap.empty
  bearers : Heap EpsBearer := Heap.empty
  ueContextByImsiHash : Table UInt64 Nat := Table.empty
  ueContextByFteidHash : Table UInt32 Nat := Table.empty

/-- The arguments of `create_ue_context`; `imsi` is the hash key. -/
structure CreateUeRequest where
  imsi : UInt64
  imsiLen : UInt16
  ebi : UInt8
  apnRequested : Apn
  sequence : UInt32
  checkIfUeHashExist : UInt8
  cpType : CpType
  deriving DecidableEq, Repr

namespace UeState

def epsBearer (s : UeState) (c i : Nat) : Option (Option Nat) := do
  (← s.contexts.cells c).epsBearer i

/-- The label test of `get_pdn`, a `strncmp` over the requested length. -/
def apnMatches (inUse requested : Apn) : Bool :=
  inUse.apnNameLabel.take requested.apnNameLength ==
    requested.apnNameLabel.take requested.apnNameLength

/-- The loop of `get_pdn` over the indices still to be tried. -/
def getPdnFrom (s : UeState) (ctx : UeContext) (requested : Apn) : List Nat → Option (Option Nat)
  | [] => some none
  | i :: rest => do
      match ← ctx.pdn i with
      | none => getPdnFrom s ctx requested rest
      | some p =>
        let inUse ← (← s.pdns.cells p).apnInUse
        if apnMatches inUse requested then some (some p)
        else getPdnFrom s ctx requested rest

def getPdn (s : UeState) (c : Nat) (requested : Apn) : Option (Option Nat) := do
  getPdnFrom s (← s.contexts.cells c) requested (List.range maxBearers)

/-- One round of the loop that clears an overwritten session's bearers. -/
def dropPdnBearer (c p ebiIndex b : Nat) (s : UeState) (i : Nat) : Option UeState := do
  match (← s.pdns.cells p).epsBearers i with
  | none => some s
  | some other =>
    if i = ebiIndex then
      some { s with bearers := s.bearers.update b (fun _ => {}) }
    else
      some { s with
        bearers := s.bearers.free other
        pdns := s.pdns.update p (fun pdn => { pdn with epsBearers := pdn.epsBearers.del i })
        contexts := s.contexts.update c (fun ctx =>
          { ctx.clearEpsBearer i with
            bearerBitmap := ctx.bearerBitmap &&& ~~~bearerBit ebiIndex }) }

/-- The session's bearer and PDN connection, once the context is in both hashes. -/
def attachBearer (s : UeState) (c ebiIndex : Nat) (pdn : Option Nat) (r : CreateUeRequest) :
    Option (UeState × Nat × Nat) := do
  match ← s.epsBearer c ebiIndex, pdn with
  | some b, some p =>
    let s ← (List.range maxBearers).foldlM (dropPdnBearer c p ebiIndex b) s
    some (s, b, p)
  | some b, none =>
    let old ← (← s.bearers.cells b).pdn
    let p := s.pdns.next
    some ({ s with
      pdns := (s.pdns.update old (fun pdn =>
          { pdn with epsBearers := pdn.epsBearers.del ebiIndex })).alloc
        { numBearer := 1, epsBearers := Table.empty.add ebiIndex b }
      bearers := s.bearers.update b (fun _ => {})
      contexts := s.contexts.update c (fun ctx =>
        { ctx.setPdn ebiIndex p with numPdns := ctx.numPdns + 1 }) }, b, p)
  | none, _ =>
    let b := s.bearers.next
    let s := { s with bearers := s.bearers.alloc { epsBearerId := r.ebi } }
    match ← s.getPdn c r.apnRequested with
    | none =>
      let p := s.pdns.next
      some ({ s with
        pdns := s.pdns.alloc
          { numBearer := 1
            defaultBearerId := r.ebi
            epsBearers := Table.empty.add ebiIndex b }
        contexts := s.contexts.update c (fun ctx =>
          { (ctx.setEpsBearer ebiIndex b).setPdn ebiIndex p with
            numPdns := ctx.numPdns + 1
            bearerBitmap := ctx.bearerBitmap ||| bearerBit ebiIndex }) },
        b, p)
    | some p =>
      some ({ s with
        pdns := s.pdns.update p (fun pdn =>
          { pdn with
            numBearer := pdn.numBearer + 1
            epsBearers := pdn.epsBearers.add ebiIndex b })
        contexts := s.contexts.update c (fun ctx => ctx.setEpsBearer ebiIndex b) }, b, p)

/-- The end of `create_ue_context`: filter map, back pointer, EBI and APN. -/
def finishBearer (s : UeState) (b p : Nat) (r : CreateUeRequest) : UeState :=
  { s with
    bearers := s.bearers.update b (fun bearer =>
      { bearer with
        packetFilterMap := List.replicate maxFiltersPerUe (-enoent)
        pdn := some p
        epsBearerId := r.ebi })
    pdns := s.pdns.update p (fun pdn => { pdn with apnInUse := some r.apnRequested }) }

/-- Gives the context its S11 TEID and enters it under that TEID. -/
def assignTeid (s : UeState) (c : Nat) (checkIfUeHashExist : UInt8) (cpType : CpType) :
    Option UeState := do
  let ctx ← s.contexts.cells c
  let (teid, counters) :=
    getS11SgwGtpcTeid s.counters checkIfUeHashExist cpType ctx.s11SgwGtpcTeid
  some { s with
    counters
    contexts := s.contexts.update c (fun ctx => { ctx with s11SgwGtpcTeid := teid })
    ueContextByFteidHash := s.ueContextByFteidHash.add teid c }

def completeContext (s : UeState) (c ebiIndex : Nat) (pdn : Option Nat) (flag : UInt8)
    (r : CreateUeRequest) : Option UeState := do
  let s ← s.assignTeid c flag r.cpType
  let (s, b, p) ← s.attachBearer c ebiIndex pdn r
  some (s.finishBearer b p r)

def newContext (s : UeState) (r : CreateUeRequest) : UeState :=
  { s with
    contexts := s.contexts.alloc { imsi := r.imsi, imsiLen := r.imsiLen.toUInt8 }
    ueContextByImsiHash := s.ueContextByImsiHash.add r.imsi s.contexts.next }

/-- `create_ue_context` and its result; allocations and insertions succeed. -/
def createUeContext (s : UeState) (r : CreateUeRequest) : Option (UeState × Int) := do
  match getEbiIndex r.ebi.toNat with
  | none => some (s, gtpv2cCauseSystemFailure)
  | some ebiIndex =>
    match s.ueContextByImsiHash r.imsi with
    | none =>
      let s' ← (s.newContext r).completeContext s.contexts.next ebiIndex none
        r.checkIfUeHashExist r
      some (s', 0)
    | some c =>
      match ← s.epsBearer c ebiIndex with
      | none => some (← s.completeContext c ebiIndex none 1 r, 0)
      | some b =>
        match (← s.bearers.cells b).pdn with
        | none => some (← s.completeContext c ebiIndex none 1 r, 0)
        | some p =>
          if (← s.pdns.cells p).csrSequence = r.sequence then
            some (s, gtpcReTransmittedReq)
          else
            some (← s.completeContext c ebiIndex (some p) 1 r, 0)

end UeState

/-- What draws on the GTP-C counters: a context creation with `check_if_ue_hash_exist` 0 as in the
callers, or a direct call. -/
inductive UeEvent where
  | create (request : CreateUeRequest)
  | s5s8Sgw
  | s5s8Pgw
  deriving DecidableEq, Repr

namespace UeState

/-- A step of the control plane; an unsuccessful creation has no successor. -/
def step (s : UeState) : UeEvent → Option UeState
  | .create request => do
      let (s', ret) ← s.createUeContext { request with checkIfUeHashExist := 0 }
      if ret = 0 then some s' else none
  | .s5s8Sgw => some { s with counters := (getS5s8SgwGtpcTeid s.counters).2 }
  | .s5s8Pgw => some { s with counters := (getS5s8PgwGtpcTeid s.counters).2 }

def execute (s : UeState) (events : List UeEvent) : Option UeState :=
  events.foldlM step s

end UeState

end Epc.Cp
