import Epc.Cp.PolicyStore
import Epc.Cp.Tft

/-! The bearer contexts of an Update Bearer Request: `gx_update_bearer_req` (`pfcp_messages/pfcp_gx.c`).
Every element of a context is kept with the bearer that it was taken from. -/

namespace Epc.Cp.Policy

def diameterInvalidAvpValue : Int := 5004
def diameterErrorUserUnknown : Int := 5030
def gtpv2cCauseContextNotFound : Int := 64

structure Sourced (α : Type) where
  bearer : Nat
  value : α
  deriving DecidableEq, Repr

/-- A bearer context; the template by its operation and the rule it was written for. -/
structure UbrContext where
  epsBearerId : Option (Sourced Nat) := none
  tft : Option (Sourced (TftOp × List Char)) := none
  bearerLvlQos : Option (Sourced BearerQos) := none
  deriving DecidableEq, Repr

/-- The bearer contexts of `upd_bearer_req_t`, which starts as zero. -/
structure UpdBearerReq where
  bearerContexts : Nat → UbrContext := fun _ => {}
  bearerContextCount : Nat := 0

/-- What is written for one bearer context; the QoS goes to that at `qosIdx`. -/
structure Opening where
  bearer : Nat
  epsBearerId : Nat
  tft : Option (TftOp × List Char)
  qosIdx : Nat
  qos : Option BearerQos
  deriving DecidableEq, Repr

namespace UpdBearerReq

def modify (req : UpdBearerReq) (i : Nat) (f : UbrContext → UbrContext) : UpdBearerReq :=
  { req with bearerContexts := Function.update req.bearerContexts i (f (req.bearerContexts i)) }

def setTft (req : UpdBearerReq) (i bearer : Nat) (tft : TftOp × List Char) : UpdBearerReq :=
  req.modify i fun c => { c with tft := some ⟨bearer, tft⟩ }

def setQos (req : UpdBearerReq) (i bearer : Nat) (qos : BearerQos) : UpdBearerReq :=
  req.modify i fun c => { c with bearerLvlQos := some ⟨bearer, qos⟩ }

def setEbi (req : UpdBearerReq) (i bearer ebi : Nat) : UpdBearerReq :=
  req.modify i fun c => { c with epsBearerId := some ⟨bearer, ebi⟩ }

/-- One more context: template and EBI go to the one at `bearer_context_count`. -/
def addContext (req : UpdBearerReq) (o : Opening) : UpdBearerReq :=
  let count := req.bearerContextCount
  let req := match o.tft with
    | some tft => req.setTft count o.bearer tft
    | none => req
  let req := match o.qos with
    | some qos => req.setQos o.qosIdx o.bearer qos
    | none => req
  { req.setEbi count o.bearer o.epsBearerId with bearerContextCount := count + 1 }

def sent (req : UpdBearerReq) : List UbrContext :=
  (List.range req.bearerContextCount).map req.bearerContexts

end UpdBearerReq

/-- The operation of the template for an entry that modifies a bearer. -/
def modifyingOp : RuleAction → Option TftOp
  | .modify => some .replaceFilterExisting
  | .modifyAddRule => some .addFilterExisting
  | .modifyRemoveRule => some .removeFilterExisting
  | _ => none

/-- The bearer that an entry leaves: a rule to be removed is removed. -/
def PccRule.removeFrom (entry : PccRule) (bearer : RuleBearer) : Except Refusal RuleBearer :=
  if entry.action = .modifyRemoveRule then
    orUndefined (deleteBearerRule entry.rule.ruleName bearer)
  else .ok bearer

namespace PolicyPdn

variable (pdn : PolicyPdn)

/-- Where an entry's bearer is. For a name without a bearer the array is read before its start. -/
def modifiedIndex (bearers : RuleBearers) (entry : PccRule) : Except Refusal Nat :=
  if entry.action ≠ .modifyRemoveRule then
    match getBearer bearers entry.rule.qos with
    | some i => .ok i
    | none => .error (.cause diameterErrorUserUnknown)
  else
    orUndefined (getRuleNameEntry (NamedRule.key ⟨pdn.callId, false, entry.rule.ruleName⟩)
      pdn.ruleNames)

def modifiedBearer (bearers : RuleBearers) (entry : PccRule) : Except Refusal (Nat × RuleBearer) := do
  let i ← pdn.modifiedIndex bearers entry
  match bearers i with
  | some bearer => .ok (i, bearer)
  | none => .error (.cause diameterErrorUserUnknown)

/-- An entry that modifies a bearer, and the context it opens if the bearer has its action. -/
structure Visit where
  bearer : Nat
  opening : Option Opening
  deriving DecidableEq, Repr

/-- What a policy entry is for; a rule is removed between the template and the QoS. -/
def visitEntry (bearers : RuleBearers) (idx : Nat) : Except Refusal (Option Visit × RuleBearers) := do
  let entry ← orUndefined (pdn.pccRule idx)
  match modifyingOp entry.action with
  | none => .ok (none, bearers)
  | some op => do
      let (i, bearer) ← pdn.modifiedBearer bearers entry
      if bearer.qosBearerCheck || bearer.flowDescCheck then
        if bearer.action = entry.action then do
          let left ← entry.removeFrom bearer
          let opening : Opening := {
            bearer := i
            epsBearerId := bearer.epsBearerId
            tft :=
              if bearer.flowDescCheck && !pdn.hssInitiated then some (op, entry.rule.ruleName)
              else none
            qosIdx := idx
            qos := if left.qosBearerCheck then some left.qos else none }
          .ok (some { bearer := i, opening := some opening }, Function.update bearers i (some left))
        else .ok (some { bearer := i, opening := none }, bearers)
      else .error (.cause diameterInvalidAvpValue)

end PolicyPdn

structure UbrState where
  req : UpdBearerReq
  bearers : RuleBearers
  bearer : Option Nat

def UbrState.apply (s : UbrState) (bearers : RuleBearers) : Option PolicyPdn.Visit → UbrState
  | none => { s with bearers }
  | some visit =>
    { req := match visit.opening with
        | some opening => s.req.addContext opening
        | none => s.req
      bearers
      bearer := some visit.bearer }

/-- The loop over the entries of the policy. -/
def policyContexts (pdn : PolicyPdn) : List Nat → UbrState → Except Refusal UbrState
  | [], s => .ok s
  | idx :: rest, s => do
      let (visit, bearers) ← pdn.visitEntry s.bearers idx
      policyContexts pdn rest (s.apply bearers visit)

/-- The loop over the bearers after a change of the ARP, from a value of `bearer_counter`. -/
def arpContexts (defaultBearerId : Nat) (bearers : RuleBearers) :
    List Nat → Nat → UpdBearerReq → UpdBearerReq
  | [], _, req => req
  | i :: rest, bearerCounter, req =>
    match bearers i with
    | none => arpContexts defaultBearerId bearers rest bearerCounter req
    | some bearer =>
      if bearer.epsBearerId = defaultBearerId then
        arpContexts defaultBearerId bearers rest (bearerCounter + 1) req
      else if bearer.arpBearerCheck then
        arpContexts defaultBearerId bearers rest (bearerCounter + 1) (req.addContext {
          bearer := i
          epsBearerId := bearer.epsBearerId
          tft := none
          qosIdx := bearerCounter
          qos := some bearer.qos })
      else arpContexts defaultBearerId bearers rest bearerCounter req

/-- `gx_update_bearer_req`, up to the contexts. -/
def gxUpdateBearerReq (pdn : PolicyPdn) : Except Refusal UpdBearerReq := do
  let s ← policyContexts pdn (List.range pdn.count.toNat)
    { req := {}, bearers := pdn.bearers, bearer := none }
  match s.bearer.bind s.bearers with
  | none => .error (.cause gtpv2cCauseContextNotFound)
  | some bearer =>
    if pdn.hssInitiated && bearer.arpBearerCheck then
      .ok (arpContexts pdn.defaultBearerId.toNat s.bearers (List.range maxBearers) 0 s.req)
    else .ok s.req

end Epc.Cp.Policy
