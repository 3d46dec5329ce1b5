import Epc.Up.ListRemoval
import Epc.Up.Rules

/-! The removal of a PDR on the user plane: `process_remove_pdr_sess`
(`pfcp_messages/pfcp_up_sess.c`) with the deletions from the hashes (`dp/pfcp_up_init.c`) and from the
lists (`dp/pfcp_up_llist.c`) that it makes. -/

namespace Epc.Up

open Epc.Lib

/-- The rules, and the session contexts' lists of session data, `sess->sessions`. -/
structure DataState where
  rules : RuleState
  sessionsOf : Nat → List Nat

/-- `get_pfcp_session_data`: new data goes to the end of the context's list. -/
def sessionData (context : Nat) (pdr : CreatePdr) (s : DataState) : Option Nat × DataState :=
  let (session, rules) := getPfcpSessionData pdr s.rules
  let sessions := s.sessionsOf context
  (session,
    { rules
      sessionsOf := Function.update s.sessionsOf context
        (if session = some s.rules.sessions.next then sessions ++ [s.rules.sessions.next]
          else sessions) })

/-- `process_create_pdr_info` for the PDR's session data; data freed in between is read and written.
-/
def createPdr (sess : PfcpSession) (context : Nat) (pdr : CreatePdr) (s : DataState) :
    Except Fault DataState :=
  match sessionData context pdr s with
  | (none, s) => .ok s
  | (some session, s) =>
    match s.rules.sessions.cells session with
    | none => .error .undefined
    | some _ => do
        let rules ← processCreatePdrInfo sess context session pdr s.rules
        .ok { s with rules }

section

variable (sess : PfcpSession)

/-- `del_far_info_entry`: the entry is freed, too. -/
def delFarInfoEntry (farId : UInt32) (t : RuleTable FarInfo) : RuleTable FarInfo :=
  match t.byId (sess.ruleKey farId.toUInt16.toUInt32) with
  | none => t
  | some a =>
    { heap := t.heap.free a
      byId := t.byId.del (sess.ruleKey farId.toUInt16.toUInt32) }

def removeFar (far : Option Nat) (t : RuleTable FarInfo) : Except Fault (RuleTable FarInfo) :=
  match far with
  | none => .ok t
  | some a =>
    match t.heap.cells a with
    | none => .error .undefined
    | some entry =>
      if 1 < entry.pdrCount then
        .ok (t.update a fun far => { far with pdrCount := far.pdrCount - 1 })
      else .ok (delFarInfoEntry sess entry.farIdValue t)

/-- The loop over a removed PDR's QERs: each is freed and its id deleted. -/
def removeQers : Nat → Option Nat → RuleTable (Node QerInfo) →
    Except Fault (RuleTable (Node QerInfo))
  | _, none, t => .ok t
  | 0, some _, _ => .error .undefined
  | fuel + 1, some a, t =>
    match t.heap.cells a, Llist.removeQerNode t.heap (some a) a with
    | some node, some (head, heap) =>
      removeQers fuel head { heap, byId := t.byId.del (sess.ruleKey node.data.qerId) }
    | _, _ => .error .undefined

/-- The loop over a removed PDR's URRs, at the node `urr` of the list from `head` on; a removal goes
back to the head. -/
def removeUrrs : Nat → Option Nat → Option Nat → RuleTable (Node UrrRule) →
    Except Fault (RuleTable (Node UrrRule))
  | _, _, none, t => .ok t
  | 0, _, some _, _ => .error .undefined
  | fuel + 1, head, some a, t =>
    match t.heap.cells a with
    | none => .error .undefined
    | some node =>
      if 1 < node.data.pdrCount then
        removeUrrs fuel head node.next
          (t.update a (Node.modify fun urr => { urr with pdrCount := urr.pdrCount - 1 }))
      else
        match Llist.removeUrrNode t.heap head a with
        | none => .error .undefined
        | some (head, heap) =>
          removeUrrs fuel head head
            { heap, byId := t.byId.del (sess.ruleKey node.data.info.urrId) }

/-- The usage reports of a removed PDR, `fill_sess_mod_usage_report` for `pdr->urr[itr]`, which is
no array. -/
def reportUrrs (now : UInt32) (urrCount : UInt8) (urr : Option Nat) (t : RuleTable (Node UrrRule)) :
    Except Fault (List UsageReport × RuleTable (Node UrrRule)) :=
  if urrCount = 0 then .ok ([], t)
  else if urrCount = 1 then
    match urr.bind t.heap.cells with
    | none => .error .undefined
    | some node =>
      .ok ([node.data.info.usageReport .termr now],
        { t with heap := (urr.map fun a => t.heap.update a (Node.modify fun rule =>
            { rule with info := rule.info.restart now })).getD t.heap })
  else .error .undefined

end

def successor : List Nat → Nat → Option Nat
  | a :: b :: rest, p => if a = p then some b else successor (b :: rest) p
  | _, _ => none

def nextPdr (s : RuleState) (p : Nat) : Option Nat :=
  (List.range s.sessions.next).findSome? fun session =>
    (s.sessions.cells session).bind fun data => successor data.pdrs p

/-- `remove_pdr_node` on the list of the addresses: the list afterwards, and the node that is freed. -/
def removePdrNode (pdrs : List Nat) (p : Nat) (next : Option Nat) : List Nat × Option Nat :=
  match pdrs with
  | [] => ([], none)
  | head :: rest =>
    if p = head then (rest, some head)
    else if next = none then ((head :: rest).dropLast, (head :: rest).getLast?)
    else if p ∈ rest then ((head :: rest).erase p, some p)
    else (head :: rest, none)

section

variable (sess : PfcpSession) (context : Nat) (now : UInt32) (ruleId : UInt16)

/-- What is done for the PDR that the hash has, which is on the list of `session`. -/
def removePdr (session p : Nat) (s : RuleState) : Except Fault (List UsageReport × RuleState) :=
  match s.pdrs.heap.cells p, s.sessions.cells session with
  | some info, some data => do
      let (reports, urrs) ← reportUrrs now info.urrCount info.urr s.urrs
      let fars ← removeFar sess info.far s.fars
      let qers ← removeQers sess s.qers.heap.next info.quer s.qers
      let urrs ← removeUrrs sess ((urrs.heap.next + 1) * (urrs.heap.next + 1)) info.urr info.urr urrs
      let next := nextPdr s p
      let (pdrs, freed) := removePdrNode data.pdrs p next
      .ok (reports,
        { s with
          fars
          qers
          urrs
          byTeid := if info.teid ≠ 0 ∧ next = none then s.byTeid.del info.teid else s.byTeid
          teids :=
            if info.teid ≠ 0 ∧ next = none then
              Function.update s.teids context
                ((s.teids context).map fun teid => if teid = info.teid then 0 else teid)
            else s.teids
          sessions := s.sessions.update session fun data => { data with pdrs }
          pdrs :=
            { heap := (freed.map s.pdrs.heap.free).getD s.pdrs.heap
              byId := s.pdrs.byId.del (sess.ruleKey info.ruleId.toUInt32) } })
  | _, _ => .error .undefined

/-- The first PDR of a list with the id that is to be removed. -/
def findPdr (s : RuleState) : List Nat → Except Fault (Option Nat)
  | [] => .ok none
  | p :: pdrs =>
    match s.pdrs.heap.cells p with
    | none => .error .undefined
    | some info => if info.ruleId = ruleId then .ok (some p) else findPdr s pdrs

def findInSession (s : RuleState) (session : Nat) : Except Fault (Option Nat) :=
  match s.sessions.cells session with
  | none => .error .undefined
  | some data => findPdr ruleId s data.pdrs

/-- The loop over one session data's PDRs; reports are there if one was removed. It then starts
over; a second PDR with the id would find no hash entry. -/
def removeFromSession (session : Nat) (s : RuleState) :
    Except Fault (Option (List UsageReport) × RuleState) := do
  match ← findInSession ruleId s session with
  | none => .ok (none, s)
  | some _ =>
    match s.pdrs.byId (sess.ruleKey ruleId.toUInt32) with
    | none => .error .rejected
    | some p =>
      let (reports, s) ← removePdr sess context now session p s
      match ← findInSession ruleId s session with
      | none => .ok (some reports, s)
      | some _ => .error .rejected

/-- The loop over the session data. Data without PDRs is unlinked and freed; the loop starts over at
the list's head, or without one goes on with what was freed. -/
def visitSessions : Nat → List Nat → Bool → List UsageReport → DataState →
    Except Fault (List UsageReport × DataState)
  | _, [], _, reports, s => .ok (reports, s)
  | 0, _ :: _, _, _, _ => .error .undefined
  | fuel + 1, session :: cursor, uiFlag, reports, s => do
      let (removed, rules) ← removeFromSession sess context now ruleId session s.rules
      let uiFlag := uiFlag || removed.isSome
      let reports := reports ++ removed.getD []
      let empty := (rules.sessions.cells session).any fun data => data.pdrs = []
      if uiFlag && empty then
        let sessions := (s.sessionsOf context).erase session
        let s : DataState :=
          { rules := { rules with sessions := rules.sessions.free session }
            sessionsOf := Function.update s.sessionsOf context sessions }
        if sessions = [] then .error .undefined
        else visitSessions fuel sessions false reports s
      else visitSessions fuel cursor uiFlag reports { s with rules }

end

/-- `process_remove_pdr_sess` for the session of the UP SEID, with its CP address. -/
def processRemovePdrSess (t : SessionTable) (upSeid : UInt64) (now : UInt32) (ruleId : UInt16)
    (s : DataState) : Except Fault (List UsageReport × DataState) :=
  match t.bySessId upSeid with
  | none => .error .rejected
  | some context =>
    match t.contexts.cells context with
    | none => .error .undefined
    | some sess =>
      let sessions := s.sessionsOf context
      visitSessions sess context now ruleId ((sessions.length + 1) * (sessions.length + 1))
        sessions false [] s

end Epc.Up
