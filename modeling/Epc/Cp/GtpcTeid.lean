import Mathlib

/-! The control-plane GTP-C TEID counters of `cp_dp_api/teid.c`. -/

namespace Epc.Cp

inductive CpType where
  | sgwc
  | pgwc
  | saegwc
  deriving DecidableEq, Repr

def s11SgwGtpcBaseTeid : UInt32 := 0xC0FFEE
def s5s8SgwGtpcBaseTeid : UInt32 := 0xE0FFEE
def s5s8PgwGtpcBaseTeid : UInt32 := 0xD0FFEE

/-- The static offsets, zero at process start. -/
structure GtpcCounters where
  s11SgwGtpcTeidOffset : UInt32 := 0
  s5s8SgwGtpcTeidOffset : UInt32 := 0
  s5s8PgwGtpcTeidOffset : UInt32 := 0
  deriving DecidableEq, Repr

def getS5s8SgwGtpcTeid (c : GtpcCounters) : UInt32 × GtpcCounters :=
  (s5s8SgwGtpcBaseTeid + c.s5s8SgwGtpcTeidOffset,
    { c with s5s8SgwGtpcTeidOffset := c.s5s8SgwGtpcTeidOffset + 1 })

def getS5s8PgwGtpcTeid (c : GtpcCounters) : UInt32 × GtpcCounters :=
  (s5s8PgwGtpcBaseTeid + c.s5s8PgwGtpcTeidOffset,
    { c with s5s8PgwGtpcTeidOffset := c.s5s8PgwGtpcTeidOffset + 1 })

def getS11SgwGtpcTeid (c : GtpcCounters) (checkIfUeHashExist : UInt8) (cpType : CpType)
    (oldS11SgwGtpcTeid : UInt32) : UInt32 × GtpcCounters :=
  if checkIfUeHashExist = 0 then
    match cpType with
    | .sgwc | .saegwc =>
      (s11SgwGtpcBaseTeid + c.s11SgwGtpcTeidOffset,
        { c with s11SgwGtpcTeidOffset := c.s11SgwGtpcTeidOffset + 1 })
    | .pgwc => getS5s8PgwGtpcTeid c
  else
    (oldS11SgwGtpcTeid, c)

/-- A call that returns a TEID a UE context is keyed by. -/
inductive GtpcCall where
  | s11Sgw (checkIfUeHashExist : UInt8) (cpType : CpType) (oldS11SgwGtpcTeid : UInt32)
  | s5s8Pgw
  deriving DecidableEq, Repr

def GtpcCall.apply (c : GtpcCounters) : GtpcCall → UInt32 × GtpcCounters
  | .s11Sgw flag cpType old => getS11SgwGtpcTeid c flag cpType old
  | .s5s8Pgw => getS5s8PgwGtpcTeid c

/-- The TEIDs the calls return, in order, from the given counters. -/
def gtpcTeidsFrom (c : GtpcCounters) : List GtpcCall → List UInt32
  | [] => []
  | call :: calls => (call.apply c).1 :: gtpcTeidsFrom (call.apply c).2 calls

def gtpcTeids (calls : List GtpcCall) : List UInt32 :=
  gtpcTeidsFrom {} calls

end Epc.Cp
