import Epc.Up.Rules

/-! The rings in which downlink packets are buffered and the container of the rings: `allocate_ring` and
`enqueue_dl_pkts` (`dp/up_ddn.c`), `notification_handler` (`dp/up_pkt_handler.c`), and what the report
response, the modification and the deletion of a session do with the rings
(`pfcp_messages/pfcp_up_sess.c`). A ring is a bounded FIFO; `capacity` gives the number of packets that
a ring of a size holds, and `accept` how many packets each call of `rte_eth_tx_burst` takes. Taken over
from the documentation of `rte_ring`: an enqueue puts the packet behind the others and fails in a full
ring, and a dequeue of a burst takes as many from the front as there are, up to its size. -/

namespace Epc.Up

open Epc.Lib

def dlRingContainerSize : Nat := 4096

structure DlRing (Pkt : Type) where
  capacity : Nat
  pkts : List Pkt := []
  deriving DecidableEq, Repr

/-- The parts of `pfcp_session_datat_t` that buffering depends on. -/
structure BufferData where
  dlRing : Option Nat := none
  sessState : UpSessionState := .connected
  deriving DecidableEq, Repr

/-- The rings, the container, and the sessions: their data by context, and their BAR's suggested
number of packets. -/
structure RingState (Pkt : Type) where
  rings : Heap (DlRing Pkt)
  container : List Nat
  numDlRings : Nat
  sessions : Heap BufferData
  sessionsOf : Nat → List Nat
  pcktCnt : Nat → UInt8

/-- The parts of a PDR, its FAR and its session that buffering depends on. -/
structure BufferPdr where
  drop : Bool
  nocp : Bool
  buff : Bool
  forw : Bool
  pcktCnt : UInt8
  deriving DecidableEq, Repr

/-- A mbuf pointer of the array that `notification_handler` works on. -/
inductive Slot (Pkt : Type) where
  | key (value : UInt32)
  | freed
  | packet (pkt : Pkt)
  deriving DecidableEq, Repr

/-- Where `notification_handler` stands; `handled` are the keys with a session. -/
structure Handler (Pkt : Type) where
  slots : List (Slot Pkt)
  index : Nat
  sent : List Pkt
  calls : Nat
  handled : List UInt32
  deriving DecidableEq, Repr

section

variable {Pkt : Type}

/-- `rte_ring_enqueue` on the container, which holds one less than its size; an error is taken for
success. -/
def enqueueContainer (container : List Nat) (ring : Nat) : List Nat :=
  if container.length < dlRingContainerSize - 1 then container ++ [ring] else container

namespace RingState

def updateSession (s : RingState Pkt) (session : Nat) (f : BufferData → BufferData) : RingState Pkt :=
  { s with sessions := s.sessions.update session f }

/-- A ring is freed and one is taken out of the container. -/
def releaseRing (s : RingState Pkt) (ring : Nat) : RingState Pkt :=
  { s with rings := s.rings.free ring, container := s.container.tail }

end RingState

variable (capacity : UInt8 → Nat)

def allocateRing (size : UInt8) (s : RingState Pkt) : Option Nat × RingState Pkt :=
  if s.numDlRings < dlRingContainerSize ∧ s.container.length < dlRingContainerSize then
    (some s.rings.next,
      { s with
        rings := s.rings.alloc { capacity := capacity size }
        container := enqueueContainer s.container s.rings.next
        numDlRings := s.numDlRings + 1 })
  else (none, s)

/-- The packet goes to the ring of its session; a full ring is given up. -/
def bufferPkt (pdr : BufferPdr) (session ring : Nat) (pkt : Pkt) (s : RingState Pkt) :
    Option (RingState Pkt) :=
  if pdr.nocp || pdr.buff || pdr.forw then
    (s.rings.cells ring).map fun r =>
      if r.pkts.length < r.capacity then
        { s with rings := s.rings.update ring fun r => { r with pkts := r.pkts ++ [pkt] } }
      else (s.releaseRing ring).updateSession session fun data =>
        { data with dlRing := none, sessState := .idle }
  else some s

/-- `enqueue_dl_pkts` for one packet of its mask. -/
def enqueueDlPkt (pdr : Option BufferPdr) (session : Nat) (pkt : Pkt) (endMarker : Bool)
    (s : RingState Pkt) : Option (RingState Pkt) :=
  match pdr with
  | none => some s
  | some pdr =>
    if pdr.drop || endMarker then some s
    else
      match s.sessions.cells session with
      | none => none
      | some data =>
        match data.dlRing with
        | some ring => bufferPkt pdr session ring pkt s
        | none =>
          match allocateRing capacity pdr.pcktCnt s with
          | (none, s) => some s
          | (some ring, s) =>
            bufferPkt pdr session ring pkt (s.updateSession session fun data =>
              { dlRing := some ring
                sessState :=
                  if data.sessState = .idle ∧ pdr.nocp then .inProgress else data.sessState })

/-- The loop over the session data when the report response has another number of packets: a ring of
the new size takes what it can hold. -/
def replaceRings (size : UInt8) (context : Nat) :
    List Nat → RingState Pkt → Option (RingState Pkt)
  | [], s => some { s with pcktCnt := Function.update s.pcktCnt context size }
  | session :: rest, s =>
    match s.sessions.cells session with
    | none => none
    | some data =>
      match data.dlRing with
      | none => replaceRings size context rest s
      | some ring =>
        match s.rings.cells ring, allocateRing capacity size s with
        | none, _ => none
        | some _, (none, s) => some s
        | some r, (some new, s) =>
          let s := { s with
            rings := s.rings.update new fun r' => { r' with pkts := r.pkts.take r'.capacity } }
          replaceRings size context rest ((s.releaseRing ring).updateSession session fun data =>
            { data with dlRing := some new })

/-- `process_up_session_report_resp` with an Update BAR. -/
def processUpSessionReportResp (context : Nat) (size : UInt8) (s : RingState Pkt) :
    Option (RingState Pkt) :=
  if s.pcktCnt context = size then some s
  else replaceRings capacity size context (s.sessionsOf context) s

/-- The loop of a session modification with the DROBU flag. -/
def dropBuffered : List Nat → RingState Pkt → Option (RingState Pkt)
  | [], s => some s
  | session :: rest, s =>
    match s.sessions.cells session with
    | none => none
    | some data =>
      match data.dlRing with
      | none => dropBuffered rest s
      | some ring =>
        dropBuffered rest ((s.releaseRing ring).updateSession session fun data =>
          { data with dlRing := none })

/-- The loop of `up_delete_session_entry` over the session data. -/
def deleteSessionData : List Nat → RingState Pkt → Option (RingState Pkt)
  | [], s => some s
  | session :: rest, s =>
    match s.sessions.cells session with
    | none => none
    | some data =>
      let s := match data.dlRing with
        | none => s
        | some ring => s.releaseRing ring
      deleteSessionData rest { s with sessions := s.sessions.free session }

def upDeleteSession (context : Nat) (s : RingState Pkt) : Option (RingState Pkt) :=
  (deleteSessionData (s.sessionsOf context) s).map fun s =>
    { s with sessionsOf := Function.update s.sessionsOf context [] }

def openSessionData (context : Nat) (s : RingState Pkt) : RingState Pkt :=
  { s with
    sessions := s.sessions.alloc {}
    sessionsOf := Function.update s.sessionsOf context (s.sessionsOf context ++ [s.sessions.next]) }

end

section

variable {Pkt : Type} (accept : Nat → Nat) (resolve : UInt32 → Option Nat)

def burstSize : Nat := 32

/-- A dequeued burst replaces the front of the array. -/
def overwrite (slots : List (Slot Pkt)) (burst : List Pkt) : List (Slot Pkt) :=
  burst.map .packet ++ slots.drop burst.length

/-- The calls of `rte_eth_tx_burst` for a burst, by the packets sent and the calls made before. -/
def transmit : Nat → List Pkt → Nat → Option (List Pkt × Nat)
  | _, [], calls => some ([], calls)
  | 0, _ :: _, _ => none
  | fuel + 1, pkt :: pkts, calls =>
    let taken := min (min (pkts.length + 1) burstSize) (accept calls)
    (transmit fuel ((pkt :: pkts).drop taken) (calls + 1)).map fun rest =>
      ((pkt :: pkts).take taken ++ rest.1, rest.2)

/-- The bursts of a ring. The loops over a burst leave the key index at its length. -/
def drain : Nat → List Pkt → Handler Pkt → Option (Handler Pkt)
  | _, [], h => some h
  | 0, _ :: _, _ => none
  | fuel + 1, pkt :: pkts, h =>
    let burst := (pkt :: pkts).take burstSize
    match transmit accept burst.length burst h.calls with
    | none => none
    | some (sent, calls) =>
      drain fuel ((pkt :: pkts).drop burstSize)
        { h with
          slots := overwrite h.slots burst
          index := burst.length
          sent := h.sent ++ sent
          calls }

/-- The loop over the `n` keys. A key that was freed or overwritten is no key any more. -/
def notifyLoop (n : Nat) : Nat → Handler Pkt → RingState Pkt → Option (Handler Pkt × RingState Pkt)
  | 0, _, _ => none
  | fuel + 1, h, s =>
    if n ≤ h.index then some (h, s)
    else
      match h.slots[h.index]? with
      | some (.key key) =>
        match resolve key with
        | none => notifyLoop n fuel { h with index := h.index + 1 } s
        | some session =>
          match s.sessions.cells session with
          | none => none
          | some data =>
            let h := { h with
              slots := h.slots.set h.index .freed
              handled := h.handled ++ [key] }
            let s := s.updateSession session fun data => { data with sessState := .connected }
            match data.dlRing with
            | none => notifyLoop n fuel { h with index := h.index + 1 } s
            | some ring =>
              match s.rings.cells ring with
              | none => none
              | some r =>
                match drain accept r.pkts.length r.pkts h with
                | none => none
                | some h =>
                  notifyLoop n fuel { h with index := h.index + 1 }
                    { s with
                      rings := s.rings.update ring fun r => { r with pkts := [] }
                      container := enqueueContainer s.container ring }
      | _ => none

def Handler.start (keys : List UInt32) : Handler Pkt where
  slots := keys.map .key
  index := 0
  sent := []
  calls := 0
  handled := []

/-- `notification_handler`; `resolve` looks up a key as a TEID or a UE address. -/
def notificationHandler (keys : List UInt32) (s : RingState Pkt) :
    Option (Handler Pkt × RingState Pkt) :=
  notifyLoop accept resolve keys.length ((keys.length + 1) * (keys.length + 1)) (.start keys) s

end

end Epc.Up
