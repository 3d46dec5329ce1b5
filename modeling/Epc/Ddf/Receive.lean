import Epc.Ddf.Packet
import Epc.Lib.Receive

/-! The receive loops of D-DF: `TCPDataProcessor::onReceive` (`ulpc/d_df/src/TCPDataProcessor.cpp`) for the
gateways and `TCPForwardInterface::onReceive` (`ulpc/d_df/src/TCPForwardInterface.cpp`) for the
acknowledgements of DF. The receive buffer is a queue of bytes. -/

namespace Epc.Ddf

open Epc.Lib Epc.Lib.Bytes Epc.Lib.Receive

namespace TCPDataProcessor

/-- `(Int)packetLength`, behind `ntohl`. -/
def packetLength (header : List UInt8) : Int :=
  (ntohl (load32 header)).toInt32.toInt

/-- A round of the loop; `returns` tells for which packets `processPacket` returns. -/
def round (returns : List UInt8 → Bool) (pending : List UInt8) : Option (List UInt8) :=
  receive 4 packetLength returns pending

/-- A call ends for whatever `processPacket` does in each round. -/
def OnReceiveEnds (pending : List UInt8) : Prop :=
  ∀ returns : Nat → List UInt8 → Bool, EndsConsuming (fun n => round (returns n)) pending

/-- A packet that tells of no byte comes up when those in front of it are taken. -/
def EmptyComesUp (pending : List UInt8) : Prop :=
  MeetsEmpty 4 packetLength (fun _ => True) pending

theorem onReceiveEnds_iff (pending : List UInt8) : OnReceiveEnds pending ↔ ¬ EmptyComesUp pending :=
  endsConsuming_iff (fun _ _ _ _ => trivial) (fun _ _ => true) (fun _ => true) rfl (fun _ _ => rfl) trivial
    pending

end TCPDataProcessor

namespace TCPForwardInterface

def dfpacketAck : UInt8 := 0xff

def packetLength (header : List UInt8) : Int :=
  (load8 header).toNat

/-- `ackPacket->header.packetType`, behind the packet if that has one byte. -/
def packetType (memory : Nat → UInt8) (packet : List UInt8) : UInt8 :=
  packet.getD 1 (memory (1 - packet.length))

/-- A round of the loop, which is left at an unexpected type. -/
def round (memory : Nat → UInt8) (pending : List UInt8) : Option (List UInt8) :=
  receive 1 packetLength (fun packet => packetType memory packet = dfpacketAck) pending

/-- A call ends for whatever lies behind the packet in each round. -/
def OnReceiveEnds (pending : List UInt8) : Prop :=
  ∀ memory : Nat → Nat → UInt8, EndsConsuming (fun n => round (memory n)) pending

/-- The packet is an acknowledgement as far as it goes. -/
def MayBeAck (packet : List UInt8) : Prop :=
  ∀ type, packet[1]? = some type → type = dfpacketAck

def EmptyComesUp (pending : List UInt8) : Prop :=
  MeetsEmpty 1 packetLength MayBeAck pending

theorem onReceiveEnds_iff (pending : List UInt8) : OnReceiveEnds pending ↔ ¬ EmptyComesUp pending := by
  have allowed : ∀ (memory : Nat → Nat → UInt8) (round : Nat) (packet : List UInt8),
      decide (packetType (memory round) packet = dfpacketAck) → MayBeAck packet := by
    intro memory round packet ack type second
    rw [decide_eq_true_iff, packetType, List.getD_eq_getElem?_getD, second] at ack
    exact ack
  have goesOn : ∀ packet : List UInt8, MayBeAck packet →
      decide (packetType (fun _ => dfpacketAck) packet = dfpacketAck) := by
    intro packet may
    rw [decide_eq_true_iff, packetType, List.getD_eq_getElem?_getD]
    cases second : packet[1]? with
    | none => rfl
    | some type => exact may type second
  exact endsConsuming_iff allowed (fun _ _ => dfpacketAck) _ rfl goesOn
    (fun _ second => nomatch second) pending

end TCPForwardInterface

/-- The calls end exactly if no packet that tells of no byte comes up. -/
theorem onReceive_ends_iff (pending : List UInt8) :
    (TCPDataProcessor.OnReceiveEnds pending ↔ ¬ TCPDataProcessor.EmptyComesUp pending) ∧
      (TCPForwardInterface.OnReceiveEnds pending ↔ ¬ TCPForwardInterface.EmptyComesUp pending) :=
  ⟨TCPDataProcessor.onReceiveEnds_iff pending, TCPForwardInterface.onReceiveEnds_iff pending⟩

/-- Bytes that are all zero. -/
theorem zero_length_keeps_looping :
    ¬ TCPDataProcessor.OnReceiveEnds [0, 0, 0, 0] ∧ ¬ TCPForwardInterface.OnReceiveEnds [0] := by
  rw [TCPDataProcessor.onReceiveEnds_iff, TCPForwardInterface.onReceiveEnds_iff, not_not, not_not]
  exact ⟨.here _ ⟨by decide, by decide, by decide⟩, .here _ ⟨by decide, by decide, by decide⟩⟩

end Epc.Ddf
