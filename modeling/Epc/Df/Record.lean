import Epc.Lib.Bytes
import Epc.Lib.Scanf
import Epc.Ddf.Forwarder

/-! The records of the files in which D-DF (`ulpc/d_df/src/TCPListener.cpp`) and DF
(`ulpc/df/src/TCPListener.cpp`) keep packets until they are acknowledged: blocks of `SEND_BUF_SIZE` bytes
with a printed header and the data behind it. -/

namespace Epc.Df

open Epc.Lib Epc.Lib.Bytes Epc.Lib.Text Epc.Lib.Scanf
open Epc.Ddf (sendBufSize)

/-- `DfPacket_t` in memory, and the bytes behind it that its header tells of. -/
structure DfPacket where
  packetLength : UInt32
  sequenceNumber : UInt32
  liIdentifier : UInt64
  imsiNumber : UInt64
  dataLength : UInt32
  data : List UInt8
  whole : data.length = (ntohl dataLength).toNat

def dfPacketSize : Nat := 28

def encodeHeader (packetLength sequenceNumber : UInt32) (liIdentifier imsiNumber : UInt64)
    (dataLength : UInt32) : List UInt8 :=
  store32 packetLength ++ (store32 sequenceNumber ++ (store64 liIdentifier ++
    (store64 imsiNumber ++ store32 dataLength)))

def DfPacket.octets (packet : DfPacket) : List UInt8 :=
  encodeHeader packet.packetLength packet.sequenceNumber packet.liIdentifier packet.imsiNumber
    packet.dataLength ++ packet.data

/-- `memcpy` to a place in a buffer; none if it writes past the end. -/
def memcpyAt (buffer : List UInt8) (place : Nat) (source : List UInt8) : Option (List UInt8) :=
  if place + source.length ≤ buffer.length then
    some (buffer.take place ++ (source ++ buffer.drop (place + source.length)))
  else none

/-- `snprintf` to the start of a buffer, cut so that the terminator fits. -/
def snprintf (buffer : List UInt8) (text : List Char) : Option (List UInt8) :=
  memcpyAt buffer 0 ((text.take (buffer.length - 1)).map octet ++ [0])

section

/-- The format `"%u,%u,%lu,%lu,%u,"`. -/
def headerText (packetLength sequenceNumber liIdentifier imsiNumber dataLength : Nat) : List Char :=
  decimal packetLength ++ (',' :: (decimal sequenceNumber ++ (',' :: (decimal liIdentifier ++
    (',' :: (decimal imsiNumber ++ (',' :: (decimal dataLength ++ [',']))))))))

def DfPacket.text (packet : DfPacket) : List Char :=
  headerText (ntohl packet.packetLength).toNat (ntohl packet.sequenceNumber).toNat
    packet.liIdentifier.toNat packet.imsiNumber.toNat (ntohl packet.dataLength).toNat

def writeBuf (packet : DfPacket) : Option (List UInt8) := do
  let writeBuf ← snprintf (.replicate sendBufSize 0) packet.text
  let ret : UInt16 := .ofNat packet.text.length
  memcpyAt writeBuf ret.toNat packet.data

end

section

/-- The format `"%u,%u,%lu,%lu,%u"`. -/
def headerFormat : List Directive :=
  [.unsigned 32, .literal ',', .unsigned 32, .literal ',', .unsigned 64, .literal ',', .unsigned 64,
    .literal ',', .unsigned 32]

def numbOfDelimiters : Nat := 5

/-- The place behind the last delimiter, or the end of the buffer. -/
def skipDelimiters : Nat → Nat → List UInt8 → Nat
  | _, iter, [] => iter
  | cnt, iter, b :: rest =>
    let cnt := if b = octet ',' then cnt + 1 else cnt
    if cnt = numbOfDelimiters then iter + 1 else skipDelimiters cnt (iter + 1) rest

structure Fields where
  pktLen : UInt32
  seqNum : UInt32
  liId : UInt64
  imsi : UInt64
  dataLen : UInt32
  payloadBuf : List UInt8
  deriving DecidableEq, Repr

/-- At the end of the buffer the size of the copy would be negative. -/
def readFields (readBuf : List UInt8) : Option Fields :=
  let values := sscanf headerFormat (cString readBuf)
  let iter := skipDelimiters 0 0 readBuf
  if iter < sendBufSize then
    let copied := (readBuf.drop iter).take (sendBufSize - iter - 1)
    some
      { pktLen := .ofNat (values.getD 0 0)
        seqNum := .ofNat (values.getD 1 0)
        liId := .ofNat (values.getD 2 0)
        imsi := .ofNat (values.getD 3 0)
        dataLen := .ofNat (values.getD 4 0)
        payloadBuf := copied ++ .replicate (sendBufSize - copied.length) 0 }
  else none

/-- Built in a zeroed buffer of `size` bytes, of which `packetLength` are sent. -/
def sendFields (size : Nat) (fields : Fields) : Option (List UInt8) := do
  let header := encodeHeader (htonl fields.pktLen) (htonl fields.seqNum) fields.liId fields.imsi
    (htonl fields.dataLen)
  let pkt ← memcpyAt (.replicate size 0) 0 header
  if fields.dataLen.toNat ≤ fields.payloadBuf.length then
    let pkt ← memcpyAt pkt dfPacketSize (fields.payloadBuf.take fields.dataLen.toNat)
    if fields.pktLen.toNat ≤ pkt.length then some (pkt.take fields.pktLen.toNat) else none
  else none

end

/-! ### DF -/

namespace TCPListener

/-- The record that `processData` writes: a copy with a length of its own. -/
def processData (packet : DfPacket) : Option (List UInt8) :=
  let tempLen : UInt32 := .ofNat (dfPacketSize + (ntohl packet.dataLength).toNat)
  writeBuf { packet with packetLength := htonl tempLen }

/-- What `sendPending` gives to the legacy interface for a record. -/
def sendPending (readBuf : List UInt8) : Option (List UInt8) := do
  let fields ← readFields readBuf
  sendFields fields.pktLen.toNat fields

end TCPListener

end Epc.Df

/-! ### D-DF -/

namespace Epc.Ddf.TCPListener

open Epc.Df

/-- The record that `sendPacketToDf` writes. -/
def sendPacketToDf (packet : DfPacket) : Option (List UInt8) :=
  writeBuf packet

/-- What `sendPending` gives to `sendData` for a record. -/
def sendPending (readBuf : List UInt8) : Option (List UInt8) := do
  let fields ← readFields readBuf
  sendFields sendBufSize fields

end Epc.Ddf.TCPListener
