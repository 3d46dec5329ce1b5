import Epc.Lib.Inet
import Epc.Lib.Run
import Epc.Node

/-! The TEID ranges a user plane hands out to control planes, with the file that survives a restart:
`cp_dp_api/teid_upf.c`, the list part of `fill_pfcp_association_setup_resp`
(`pfcp_messages/pfcp_association.c`), and their callers' tests of `teidri_val`. -/

namespace Epc.Up

open Epc.Lib Epc.Lib.Text Epc.Lib.Inet

instance neZero_eight : NeZero 8 := ⟨by decide⟩

/-- `teidri_info`; a list of them is a list by its `next` fields. -/
structure TeidriInfo where
  nodeAddr : NodeAddress
  teidRange : UInt8
  deriving DecidableEq, Repr

def riMax : Nat := 8

/-- `MAX_TEID`, over the values the configuration admits. -/
def maxTeid (teidriVal : Fin 8) : Nat :=
  [0, 2, 4, 8, 16, 32, 64, 128].get teidriVal

def assignTeidRange (val : Nat) (freeList : List TeidriInfo) : Int8 :=
  if val = 0 then 0
  else if riMax < val then -1
  else
    match freeList with
    | [] => -1
    | info :: _ => info.teidRange.toInt8

def searchListForTeidRange (head : List TeidriInfo) (teidRange : UInt8) : Bool :=
  head.any fun info => info.teidRange == teidRange

/-- One round of `create_teid_range_free_list`, on the count left and the free list. -/
def freeListRound (blockedList : List TeidriInfo) (s : UInt8 × List TeidriInfo) (teidRange : Nat) :
    UInt8 × List TeidriInfo :=
  if s.1 ≠ 0 ∧ blockedList ≠ [] ∧ searchListForTeidRange blockedList (UInt8.ofNat teidRange) then
    (s.1 - 1, s.2)
  else (s.1, s.2 ++ [{ nodeAddr := NodeAddress.zero, teidRange := UInt8.ofNat teidRange }])

def createTeidRangeFreeList (blockedList freeList : List TeidriInfo) (teidriVal : Fin 8)
    (numCp : UInt8) : List TeidriInfo :=
  ((List.range (maxTeid teidriVal)).foldl (freeListRound blockedList) (numCp, freeList)).2

/-- The test of `get_teidri_info`: the address of the kind asked for, whatever is stored. -/
def sameAddress (upfIp : NodeAddress) (info : TeidriInfo) : Bool :=
  (upfIp.ipType == pdnTypeIpv4 && info.nodeAddr.ipv4Addr == upfIp.ipv4Addr) ||
    (upfIp.ipType == pdnTypeIpv6 && info.nodeAddr.ipv6Addr == upfIp.ipv6Addr)

def getTeidriInfo (head : List TeidriInfo) (upfIp : NodeAddress) : Option TeidriInfo :=
  head.find? (sameAddress upfIp)

def compareIpAddress (node addr : NodeAddress) : Bool :=
  if node.ipType = pdnTypeIpv4 ∧ addr.ipType = pdnTypeIpv4 then node.ipv4Addr == addr.ipv4Addr
  else if node.ipType = pdnTypeIpv6 ∧ addr.ipType = pdnTypeIpv6 then
    node.ipv6Addr == addr.ipv6Addr
  else false

def deleteEntryFromListForTeidRange (head : List TeidriInfo) (teidRange : UInt8) :
    List TeidriInfo :=
  head.eraseP fun info => info.teidRange == teidRange

def deleteEntryFromTeidriListForIp (nodeValue : NodeAddress) (head : List TeidriInfo) :
    List TeidriInfo :=
  head.eraseP fun info => compareIpAddress info.nodeAddr nodeValue

def isNullAddress (node : NodeAddress) : Bool :=
  node.ipv4Addr == 0 && node.ipv6Addr.get 0 == 0

/-- A new entry's address: the part of the node's kind over what `malloc` left. -/
def copyAddress (garbage node : NodeAddress) : NodeAddress :=
  if node.ipType = pdnTypeIpv4 then
    { garbage with ipv4Addr := node.ipv4Addr, ipType := pdnTypeIpv4 }
  else if node.ipType = pdnTypeIpv6 then
    { garbage with ipv6Addr := node.ipv6Addr, ipType := pdnTypeIpv6 }
  else garbage

def newEntry (teidRange : UInt8) (node garbage : NodeAddress) : TeidriInfo :=
  { nodeAddr := copyAddress garbage node, teidRange }

def hexByte (octet : UInt8) : List Char :=
  [(octet.toNat / 16).digitChar, (octet.toNat % 16).digitChar]

/-- `IPv6_FMT` over `PRINT_IPV6_ADDR`. -/
def printIpv6 (addr : Ipv6Address) : List Char :=
  [':'].intercalate
    ((List.range 8).map fun i =>
      hexByte (addr.toList.getD (2 * i) 0) ++ hexByte (addr.toList.getD (2 * i + 1) 0))

/-- `IPV4_ADDR` over `IPV4_ADDR_HOST_FORMAT (ntohl (addr))`, little-endian. -/
def printIpv4 (addr : UInt32) : List Char :=
  inetNtoa [addr.toUInt8, (addr >>> 8).toUInt8, (addr >>> 16).toUInt8, (addr >>> 24).toUInt8]

def printHeader (teidriVal : Fin 8) : List Char :=
  "TEIDRI , ".toList ++ decimal teidriVal ++ " ,\n".toList

/-- The record formats; `blank` is what stands before the dotted address. -/
def printRecord (blank : List Char) (teidRange : UInt8) (ipv6Addr : Ipv6Address)
    (ipv4Addr dotted : UInt32) : List Char :=
  decimal teidRange.toNat ++ " ,".toList ++ printIpv6 ipv6Addr ++ ", ".toList ++
    decimal ipv4Addr.toNat ++ ",".toList ++ blank ++ printIpv4 dotted ++ ", \n".toList

/-- A record from its first token on: a second one with a leading `0` means no IPv6 address. -/
def readRecord (token rest : List Char) : TeidriInfo :=
  let comma := fun c => c == ','
  let teidRange := UInt8.ofInt (atoi token)
  let ipv4 (rest : List Char) : NodeAddress :=
    match strtok comma rest with
    | none => NodeAddress.zero
    | some (token, _) => NodeAddress.v4 (UInt32.ofInt (atoi token))
  match strtok comma rest with
  | none => { nodeAddr := NodeAddress.zero, teidRange }
  | some (token, rest) =>
    if token.head? = some '0' then { nodeAddr := ipv4 rest, teidRange }
    else
      let octets := (inetPton6 token).getD []
      { nodeAddr := NodeAddress.v6 (Vector.ofFn fun i => octets.getD i 0), teidRange }

/-- Whether a first line holds the configured value. -/
def headerMatches (teidriVal : Fin 8) (token rest : List Char) : Bool :=
  "TEIDRI".toList.isPrefixOf token &&
    match strtok (fun c => c == ',') rest with
    | none => false
    | some (token, _) => UInt8.ofInt (atoi token) == UInt8.ofNat teidriVal

/-- Where the reading of the file stands; `clean` once records are to be dropped. -/
structure TeidriRead where
  lineNum : UInt8
  numCp : UInt8
  blockedList : List TeidriInfo
  clean : Bool
  deriving DecidableEq, Repr

def readLine (teidriVal : Fin 8) (s : TeidriRead) (line : List Char) : TeidriRead :=
  if s.clean then s
  else
    match strtok (fun c => c == ',') line with
    | none => s
    | some (token, rest) =>
      let lineNum := s.lineNum + 1
      if lineNum = 1 ∧ ¬ headerMatches teidriVal token rest then
        { s with lineNum, clean := true }
      else
        { s with
          lineNum
          numCp := s.numCp + 1
          blockedList :=
            if 1 < lineNum then s.blockedList ++ [readRecord token rest] else s.blockedList }

/-- The user plane: the file, if there is one, the configured value and the lists. -/
structure TeidriState where
  file : Option (List Char)
  teidriVal : Fin 8
  freeList : List TeidriInfo
  blockedList : List TeidriInfo
  allocatedList : List TeidriInfo
  deriving DecidableEq, Repr

namespace TeidriState

def initial : TeidriState where
  file := none
  teidriVal := 0
  freeList := []
  blockedList := []
  allocatedList := []

/-- `read_teidri_data`. -/
def readTeidriData (s : TeidriState) : TeidriState :=
  match s.file with
  | none =>
    { s with
      file := some (printHeader s.teidriVal)
      freeList := createTeidRangeFreeList s.blockedList s.freeList s.teidriVal 0 }
  | some text =>
    let read := (fgetsAll 256 [] text).foldl (readLine s.teidriVal)
      { lineNum := 0, numCp := 0, blockedList := s.blockedList, clean := false }
    { s with
      file := some (if read.clean then printHeader s.teidriVal else text)
      blockedList := read.blockedList
      freeList := createTeidRangeFreeList read.blockedList s.freeList s.teidriVal read.numCp }

/-- A new process on the file of the last one. -/
def start (s : TeidriState) (teidriVal : Fin 8) : TeidriState :=
  readTeidriData { initial with file := s.file, teidriVal }

/-- `add_teidri_node_entry` from the blocked list; the file has the record already. -/
def addFromBlocked (s : TeidriState) (teidRange : UInt8) (node garbage : NodeAddress) :
    TeidriState :=
  if isNullAddress node then s
  else
    match getTeidriInfo s.allocatedList node with
    | some _ => s
    | none =>
      { s with
        allocatedList := s.allocatedList ++ [newEntry teidRange node garbage]
        blockedList := deleteEntryFromListForTeidRange s.blockedList teidRange }

/-- `add_teidri_node_entry` from the free list. -/
def addFromFree (s : TeidriState) (teidRange : UInt8) (node garbage : NodeAddress) : TeidriState :=
  if isNullAddress node then s
  else
    let s := match getTeidriInfo s.allocatedList node with
      | some _ => s
      | none =>
        { s with
          allocatedList := s.allocatedList ++ [newEntry teidRange node garbage]
          freeList := deleteEntryFromListForTeidRange s.freeList teidRange }
    { s with
      file := some (s.file.getD [] ++
        printRecord " ".toList teidRange node.ipv6Addr node.ipv4Addr node.ipv4Addr) }

/-- The list part of `fill_pfcp_association_setup_resp`. -/
def associationSetup (s : TeidriState) (node garbage : NodeAddress) : TeidriState :=
  if s.teidriVal = 0 then s
  else
    match getTeidriInfo s.blockedList node with
    | some info => s.addFromBlocked info.teidRange node garbage
    | none =>
      match getTeidriInfo s.allocatedList node with
      | some _ => s
      | none =>
        let teidRange := assignTeidRange s.teidriVal s.freeList
        if teidRange < 0 then s else s.addFromFree teidRange.toUInt8 node garbage

/-- `flush_inactive_teidri_data`: an empty free list is not replaced by the blocked list. -/
def flushInactiveTeidriData (s : TeidriState) : TeidriState :=
  if s.teidriVal = 0 then s
  else
    { s with
      freeList := if s.freeList = [] then [] else s.freeList ++ s.blockedList
      blockedList := []
      file := some (printHeader s.teidriVal ++ s.allocatedList.flatMap fun info =>
        printRecord [] info.teidRange info.nodeAddr.ipv6Addr info.nodeAddr.ipv4Addr
          info.nodeAddr.ipv4Addr) }

/-- `delete_teidri_node_entry`; records written again have the deleted node's address. -/
def deleteTeidriNodeEntry (s : TeidriState) (node garbage : NodeAddress) : TeidriState :=
  if s.teidriVal = 0 ∨ isNullAddress node then s
  else
    match getTeidriInfo s.allocatedList node with
    | none => s
    | some info =>
      let allocatedList := deleteEntryFromTeidriListForIp node s.allocatedList
      { s with
        freeList := s.freeList ++ [newEntry info.teidRange node garbage]
        allocatedList
        file := some (printHeader s.teidriVal ++ allocatedList.flatMap fun info =>
          printRecord [] info.teidRange info.nodeAddr.ipv6Addr node.ipv4Addr
            info.nodeAddr.ipv4Addr) }

end TeidriState

/-- What happens to a user plane; `garbage` is what `malloc` returns. -/
inductive TeidriEvent where
  | start (teidriVal : Fin 8)
  | associationSetup (node garbage : NodeAddress)
  | deleteNode (node garbage : NodeAddress)
  | flush
  deriving DecidableEq, Repr

def TeidriState.step (s : TeidriState) : TeidriEvent → TeidriState
  | .start teidriVal => s.start teidriVal
  | .associationSetup node garbage => s.associationSetup node garbage
  | .deleteNode node garbage => s.deleteTeidriNodeEntry node garbage
  | .flush => s.flushInactiveTeidriData

end Epc.Up
