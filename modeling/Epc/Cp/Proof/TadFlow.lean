import Epc.Cp.Proof.TadFilter
import Epc.Cp.FlowDesc

/-! A packet filter of a Bearer Resource Command goes to the policy server as the text that
`fill_packet_fltr_info_avp` writes; `fill_sdf_strctr` reads such texts. What it makes of this one. -/

namespace Epc.Cp

open Epc.Lib.Text Epc.Lib.Inet List Option

structure RteStringEnd extends RteString where
  strsplit_end : ∀ (pieces : List (List Char)) (maxTokens : Nat) (delim : Char),
    (∀ piece ∈ pieces, piece ≠ [] ∧ delim ∉ piece) → pieces.length < maxTokens →
      strsplit ([delim].intercalate pieces ++ [delim]) maxTokens delim = pieces

structure Ipv4Side where
  address : List UInt8
  mask : UInt8
  portLow : UInt16
  portHigh : UInt16
  deriving DecidableEq, Repr

def TadPktFltr.localSide (t : TadPktFltr) : Ipv4Side where
  address := t.localIpAddr
  mask := t.localIpMask
  portLow := t.localPortLow
  portHigh := t.localPortHigh

def TadPktFltr.remoteSide (t : TadPktFltr) : Ipv4Side where
  address := t.remoteIpAddr
  mask := t.remoteIpMask
  portLow := t.remotePortLow
  portHigh := t.remotePortHigh

def SdfPktFltr.localIpv4 (f : SdfPktFltr) : Ipv4Side where
  address := f.ulocalip.take 4
  mask := f.localIpMask
  portLow := f.localPortLow
  portHigh := f.localPortHigh

def SdfPktFltr.remoteIpv4 (f : SdfPktFltr) : Ipv4Side where
  address := f.uremoteip.take 4
  mask := f.remoteIpMask
  portLow := f.remotePortLow
  portHigh := f.remotePortHigh

/-- The filters agree in the protocol, the local and the remote side. -/
structure SameFlow (t : TadPktFltr) (f : SdfPktFltr) : Prop where
  protocol : f.protoId = t.protoId
  localSide : f.localIpv4 = t.localSide
  remoteSide : f.remoteIpv4 = t.remoteSide

/-- A text is written whatever the entry held, and the filter is read back from it. -/
def FlowReadBack (str : RteString) (t : TadPktFltr) : Prop :=
  ∃ text, (∀ e, (fillPacketFltrInfoAvp t e).packetFilterContent = text) ∧
    ∃ f, fillSdfStrctr str text SdfPktFltr.zero = some f ∧ SameFlow t f

def Ipv4Side.words (side : Ipv4Side) : List (List Char) :=
  [inetNtoa side.address ++ '/' :: decimal side.mask.toNat,
    decimal side.portLow.toNat ++ '-' :: decimal side.portHigh.toNat]

def Ipv4Side.text (side : Ipv4Side) : List Char :=
  sideText (inetNtoa side.address) side.mask side.portLow side.portHigh

def flowWords (src dst : Ipv4Side) : List (List Char) :=
  ["permit".toList, "out".toList, "ip".toList, "from".toList] ++ src.words ++ ["to".toList] ++
    dst.words

theorem flow_text (src dst : Ipv4Side) :
    "permit out ip from".toList ++
        (" ".toList ++ src.text ++ " to ".toList ++ dst.text ++ " ".toList) =
      [' '].intercalate (flowWords src dst) ++ [' '] := by
  simp [flowWords, Ipv4Side.words, Ipv4Side.text, sideText, List.intercalate]

section

def Ipv4Side.FourOctets (side : Ipv4Side) : Prop :=
  side.address.length = 4

variable {src dst : Ipv4Side}

theorem Ipv4Side.FourOctets.exists_net {side : Ipv4Side} (ipv4 : side.FourOctets) :
    ∃ net : RuleNet, side.address = net.octets := by
  obtain ⟨a, b, c, d, octets⟩ := length_eq_four.mp ipv4
  exact ⟨{ a, b, c, d, maskLen := none }, octets⟩

theorem Ipv4Side.FourOctets.words_clear {side : Ipv4Side} (ipv4 : side.FourOctets) :
    ∀ word ∈ side.words, word ≠ [] ∧ ' ' ∉ word := by
  obtain ⟨net, octets⟩ := ipv4.exists_net
  have number (n : Nat) : ' ' ∉ decimal n := notMem_decimal (by decide) n
  have address := notMem_inetNtoa (c := ' ') (by decide) (by decide) net
  simp [words, octets, address, number]

theorem flowWords_clear (source : src.FourOctets) (destination : dst.FourOctets) :
    ∀ word ∈ flowWords src dst, word ≠ [] ∧ ' ' ∉ word := by
  intro word mem
  simp only [flowWords, mem_append] at mem
  rcases mem with ((start | from_src) | word_to) | to_dst
  · revert word
    decide
  · exact source.words_clear word from_src
  · revert word
    decide
  · exact destination.words_clear word to_dst

def sidesFilter (src dst : Ipv4Side) : SdfPktFltr :=
  { SdfPktFltr.zero with
    v4 := 1
    localIpMask := src.mask
    remoteIpMask := dst.mask
    localPortLow := src.portLow
    localPortHigh := src.portHigh
    remotePortLow := dst.portLow
    remotePortHigh := dst.portHigh
    ulocalip := src.address ++ List.replicate 12 0
    uremoteip := dst.address ++ List.replicate 12 0 }

theorem fillSdfStrctr_flow (str : RteStringEnd) (source : src.FourOctets) (destination : dst.FourOctets) :
    fillSdfStrctr str.toRteString ([' '].intercalate (flowWords src dst) ++ [' '])
      SdfPktFltr.zero = some (sidesFilter src dst) := by
  have few : (flowWords src dst).length < numVals := by simp [flowWords, Ipv4Side.words, numVals]
  have split := str.strsplit_end _ _ _ (flowWords_clear source destination) few
  obtain ⟨srcNet, srcOctets⟩ := source.exists_net
  obtain ⟨dstNet, dstOctets⟩ := destination.exists_net
  have proto : UInt8.ofInt (atoi ['i', 'p']) = 0 := by decide
  have srcPorts : decimal src.portLow.toNat ++ '-' :: decimal src.portHigh.toNat ≠ ['t', 'o'] := by
    intro word
    have dash : '-' ∈ ['t', 'o'] := by rw [← word]; simp
    exact absurd dash (by decide)
  rw [fillSdfStrctr, split, if_neg (Nat.not_lt.mpr few.le), flowWords]
  simp [Ipv4Side.words, List.zipIdx, fillToken, srcOctets, dstOctets, fillAddress_masked,
    fillPorts_span, proto, srcPorts, sidesFilter, SdfPktFltr.zero]

theorem sidesFilter_localIpv4 (source : src.FourOctets) : (sidesFilter src dst).localIpv4 = src := by
  have address : (src.address ++ List.replicate 12 0).take 4 = src.address := by
    rw [take_append_of_le_length (Nat.le_of_eq source.symm), take_of_length_le (Nat.le_of_eq source)]
  exact congrArg (fun a => Ipv4Side.mk a src.mask src.portLow src.portHigh) address

theorem sidesFilter_remoteIpv4 (destination : dst.FourOctets) :
    (sidesFilter src dst).remoteIpv4 = dst := by
  have address : (dst.address ++ List.replicate 12 0).take 4 = dst.address := by
    rw [take_append_of_le_length (Nat.le_of_eq destination.symm),
      take_of_length_le (Nat.le_of_eq destination)]
  exact congrArg (fun a => Ipv4Side.mk a dst.mask dst.portLow dst.portHigh) address

end

section

variable (f : PacketFilter)

theorem foldl_apply_ipv4 (cs : List Component) {t : TadPktFltr} (loc : t.localSide.FourOctets)
    (remote : t.remoteSide.FourOctets) :
    (cs.foldl (fun t c => c.apply t) t).localSide.FourOctets ∧
      (cs.foldl (fun t c => c.apply t) t).remoteSide.FourOctets := by
  induction cs generalizing t with
  | nil => exact ⟨loc, remote⟩
  | cons c cs ih =>
    apply ih
    · cases c with
      | ipv4Local address mask => exact address.length_toList
      | _ => exact loc
    · cases c with
      | ipv4Remote address mask => exact address.length_toList
      | _ => exact remote

theorem decoded_ipv4 : f.decoded.localSide.FourOctets ∧ f.decoded.remoteSide.FourOctets :=
  foldl_apply_ipv4 f.components rfl rfl

def Component.isIpv6 (c : Component) : Bool :=
  match c.type with
  | .ipv6Local | .ipv6Remote => true
  | _ => false

theorem foldl_apply_noIpv6 {cs : List Component} (none6 : ∀ c ∈ cs, c.isIpv6 = false)
    (t : TadPktFltr) : (cs.foldl (fun t c => c.apply t) t).v6 = t.v6 := by
  induction cs generalizing t with
  | nil => rfl
  | cons c cs ih =>
    rw [foldl_cons, ih fun c mem => none6 c (mem_cons_of_mem _ mem)]
    have not6 := none6 c mem_cons_self
    cases c with
    | ipv6Local address prefixLen => exact absurd not6 (by simp [Component.isIpv6, Component.type])
    | ipv6Remote address prefixLen => exact absurd not6 (by simp [Component.isIpv6, Component.type])
    | _ => rfl

theorem decoded_v4 (none6 : ∀ c ∈ f.components, c.isIpv6 = false)
    (address : f.components.any Component.isAddress = true) : f.decoded.v4 ≠ 0 := by
  have family := (PacketFilter.addressTexts_isSome _).mp (f.decoded_addressTexts.mpr address)
  rcases family with v4 | v6
  · exact v4
  · exact absurd (foldl_apply_noIpv6 none6 f.header) v6

end

def TadPktFltr.writtenSides (t : TadPktFltr) : Ipv4Side × Ipv4Side :=
  if t.pcktFltrDir = tftDirectionUplinkOnly then (t.localSide, t.remoteSide)
  else (t.remoteSide, t.localSide)

theorem flowText_written {f : PacketFilter} (none6 : ∀ c ∈ f.components, c.isIpv6 = false)
    (direction : f.direction ≠ 0) (address : f.components.any Component.isAddress = true) :
    f.decoded.flowText "permit out ip from".toList =
      some ([' '].intercalate (flowWords f.decoded.writtenSides.1 f.decoded.writtenSides.2) ++
        [' ']) := by
  have texts : f.decoded.addressTexts =
      some (inetNtoa f.decoded.localIpAddr, inetNtoa f.decoded.remoteIpAddr) :=
    if_pos (decoded_v4 f none6 address)
  have known := (directions f.direction).mpr direction
  rw [← f.decoded_direction] at known
  rw [TadPktFltr.flowText, texts, bind_some, TadPktFltr.writtenSides, ← flow_text]
  dsimp only
  rcases known with down | up
  · have notUp : f.decoded.pcktFltrDir ≠ tftDirectionUplinkOnly := by
      rcases down with down | both
      · rw [down]; decide
      · rw [both]; decide
    rw [if_pos down, if_neg notUp]
    rfl
  · rw [if_neg (by rw [up]; decide), if_pos up, if_pos up]
    rfl

theorem sameFlow_flowFilter_iff (f : PacketFilter) :
    SameFlow f.decoded (sidesFilter f.decoded.writtenSides.1 f.decoded.writtenSides.2) ↔
      f.decoded.protoId = 0 ∧
        (f.decoded.pcktFltrDir = tftDirectionUplinkOnly ∨
          f.decoded.localSide = f.decoded.remoteSide) := by
  obtain ⟨localIpv4, remoteIpv4⟩ := decoded_ipv4 f
  unfold TadPktFltr.writtenSides
  by_cases up : f.decoded.pcktFltrDir = tftDirectionUplinkOnly
  · rw [if_pos up]
    refine ⟨fun same => ⟨same.protocol.symm, Or.inl up⟩, fun ⟨protocol, _⟩ => ?_⟩
    exact ⟨protocol.symm, sidesFilter_localIpv4 localIpv4, sidesFilter_remoteIpv4 remoteIpv4⟩
  · rw [if_neg up]
    constructor
    · intro same
      have swapped := (sidesFilter_localIpv4 remoteIpv4).symm.trans same.localSide
      exact ⟨same.protocol.symm, Or.inr swapped.symm⟩
    · rintro ⟨protocol, isUp | equal⟩
      · exact absurd isUp up
      · refine ⟨protocol.symm, ?_, ?_⟩
        · exact (sidesFilter_localIpv4 remoteIpv4).trans equal.symm
        · exact (sidesFilter_remoteIpv4 localIpv4).trans equal

theorem content_of_flowText {t : TadPktFltr} {text : List Char}
    (written : ∀ e, (fillPacketFltrInfoAvp t e).packetFilterContent = text) :
    t.flowText "permit out ip from".toList = some text := by
  -- Were there no text, two entries would keep what they held.
  let entry (held : List Char) : GxPacketFilterInformation := { packetFilterContent := held }
  cases made : t.flowText "permit out ip from".toList with
  | none =>
    have empty := written (entry [])
    have filled := written (entry [' '])
    simp only [fillPacketFltrInfoAvp, made, getD_none, entry] at empty filled
    exact absurd (empty.trans filled.symm) (cons_ne_nil _ _).symm
  | some made_text =>
    have same := written (entry [])
    simp only [fillPacketFltrInfoAvp, made, getD_some] at same
    rw [same]

/-- For a filter without IPv6 addresses. -/
theorem flowReadBack_iff (str : RteStringEnd) (f : PacketFilter) (rest : List UInt8)
    (none6 : ∀ c ∈ f.components, c.isIpv6 = false) :
    FlowReadBack str.toRteString (parseTadPacketFilter (f.octets ++ rest)) ↔
      f.direction ≠ 0 ∧ f.components.any Component.isAddress = true ∧ f.decoded.protoId = 0 ∧
        (f.decoded.pcktFltrDir = tftDirectionUplinkOnly ∨
          f.decoded.localSide = f.decoded.remoteSide) := by
  have ipv4 : f.decoded.writtenSides.1.FourOctets ∧ f.decoded.writtenSides.2.FourOctets := by
    obtain ⟨loc, remote⟩ := decoded_ipv4 f
    unfold TadPktFltr.writtenSides
    split
    · exact ⟨loc, remote⟩
    · exact ⟨remote, loc⟩
  have read := fillSdfStrctr_flow str ipv4.1 ipv4.2
  rw [f.parse_octets, ← sameFlow_flowFilter_iff, ← and_assoc, ← flowText_isSome]
  constructor
  · rintro ⟨text, written, filter, reads, same⟩
    have flow := content_of_flowText written
    have some_text : (f.decoded.flowText "permit out ip from".toList).isSome = true := by
      rw [flow, isSome_some]
    obtain ⟨direction, address⟩ := (flowText_isSome _ f).mp some_text
    obtain rfl := some.inj (flow.symm.trans (flowText_written none6 direction address))
    obtain rfl := some.inj (reads.symm.trans read)
    exact ⟨some_text, same⟩
  · rintro ⟨some_text, same⟩
    obtain ⟨direction, address⟩ := (flowText_isSome _ f).mp some_text
    have flow := flowText_written none6 direction address
    refine ⟨_, fun e => ?_, _, read, same⟩
    simp only [fillPacketFltrInfoAvp, flow, getD_some]

theorem intercalate_end (delim : Char) (piece : List Char) (pieces : List (List Char)) :
    [delim].intercalate (piece :: pieces) ++ [delim] =
      [delim].intercalate (piece :: pieces ++ [[]]) := by
  induction pieces generalizing piece with
  | nil => simp [List.intercalate]
  | cons next pieces ih =>
    have rest := ih next
    simp only [List.intercalate, cons_append, intersperse_cons_cons,
      flatten_cons, append_assoc] at rest ⊢
    rw [rest]

def splitPieces : RteStringEnd where
  strsplit text _ delim := (text.splitOn delim).filter (· ≠ [])
  strsplit_pieces pieces _ delim clear _ := by
    cases pieces with
    | nil => rfl
    | cons piece pieces =>
      have split := List.splitOn_intercalate delim (fun piece member => (clear piece member).2)
        (List.cons_ne_nil piece pieces)
      rw [split]
      exact List.filter_eq_self.mpr fun piece member => by simp [(clear piece member).1]
  strsplit_end pieces _ delim clear _ := by
    cases pieces with
    | nil =>
      have whole : ∀ p ∈ [([] : List Char), []], delim ∉ p := by simp
      have split := List.splitOn_intercalate delim whole (by simp)
      rw [show [delim].intercalate [] ++ [delim] = [delim].intercalate [[], []] from rfl, split]
      rfl
    | cons piece pieces =>
      have whole : ∀ p ∈ piece :: pieces ++ [[]], delim ∉ p := by
        intro p member
        rcases List.mem_append.mp member with inside | last
        · exact (clear p inside).2
        · rw [List.mem_singleton.mp last]
          exact List.not_mem_nil
      have kept : (piece :: pieces).filter (· ≠ []) = piece :: pieces :=
        List.filter_eq_self.mpr fun p member => by simp [(clear p member).1]
      rw [intercalate_end, List.splitOn_intercalate delim whole (by simp), List.filter_append, kept]
      exact List.append_nil _

def dnsReplies : PacketFilter where
  identifier := 1
  direction := 1
  precedence := 10
  components := [.ipv4Remote #v[8, 8, 8, 8] #v[255, 255, 255, 255], .remotePort 53]
  distinct := by decide

def dnsQueries : PacketFilter :=
  { dnsReplies with direction := 2 }

theorem flowReadBack_dnsQueries :
    FlowReadBack splitPieces.toRteString (parseTadPacketFilter (dnsQueries.octets ++ [])) :=
  (flowReadBack_iff splitPieces dnsQueries [] (by decide)).mpr
    ⟨by decide, by decide, by decide, Or.inl (by decide)⟩

/-- The text, and the filter read from it: the server is its local side. -/
theorem dnsReplies_sides_exchanged :
    (parseTadPacketFilter dnsReplies.octets).flowText "permit out ip from".toList =
      some "permit out ip from 8.8.8.8/32 53-53 to 0.0.0.0/0 0-0 ".toList ∧
    (∃ f, fillSdfStrctr splitPieces.toRteString
        "permit out ip from 8.8.8.8/32 53-53 to 0.0.0.0/0 0-0 ".toList SdfPktFltr.zero = some f ∧
      f.localIpv4 = (parseTadPacketFilter dnsReplies.octets).remoteSide) ∧
    ¬ FlowReadBack splitPieces.toRteString (parseTadPacketFilter dnsReplies.octets) := by
  have text : (parseTadPacketFilter dnsReplies.octets).flowText "permit out ip from".toList =
      some "permit out ip from 8.8.8.8/32 53-53 to 0.0.0.0/0 0-0 ".toList := by decide +kernel
  have words : "permit out ip from 8.8.8.8/32 53-53 to 0.0.0.0/0 0-0 ".toList =
      [' '].intercalate
        (flowWords dnsReplies.decoded.remoteSide dnsReplies.decoded.localSide) ++ [' '] := by
    decide +kernel
  have remote : dnsReplies.decoded.remoteSide.FourOctets := rfl
  have loc : dnsReplies.decoded.localSide.FourOctets := rfl
  have read := fillSdfStrctr_flow splitPieces remote loc
  refine ⟨text, ⟨_, read, by decide⟩, ?_⟩
  rintro ⟨written, content, f, reads, same⟩
  obtain rfl := some.inj (text.symm.trans (content_of_flowText content))
  obtain rfl := some.inj (read.symm.trans reads)
  exact absurd same.localSide (by decide)

end Epc.Cp
