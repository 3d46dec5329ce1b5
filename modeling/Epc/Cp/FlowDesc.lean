import Epc.Lib.Inet

/-! Flow descriptions on the control plane: `fill_sdf_strctr` (`pfcp_messages/pfcp_gx.c`) reads an
IPFilterRule, `sdf_pkt_filter_to_string` (`pfcp_messages/pfcp_session.c`) writes it for the user plane.
What they make of a well-formed IPv4 filter rule. -/

namespace Epc.Cp

open Epc.Lib.Text Epc.Lib.Inet List

/-- `rte_strsplit`: non-empty pieces between delimiters, not more than asked for. -/
structure RteString where
  strsplit : List Char → Nat → Char → List (List Char)
  strsplit_pieces : ∀ (pieces : List (List Char)) (maxTokens : Nat) (delim : Char),
    (∀ piece ∈ pieces, piece ≠ [] ∧ delim ∉ piece) → pieces.length ≤ maxTokens →
      strsplit ([delim].intercalate pieces) maxTokens delim = pieces

/-- `sdf_pkt_fltr`; the unions of the addresses are their sixteen octets. -/
structure SdfPktFltr where
  protoId : UInt8 := 0
  v4 : UInt8 := 0
  v6 : UInt8 := 0
  protoMask : UInt8 := 0
  direction : UInt8 := 0
  action : UInt8 := 0
  localIpMask : UInt8 := 0
  remoteIpMask : UInt8 := 0
  localPortLow : UInt16 := 0
  localPortHigh : UInt16 := 0
  remotePortLow : UInt16 := 0
  remotePortHigh : UInt16 := 0
  ulocalip : List UInt8 := List.replicate 16 0
  uremoteip : List UInt8 := List.replicate 16 0
  deriving DecidableEq, Repr

def SdfPktFltr.zero : SdfPktFltr := {}

structure SdfAddress where
  ip : List UInt8
  mask : UInt8
  v4 : UInt8
  v6 : UInt8

section

variable (str : RteString)

def numVals : Nat := 16

/-- The address of a token by its family; a text that is no address leaves the octets. -/
def fillIp (text : List Char) (mask : UInt8) (addr : SdfAddress) : SdfAddress :=
  if ':' ∈ text then
    { addr with ip := (inetPton6 text).getD addr.ip, mask, v6 := 1 }
  else if '.' ∈ text then
    { addr with
      ip := match inetPton4 text with
        | some octets => octets ++ addr.ip.drop 4
        | none => addr.ip
      mask, v4 := 1 }
  else addr

/-- An address token; none where the mask is read from a piece that is not there. -/
def fillAddress (fld : List Char) (addr : SdfAddress) : Option SdfAddress :=
  if fld = "any".toList then some addr
  else if '/' ∈ fld then
    match str.strsplit fld 2 '/' with
    | [ip, mask] => some (fillIp ip (UInt8.ofInt (atoi mask)) addr)
    | _ => none
  else some (fillIp fld addr.mask addr)

def fillPorts (fld : List Char) : Option (UInt16 × UInt16) :=
  if '-' ∈ fld then
    match str.strsplit fld 2 '-' with
    | [low, high] => some (UInt16.ofInt (atoi low), UInt16.ofInt (atoi high))
    | _ => none
  else some (UInt16.ofInt (atoi fld), UInt16.ofInt (atoi fld))

/-- The effect of the token `fld` at `indx` on the filter and the offset; none for an error. -/
def fillToken (s : SdfPktFltr × Nat) (token : List Char × Nat) : Option (SdfPktFltr × Nat) :=
  let (f, offset) := s
  let (fld, indx) := token
  if indx = 0 then
    if fld = "permit".toList then some s else none
  else if indx = 2 then
    some ({ f with protoId := UInt8.ofInt (atoi fld) }, offset)
  else if indx = 4 then
    (fillAddress str fld { ip := f.ulocalip, mask := f.localIpMask, v4 := f.v4, v6 := f.v6 }).map
      fun addr =>
        ({ f with ulocalip := addr.ip, localIpMask := addr.mask, v4 := addr.v4, v6 := addr.v6 },
          offset)
  else if indx = 5 then
    if fld = "to".toList then some (f, offset + 1)
    else
      (fillPorts str fld).map fun ports =>
        ({ f with localPortLow := ports.1, localPortHigh := ports.2 }, offset)
  else if indx + offset = 7 then
    (fillAddress str fld
      { ip := f.uremoteip, mask := f.remoteIpMask, v4 := f.v4, v6 := f.v6 }).map
      fun addr =>
        ({ f with uremoteip := addr.ip, remoteIpMask := addr.mask, v4 := addr.v4, v6 := addr.v6 },
          offset)
  else if indx + offset = 8 then
    (fillPorts str fld).map fun ports =>
      ({ f with remotePortLow := ports.1, remotePortHigh := ports.2 }, offset)
  else some s

def fillSdfStrctr (text : List Char) (pktFilter : SdfPktFltr) : Option SdfPktFltr :=
  let flds := str.strsplit text numVals ' '
  if numVals < flds.length then none
  else (flds.zipIdx.foldlM (fillToken str) (pktFilter, 0)).map Prod.fst

end

def tftDirectionDownlinkOnly : UInt8 := 1
def tftDirectionUplinkOnly : UInt8 := 2
def tftDirectionBidirectional : UInt8 := 3

def maxLen : Nat := 128
def defaultIpv6Mask : UInt8 := 128

/-- The mask `sdf_pkt_filter_to_string` uses for an IPv6 address. -/
def ipv6Mask (mask : UInt8) : UInt8 :=
  if mask = 0 ∨ defaultIpv6Mask < mask then defaultIpv6Mask else mask

/-- `sdf_pkt_filter_to_string`: what is written to `sdf_str`, or what was there. -/
def sdfPktFilterToString (f : SdfPktFltr) (sdfStr : List Char) (direction : UInt8) : List Char :=
  let net (ip : List Char) (mask : UInt8) : List Char := ip ++ '/' :: decimal mask.toNat
  let ports (low high : UInt16) : List Char :=
    decimal low.toNat ++ " : ".toList ++ decimal high.toNat
  let proto := hexadecimal f.protoId.toNat ++ '/' :: hexadecimal f.protoMask.toNat
  if direction = tftDirectionDownlinkOnly ∨ direction = tftDirectionUplinkOnly then
    if f.v4 ≠ 0 then
      ([' '].intercalate
        [net (inetNtoa (f.ulocalip.take 4)) f.localIpMask,
          net (inetNtoa (f.uremoteip.take 4)) f.remoteIpMask,
          ports f.localPortLow f.localPortHigh, ports f.remotePortLow f.remotePortHigh,
          proto]).take (maxLen - 1)
    else if f.v6 ≠ 0 then
      ([' '].intercalate
        [net (inetNtop6 f.ulocalip) (ipv6Mask f.localIpMask),
          net (inetNtop6 f.uremoteip) (ipv6Mask f.remoteIpMask), proto]).take (maxLen - 1)
    else sdfStr
  else sdfStr

structure RuleNet where
  a : UInt8
  b : UInt8
  c : UInt8
  d : UInt8
  maskLen : Option (Fin 33)
  deriving DecidableEq, Repr

inductive RulePorts where
  | any
  | one (port : UInt16)
  | span (low high : UInt16) (ordered : low ≤ high)
  deriving DecidableEq, Repr

/-- `permit out <proto|ip> from A[/m] [p[-q]] to B[/n] [r[-s]]`. -/
structure FilterRule where
  proto : Option UInt8
  src : RuleNet
  srcPorts : RulePorts
  dst : RuleNet
  dstPorts : RulePorts
  deriving DecidableEq, Repr

def RuleNet.octets (net : RuleNet) : List UInt8 :=
  [net.a, net.b, net.c, net.d]

def RuleNet.text (net : RuleNet) : List Char :=
  match net.maskLen with
  | none => inetNtoa net.octets
  | some m => inetNtoa net.octets ++ '/' :: decimal m

def RulePorts.words : RulePorts → List (List Char)
  | .any => []
  | .one port => [decimal port.toNat]
  | .span low high _ => [decimal low.toNat ++ '-' :: decimal high.toNat]

def FilterRule.protoWord (rule : FilterRule) : List Char :=
  match rule.proto with
  | none => "ip".toList
  | some proto => decimal proto.toNat

def FilterRule.words (rule : FilterRule) : List (List Char) :=
  ["permit".toList, "out".toList, rule.protoWord, "from".toList, rule.src.text] ++
    rule.srcPorts.words ++ ["to".toList, rule.dst.text] ++ rule.dstPorts.words

def FilterRule.text (rule : FilterRule) : List Char :=
  [' '].intercalate rule.words

def RulePorts.bounds : RulePorts → UInt16 × UInt16
  | .any => (0, 0)
  | .one port => (port, port)
  | .span low high _ => (low, high)

def RuleNet.storedMask (net : RuleNet) : UInt8 :=
  match net.maskLen with
  | none => 0
  | some m => UInt8.ofNat m

def FilterRule.filter (rule : FilterRule) : SdfPktFltr where
  protoId := rule.proto.getD 0
  v4 := 1
  v6 := 0
  protoMask := 0
  direction := 0
  localIpMask := rule.src.storedMask
  remoteIpMask := rule.dst.storedMask
  localPortLow := rule.srcPorts.bounds.1
  localPortHigh := rule.srcPorts.bounds.2
  remotePortLow := rule.dstPorts.bounds.1
  remotePortHigh := rule.dstPorts.bounds.2
  ulocalip := rule.src.octets ++ List.replicate 12 0
  uremoteip := rule.dst.octets ++ List.replicate 12 0

theorem inetNtoa_octets (net : RuleNet) :
    inetNtoa net.octets = decimal net.a.toNat ++ '.' :: (decimal net.b.toNat ++ '.' ::
      (decimal net.c.toNat ++ '.' :: decimal net.d.toNat)) := by
  simp [inetNtoa, RuleNet.octets, List.intercalate]

theorem notMem_inetNtoa {c : Char} (noDigit : c.isDigit = false) (noDot : c ≠ '.')
    (net : RuleNet) : c ∉ inetNtoa net.octets := by
  rw [inetNtoa_octets]
  simp [notMem_decimal noDigit, noDot]

theorem dot_mem_inetNtoa (net : RuleNet) : '.' ∈ inetNtoa net.octets := by
  rw [inetNtoa_octets]
  simp

theorem inetNtoa_ne_nil (net : RuleNet) : inetNtoa net.octets ≠ [] :=
  ne_nil_of_mem (dot_mem_inetNtoa net)

section

variable (str : RteString)

theorem strsplit_pair {delim : Char} {first second : List Char} (some_first : first ≠ [])
    (some_second : second ≠ []) (first_clear : delim ∉ first) (second_clear : delim ∉ second) :
    str.strsplit (first ++ delim :: second) 2 delim = [first, second] := by
  have pieces := str.strsplit_pieces [first, second] 2 delim (by
    intro piece mem
    rcases mem_pair.mp mem with rfl | rfl
    · exact ⟨some_first, first_clear⟩
    · exact ⟨some_second, second_clear⟩) le_rfl
  rwa [show [delim].intercalate [first, second] = first ++ delim :: second by
    simp [List.intercalate]] at pieces

theorem fillIp_octets (net : RuleNet) (mask : UInt8) (addr : SdfAddress) :
    fillIp (inetNtoa net.octets) mask addr =
      { addr with ip := net.octets ++ addr.ip.drop 4, mask, v4 := 1 } := by
  rw [fillIp, if_neg (notMem_inetNtoa (by decide) (by decide) net), if_pos (dot_mem_inetNtoa net),
    RuleNet.octets, inetPton4_inetNtoa]

theorem ofInt_atoi_decimal8 (n : UInt8) : UInt8.ofInt (atoi (decimal n.toNat)) = n := by
  rw [atoi_decimal (n.toNat_lt.trans (by decide)), ofInt_toNat_uint8]

theorem fillAddress_masked (net : RuleNet) (mask : UInt8) (addr : SdfAddress) :
    fillAddress str (inetNtoa net.octets ++ '/' :: decimal mask.toNat) addr =
      some { addr with ip := net.octets ++ addr.ip.drop 4, mask, v4 := 1 } := by
  have dot : '.' ∈ inetNtoa net.octets ++ '/' :: decimal mask.toNat :=
    mem_append_left _ (dot_mem_inetNtoa net)
  have named : inetNtoa net.octets ++ '/' :: decimal mask.toNat ≠ "any".toList := by
    intro any
    rw [any] at dot
    exact absurd dot (by decide)
  have clear := notMem_inetNtoa (c := '/') (by decide) (by decide) net
  rw [fillAddress, if_neg named, if_pos (by simp), strsplit_pair str (inetNtoa_ne_nil net)
    (decimal_ne_nil _) clear (notMem_decimal (by decide) _)]
  dsimp only
  rw [fillIp_octets, ofInt_atoi_decimal8]

theorem fillAddress_text (net : RuleNet) {addr : SdfAddress} (unset : addr.mask = 0) :
    fillAddress str net.text addr =
      some { addr with ip := net.octets ++ addr.ip.drop 4, mask := net.storedMask, v4 := 1 } := by
  unfold RuleNet.text RuleNet.storedMask
  cases net.maskLen with
  | none =>
    have named : inetNtoa net.octets ≠ "any".toList := by
      intro any
      have dot := dot_mem_inetNtoa net
      rw [any] at dot
      exact absurd dot (by decide)
    rw [fillAddress, if_neg named, if_neg (notMem_inetNtoa (by decide) (by decide) net),
      fillIp_octets, unset]
  | some m =>
    have printed : decimal m = decimal (UInt8.ofNat m).toNat := by
      rw [UInt8.toNat_ofNat_of_lt' (m.isLt.trans (by decide))]
    dsimp only
    rw [printed, fillAddress_masked]

theorem ofInt_atoi_decimal16 (n : UInt16) : UInt16.ofInt (atoi (decimal n.toNat)) = n := by
  rw [atoi_decimal (n.toNat_lt.trans (by decide)), ofInt_toNat_uint16]

theorem fillPorts_span (low high : UInt16) :
    fillPorts str (decimal low.toNat ++ '-' :: decimal high.toNat) = some (low, high) := by
  rw [fillPorts, if_pos (by simp), strsplit_pair str (decimal_ne_nil _) (decimal_ne_nil _)
    (notMem_decimal (by decide) _) (notMem_decimal (by decide) _)]
  dsimp only
  rw [ofInt_atoi_decimal16, ofInt_atoi_decimal16]

theorem fillPorts_words {ports : RulePorts} {word : List Char} (only : ports.words = [word]) :
    fillPorts str word = some ports.bounds := by
  cases ports with
  | any => cases only
  | one port =>
    obtain rfl := (List.cons.inj only).1
    rw [fillPorts, if_neg (notMem_decimal (by decide) _), ofInt_atoi_decimal16]
    rfl
  | span low high ordered =>
    obtain rfl := (List.cons.inj only).1
    exact fillPorts_span str low high

theorem ofInt_atoi_protoWord (rule : FilterRule) :
    UInt8.ofInt (atoi rule.protoWord) = rule.proto.getD 0 := by
  unfold FilterRule.protoWord
  cases rule.proto with
  | none => decide
  | some proto =>
    rw [ofInt_atoi_decimal8]
    rfl

theorem RulePorts.words_cases (ports : RulePorts) :
    ports.words = [] ∧ ports.bounds = (0, 0) ∨
      ∃ word, ports.words = [word] ∧ word ≠ ['t', 'o'] := by
  have noWord (n : Nat) (rest : List Char) : decimal n ++ rest ≠ ['t', 'o'] := by
    obtain ⟨d, bound, -, cs, printed⟩ := exists_digitChar_toDigits (by decide : 2 ≤ 10) n
    intro same
    rw [decimal, printed] at same
    have digit := isDigit_digitChar_of_lt bound
    rw [(List.cons.inj same).1] at digit
    exact absurd digit (by decide)
  cases ports with
  | any => exact Or.inl ⟨rfl, rfl⟩
  | one port =>
    have plain := noWord port.toNat []
    rw [append_nil] at plain
    exact Or.inr ⟨_, rfl, plain⟩
  | span low high ordered => exact Or.inr ⟨_, rfl, noWord _ _⟩

theorem FilterRule.words_clear (rule : FilterRule) : ∀ word ∈ rule.words, word ≠ [] ∧ ' ' ∉ word := by
  have number (n : Nat) : ' ' ∉ decimal n := notMem_decimal (by decide) n
  have net (net : RuleNet) : net.text ≠ [] ∧ ' ' ∉ net.text := by
    have clear := notMem_inetNtoa (c := ' ') (by decide) (by decide) net
    have filled := inetNtoa_ne_nil net
    unfold RuleNet.text
    cases net.maskLen <;> simp [clear, filled, number]
  have ports (ports : RulePorts) : ∀ word ∈ ports.words, word ≠ [] ∧ ' ' ∉ word := by
    cases ports <;> simp [RulePorts.words, number, decimal_ne_nil]
  have proto : rule.protoWord ≠ [] ∧ ' ' ∉ rule.protoWord := by
    unfold FilterRule.protoWord
    cases rule.proto with
    | none => decide
    | some proto => exact ⟨decimal_ne_nil _, number _⟩
  intro word mem
  simp only [FilterRule.words, mem_append, mem_cons, not_mem_nil, or_false] at mem
  rcases mem with (((rfl | rfl | rfl | rfl | rfl) | source) | rfl | rfl) | destination
  · decide
  · decide
  · exact proto
  · decide
  · exact net _
  · exact ports _ _ source
  · decide
  · exact net _
  · exact ports _ _ destination

theorem FilterRule.length_words_le (rule : FilterRule) : rule.words.length ≤ numVals := by
  have short (ports : RulePorts) : ports.words.length ≤ 1 := by
    cases ports <;> simp [RulePorts.words]
  have source := short rule.srcPorts
  have destination := short rule.dstPorts
  simp only [FilterRule.words, length_append, length_cons, length_nil, numVals]
  omega

theorem fillSdfStrctr_text (rule : FilterRule) :
    fillSdfStrctr str rule.text SdfPktFltr.zero = some rule.filter := by
  have split : str.strsplit rule.text numVals ' ' = rule.words :=
    str.strsplit_pieces _ _ _ rule.words_clear rule.length_words_le
  rw [fillSdfStrctr, split, if_neg (Nat.not_lt.mpr rule.length_words_le), FilterRule.words]
  rcases rule.srcPorts.words_cases with ⟨noSource, source⟩ | ⟨source, isSource, sourceWord⟩ <;>
  rcases rule.dstPorts.words_cases with ⟨noDest, dest⟩ | ⟨dest, isDest, -⟩
  · rw [noSource, noDest]
    simp [List.zipIdx, fillToken, ofInt_atoi_protoWord, fillAddress_text, FilterRule.filter,
      SdfPktFltr.zero, source, dest]
  · rw [noSource, isDest]
    simp [List.zipIdx, fillToken, ofInt_atoi_protoWord, fillAddress_text, FilterRule.filter,
      SdfPktFltr.zero, source, fillPorts_words str isDest]
  · rw [isSource, noDest]
    simp [List.zipIdx, fillToken, ofInt_atoi_protoWord, fillAddress_text, FilterRule.filter,
      SdfPktFltr.zero, dest, sourceWord, fillPorts_words str isSource]
  · rw [isSource, isDest]
    simp [List.zipIdx, fillToken, ofInt_atoi_protoWord, fillAddress_text, FilterRule.filter,
      SdfPktFltr.zero, sourceWord, fillPorts_words str isSource, fillPorts_words str isDest]

end

def RuleNet.printed (net : RuleNet) : List Char :=
  inetNtoa net.octets ++ '/' :: decimal net.storedMask.toNat

def FilterRule.printed (rule : FilterRule) : List (List Char) :=
  [rule.src.printed, rule.dst.printed,
    decimal rule.srcPorts.bounds.1.toNat, [':'], decimal rule.srcPorts.bounds.2.toNat,
    decimal rule.dstPorts.bounds.1.toNat, [':'], decimal rule.dstPorts.bounds.2.toNat,
    hexadecimal (rule.proto.getD 0).toNat ++ '/' :: hexadecimal 0]

theorem RuleNet.length_printed_le (net : RuleNet) : net.printed.length ≤ 19 := by
  have short (octet : UInt8) : (decimal octet.toNat).length ≤ 3 :=
    length_decimal_le (by decide) (octet.toNat_lt.trans (by decide))
  have first := short net.a
  have second := short net.b
  have third := short net.c
  have fourth := short net.d
  have mask := short net.storedMask
  rw [RuleNet.printed, inetNtoa_octets]
  simp only [length_append, length_cons]
  omega

theorem FilterRule.length_printed_lt (rule : FilterRule) :
    ([' '].intercalate rule.printed).length ≤ maxLen - 1 := by
  have short (port : UInt16) : (decimal port.toNat).length ≤ 5 :=
    length_decimal_le (by decide) (port.toNat_lt.trans (by decide))
  have source := rule.src.length_printed_le
  have destination := rule.dst.length_printed_le
  have sourceLow := short rule.srcPorts.bounds.1
  have sourceHigh := short rule.srcPorts.bounds.2
  have destLow := short rule.dstPorts.bounds.1
  have destHigh := short rule.dstPorts.bounds.2
  have proto : (Nat.toDigits 16 (rule.proto.getD 0).toNat).length ≤ 2 :=
    (Nat.length_toDigits_le_iff (by decide) (by decide)).mpr
      ((UInt8.toNat_lt _).trans_le (by decide))
  simp only [FilterRule.printed, List.intercalate, intersperse_cons_cons,
    intersperse_singleton, flatten_cons, flatten_nil, length_append,
    length_cons, length_nil, hexadecimal, maxLen, Nat.toDigits_zero]
  linarith

theorem sdfPktFilterToString_filter (rule : FilterRule) (sdfStr : List Char) :
    sdfPktFilterToString rule.filter sdfStr tftDirectionDownlinkOnly =
      [' '].intercalate rule.printed := by
  have text : [' '].intercalate rule.printed =
      [' '].intercalate [rule.src.printed, rule.dst.printed,
        decimal rule.srcPorts.bounds.1.toNat ++ " : ".toList ++
          decimal rule.srcPorts.bounds.2.toNat,
        decimal rule.dstPorts.bounds.1.toNat ++ " : ".toList ++
          decimal rule.dstPorts.bounds.2.toNat,
        hexadecimal (rule.proto.getD 0).toNat ++ '/' :: hexadecimal 0] := by
    simp [FilterRule.printed, List.intercalate]
  have fits := take_of_length_le rule.length_printed_lt
  rw [text] at fits ⊢
  exact fits

end Epc.Cp
