import Epc.Lib.Inet
import Epc.Cp.FlowDesc

/-! The IPv4 rules of the ACL tables: `parse_ipv4_net` and `parse_cb_ipv4vlan_rule` (`dp/up_acl.c`), and
what a rule accepts by the field types of `ipv4_defs`. When the rule parsed from the string of the
control plane is the one of the policy server. -/

namespace Epc.Up

open Epc.Lib.Text

/-- Value and bitmask of the protocol, value and prefix length of addresses, bounds of ports. -/
structure Ipv4Rule where
  proto : UInt8
  protoMask : UInt8
  src : UInt32
  srcMaskLen : UInt32
  dst : UInt32
  dstMaskLen : UInt32
  srcPortLow : UInt16
  srcPortHigh : UInt16
  dstPortLow : UInt16
  dstPortHigh : UInt16
  deriving DecidableEq, Repr

structure Ipv4Packet where
  proto : UInt8
  src : UInt32
  dst : UInt32
  srcPort : UInt16
  dstPort : UInt16
  deriving DecidableEq, Repr

/-- `RTE_ACL_FIELD_TYPE_MASK`: the first `len` bits agree. -/
def inPrefix (net : UInt32) (len : Nat) (addr : UInt32) : Prop :=
  addr.toNat / 2 ^ (32 - len) = net.toNat / 2 ^ (32 - len)

instance (net : UInt32) (len : Nat) (addr : UInt32) : Decidable (inPrefix net len addr) :=
  inferInstanceAs (Decidable (_ = _))

def Ipv4Rule.Accepts (r : Ipv4Rule) (p : Ipv4Packet) : Prop :=
  p.proto &&& r.protoMask = r.proto &&& r.protoMask ∧
    inPrefix r.src r.srcMaskLen.toNat p.src ∧ inPrefix r.dst r.dstMaskLen.toNat p.dst ∧
    (r.srcPortLow ≤ p.srcPort ∧ p.srcPort ≤ r.srcPortHigh) ∧
    r.dstPortLow ≤ p.dstPort ∧ p.dstPort ≤ r.dstPortHigh

instance (r : Ipv4Rule) (p : Ipv4Packet) : Decidable (r.Accepts p) :=
  inferInstanceAs (Decidable (_ ∧ _))

/-- `GET_CB_FIELD` in base zero; no delimiter stands for the end of the string. -/
def getCbField (s : List Char) (lim : Nat) (dlm : Option Char) : Option (Nat × List Char) :=
  match strtoul0 s with
  | none => none
  | some (val, rest) =>
    if rest.head? ≠ dlm ∨ lim < val then none else some (val, rest.drop 1)

def ipv4 (a b c d : Nat) : UInt32 :=
  UInt32.ofNat (a * 2 ^ 24 + b * 2 ^ 16 + c * 2 ^ 8 + d)

def parseIpv4Net (s : List Char) : Option (UInt32 × UInt32) := do
  let (a, s) ← getCbField s 255 (some '.')
  let (b, s) ← getCbField s 255 (some '.')
  let (c, s) ← getCbField s 255 (some '.')
  let (d, s) ← getCbField s 255 (some '/')
  let (m, _) ← getCbField s 32 none
  some (ipv4 a b c d, UInt32.ofNat m)

/-- A pair of port fields: zero for both stands for any port. -/
def parsePorts (low high : List Char) : Option (UInt16 × UInt16) := do
  let (low, high) :=
    if atoi low = 0 ∧ atoi high = 0 then ("0".toList, "65535".toList) else (low, high)
  let (l, _) ← getCbField low 65535 none
  let (h, _) ← getCbField high 65535 none
  some (UInt16.ofNat l, UInt16.ofNat h)

def cbPortDelim : List Char := ":".toList

/-- What separates the fields of a rule. -/
def blank (c : Char) : Bool :=
  c == ' ' || c == '\t' || c == '\n'

/-- The first `n` tokens between blanks, if there are as many. -/
def cbFields : Nat → List Char → Option (List (List Char))
  | 0, _ => some []
  | n + 1, s => do
      let (token, rest) ← strtok blank s
      let tokens ← cbFields n rest
      some (token :: tokens)

/-- `parse_cb_ipv4vlan_rule` without user data; none where it returns an error. -/
def parseCbIpv4vlanRule (str : List Char) : Option Ipv4Rule := do
  let fields ← cbFields 9 str
  match fields with
  | [srcAddr, dstAddr, srcLow, srcDlm, srcHigh, dstLow, dstDlm, dstHigh, proto] =>
    let (src, srcMaskLen) ← parseIpv4Net srcAddr
    let (dst, dstMaskLen) ← parseIpv4Net dstAddr
    let (srcPortLow, srcPortHigh) ← parsePorts srcLow srcHigh
    if srcDlm ≠ cbPortDelim then none
    else
      let (dstPortLow, dstPortHigh) ← parsePorts dstLow dstHigh
      if dstDlm ≠ cbPortDelim then none
      else if srcPortHigh < srcPortLow ∨ dstPortHigh < dstPortLow then none
      else
        let (value, rest) ← getCbField proto 255 (some '/')
        let (mask, _) ← getCbField rest 255 none
        some {
          proto := UInt8.ofNat value
          protoMask := UInt8.ofNat mask
          src, srcMaskLen, dst, dstMaskLen
          srcPortLow, srcPortHigh, dstPortLow, dstPortHigh }
  | _ => none

open Epc.Cp Epc.Lib.Inet List Option

variable {lim n : Nat}

theorem getCbField_eq {text rest : List Char} {value : Nat} {dlm : Option Char}
    (read : strtoul0 text = some (value, rest)) (ends : rest.head? = dlm) (bound : value ≤ lim) :
    getCbField text lim dlm = some (value, rest.drop 1) := by
  rw [getCbField, read]
  exact if_neg (not_or.mpr ⟨not_not.mpr ends, Nat.not_lt.mpr bound⟩)

theorem delimited_nil : Delimited [] := by
  simp [Delimited]

variable {c : Char}

theorem delimited_cons (clear : digitVal c = none ∧ c ≠ 'x' ∧ c ≠ 'X')
    (rest : List Char) : Delimited (c :: rest) := by
  rintro _ ⟨⟩
  exact clear

theorem getCbField_decimal (bound : n ≤ lim) (small : lim < 2 ^ 64)
    (clear : digitVal c = none ∧ c ≠ 'x' ∧ c ≠ 'X') (rest : List Char) :
    getCbField (decimal n ++ c :: rest) lim (some c) = some (n, rest) :=
  getCbField_eq (strtoul0_decimal (bound.trans_lt small) (delimited_cons clear rest)) rfl bound

theorem getCbField_decimal_last (bound : n ≤ lim) (small : lim < 2 ^ 64) :
    getCbField (decimal n) lim none = some (n, []) := by
  have read := strtoul0_decimal (bound.trans_lt small) delimited_nil
  rw [append_nil] at read
  exact getCbField_eq read rfl bound

theorem uint8_le (n : UInt8) : n.toNat ≤ 255 :=
  Nat.le_of_lt_succ n.toNat_lt

theorem uint16_le (n : UInt16) : n.toNat ≤ 65535 :=
  Nat.le_of_lt_succ n.toNat_lt

def netAddr (net : RuleNet) : UInt32 :=
  ipv4 net.a.toNat net.b.toNat net.c.toNat net.d.toNat

theorem storedMask_le (net : RuleNet) : net.storedMask.toNat ≤ 32 := by
  unfold RuleNet.storedMask
  cases net.maskLen with
  | none => decide
  | some m =>
    dsimp only
    rw [UInt8.toNat_ofNat_of_lt' (m.isLt.trans (by decide))]
    exact Nat.le_of_lt_succ m.isLt

theorem parseIpv4Net_printed (net : RuleNet) :
    parseIpv4Net net.printed = some (netAddr net, UInt32.ofNat net.storedMask.toNat) := by
  have octet (n : UInt8) (rest : List Char) :
      getCbField (decimal n.toNat ++ '.' :: rest) 255 (some '.') = some (n.toNat, rest) :=
    getCbField_decimal (uint8_le n) (by decide) (by decide) rest
  have lastOctet (n : UInt8) (rest : List Char) :
      getCbField (decimal n.toNat ++ '/' :: rest) 255 (some '/') = some (n.toNat, rest) :=
    getCbField_decimal (uint8_le n) (by decide) (by decide) rest
  have mask := getCbField_decimal_last (storedMask_le net) (by decide : 32 < 2 ^ 64)
  rw [RuleNet.printed, inetNtoa_octets, parseIpv4Net]
  simp only [append_assoc, cons_append, octet, lastOctet, mask, bind_eq_bind, bind_some]
  rfl

def parsedBounds (bounds : UInt16 × UInt16) : UInt16 × UInt16 :=
  if bounds.1 = 0 ∧ bounds.2 = 0 then (0, 65535) else bounds

theorem parsePorts_decimal (bounds : UInt16 × UInt16) :
    parsePorts (decimal bounds.1.toNat) (decimal bounds.2.toNat) = some (parsedBounds bounds) := by
  have zero (n : UInt16) : atoi (decimal n.toNat) = 0 ↔ n = 0 := by
    rw [atoi_decimal (n.toNat_lt.trans (by decide)), ← UInt16.toNat_inj]
    exact Int.natCast_eq_zero
  have read (n : UInt16) := getCbField_decimal_last (uint16_le n) (by decide : 65535 < 2 ^ 64)
  rw [parsePorts, parsedBounds]
  simp only [zero]
  split
  · decide
  · dsimp only
    simp only [bind_eq_bind, read, bind_some, UInt16.ofNat_toNat]

theorem cbFields_intercalate (words : List (List Char)) (filled : words ≠ [])
    (clear : ∀ word ∈ words, word ≠ [] ∧ ∀ c ∈ word, blank c = false) :
    cbFields words.length ([' '].intercalate words) = some words := by
  induction words with
  | nil => exact absurd rfl filled
  | cons word words ih =>
    obtain ⟨some_char, inside⟩ := clear word mem_cons_self
    cases words with
    | nil =>
      have last : strtok blank word = some (word, []) := strtok_last some_char inside
      rw [intercalate_singleton, length_singleton, cbFields]
      change (strtok blank word).bind _ = _
      rw [last]
      rfl
    | cons next rest =>
      have tail := ih (cons_ne_nil _ _)
        fun word mem => clear word (mem_cons_of_mem _ mem)
      have text : [' '].intercalate (word :: next :: rest) =
          word ++ ' ' :: [' '].intercalate (next :: rest) := by
        simp [List.intercalate]
      have first : strtok blank (word ++ ' ' :: [' '].intercalate (next :: rest)) =
          some (word, [' '].intercalate (next :: rest)) :=
        strtok_append some_char inside rfl _
      rw [text, length_cons, cbFields]
      change (strtok blank _).bind _ = _
      rw [first, bind_some]
      change (cbFields (next :: rest).length _).bind _ = _
      rw [tail]
      rfl

def parsedRule (rule : FilterRule) : Ipv4Rule where
  proto := rule.proto.getD 0
  protoMask := 0
  src := netAddr rule.src
  srcMaskLen := UInt32.ofNat rule.src.storedMask.toNat
  dst := netAddr rule.dst
  dstMaskLen := UInt32.ofNat rule.dst.storedMask.toNat
  srcPortLow := (parsedBounds rule.srcPorts.bounds).1
  srcPortHigh := (parsedBounds rule.srcPorts.bounds).2
  dstPortLow := (parsedBounds rule.dstPorts.bounds).1
  dstPortHigh := (parsedBounds rule.dstPorts.bounds).2

theorem blank_eq_false (digit : (digitVal c).isSome) : blank c = false := by
  rw [blank, Bool.or_eq_false_iff, Bool.or_eq_false_iff, beq_eq_false_iff_ne, beq_eq_false_iff_ne,
    beq_eq_false_iff_ne]
  refine ⟨⟨?_, ?_⟩, ?_⟩ <;> rintro rfl <;> exact absurd digit (by decide)

theorem blank_decimal (mem : c ∈ decimal n) : blank c = false :=
  blank_eq_false (digitVal_of_mem_toDigits (by decide) (by decide) mem)

theorem blank_hexadecimal (mem : c ∈ hexadecimal n) : blank c = false := by
  rcases mem_cons.mp mem with rfl | tail
  · decide
  · rcases mem_cons.mp tail with rfl | digits
    · decide
    · exact blank_eq_false (digitVal_of_mem_toDigits (by decide) (by decide) digits)

theorem printed_clear (rule : FilterRule) :
    ∀ word ∈ rule.printed, word ≠ [] ∧ ∀ c ∈ word, blank c = false := by
  have net (net : RuleNet) : net.printed ≠ [] ∧ ∀ c ∈ net.printed, blank c = false := by
    refine ⟨by simp [RuleNet.printed], fun c mem => ?_⟩
    rw [RuleNet.printed, inetNtoa_octets] at mem
    simp only [append_assoc, cons_append, mem_append, mem_cons] at mem
    rcases mem with h | rfl | h | rfl | h | rfl | h | rfl | h
    all_goals first | exact blank_decimal h | decide
  have number (n : Nat) : decimal n ≠ [] ∧ ∀ c ∈ decimal n, blank c = false :=
    ⟨decimal_ne_nil n, fun _ => blank_decimal⟩
  have proto : ∀ c ∈ hexadecimal (rule.proto.getD 0).toNat ++ '/' :: hexadecimal 0,
      blank c = false := by
    intro c mem
    rcases mem_append.mp mem with value | mask
    · exact blank_hexadecimal value
    · rcases mem_cons.mp mask with rfl | zero
      · decide
      · exact blank_hexadecimal zero
  intro word mem
  simp only [FilterRule.printed, mem_cons, not_mem_nil, or_false] at mem
  rcases mem with rfl | rfl | rfl | rfl | rfl | rfl | rfl | rfl | rfl
  · exact net _
  · exact net _
  · exact number _
  · simp [blank]
  · exact number _
  · exact number _
  · simp [blank]
  · exact number _
  · exact ⟨by simp [hexadecimal], proto⟩

theorem parsedBounds_ordered (ports : RulePorts) :
    ¬ (parsedBounds ports.bounds).2 < (parsedBounds ports.bounds).1 := by
  unfold parsedBounds
  split
  · decide
  · cases ports with
    | any => decide
    | one port => exact UInt16.lt_irrefl port
    | span low high ordered => exact UInt16.not_lt.mpr ordered

theorem parseCbIpv4vlanRule_printed (rule : FilterRule) :
    parseCbIpv4vlanRule ([' '].intercalate rule.printed) = some (parsedRule rule) := by
  have fields : cbFields 9 ([' '].intercalate rule.printed) = some rule.printed :=
    cbFields_intercalate rule.printed (cons_ne_nil _ _) (printed_clear rule)
  have value : getCbField (hexadecimal (rule.proto.getD 0).toNat ++ '/' :: hexadecimal 0) 255
      (some '/') = some ((rule.proto.getD 0).toNat, hexadecimal 0) :=
    getCbField_eq (strtoul0_hexadecimal ((uint8_le _).trans_lt (by decide))
      (delimited_cons (by decide) _)) rfl (uint8_le _)
  have mask : getCbField (hexadecimal 0) 255 none = some (0, []) := by decide
  have ordered := not_or.mpr
    ⟨parsedBounds_ordered rule.srcPorts, parsedBounds_ordered rule.dstPorts⟩
  rw [parseCbIpv4vlanRule, fields]
  simp only [FilterRule.printed, bind_eq_bind, bind_some, parseIpv4Net_printed,
    parsePorts_decimal, value, mask, if_neg ordered, UInt8.ofNat_toNat]
  rfl

section

def NetContains (net : RuleNet) (addr : UInt32) : Prop :=
  inPrefix (netAddr net) (net.maskLen.elim 32 Fin.val) addr

def PortsContain : RulePorts → UInt16 → Prop
  | .any, _ => True
  | .one p, port => port = p
  | .span low high _, port => low ≤ port ∧ port ≤ high

structure RuleMatches (rule : FilterRule) (p : Ipv4Packet) : Prop where
  proto : ∀ k, rule.proto = some k → p.proto = k
  src : NetContains rule.src p.src
  dst : NetContains rule.dst p.dst
  srcPort : PortsContain rule.srcPorts p.srcPort
  dstPort : PortsContain rule.dstPorts p.dstPort

theorem inPrefix_zero (net addr : UInt32) : inPrefix net 0 addr := by
  rw [inPrefix, Nat.div_eq_of_lt (by exact addr.toNat_lt), Nat.div_eq_of_lt (by exact net.toNat_lt)]

theorem inPrefix_thirtyTwo {net addr : UInt32} : inPrefix net 32 addr ↔ addr = net := by
  rw [inPrefix, Nat.sub_self, pow_zero, Nat.div_one, Nat.div_one, UInt32.toNat_inj]

theorem toNat_storedMask (net : RuleNet) :
    (UInt32.ofNat net.storedMask.toNat).toNat = net.maskLen.elim 0 Fin.val := by
  rw [UInt32.toNat_ofNat_of_lt' ((uint8_le _).trans_lt (by decide))]
  unfold RuleNet.storedMask
  cases net.maskLen with
  | none => rfl
  | some m => exact UInt8.toNat_ofNat_of_lt' (m.isLt.trans (by decide))

variable {net : RuleNet}

theorem inPrefix_storedMask (given : net.maskLen.isSome) (addr : UInt32) :
    inPrefix (netAddr net) (UInt32.ofNat net.storedMask.toNat).toNat addr ↔
      NetContains net addr := by
  obtain ⟨m, maskLen⟩ := isSome_iff_exists.mp given
  rw [toNat_storedMask, NetContains, maskLen]
  rfl

theorem inPrefix_of_contains {addr : UInt32} (contains : NetContains net addr) :
    inPrefix (netAddr net) (UInt32.ofNat net.storedMask.toNat).toNat addr := by
  cases given : net.maskLen with
  | none =>
    rw [toNat_storedMask, given]
    exact inPrefix_zero _ _
  | some m => exact (inPrefix_storedMask (by rw [given]; rfl) addr).mpr contains

def OnlyPortZero : RulePorts → Prop
  | .any => False
  | .one port => port = 0
  | .span _ high _ => high = 0

variable {ports : RulePorts}

theorem portsContain_iff (given : ¬ OnlyPortZero ports) (port : UInt16) :
    ((parsedBounds ports.bounds).1 ≤ port ∧ port ≤ (parsedBounds ports.bounds).2) ↔
      PortsContain ports port := by
  cases ports with
  | any => exact iff_true_intro ⟨UInt16.zero_le, UInt16.le_iff_toNat_le.mpr (uint16_le port)⟩
  | one p =>
    have kept : parsedBounds (RulePorts.one p).bounds = (p, p) := if_neg fun zero => given zero.1
    rw [kept]
    constructor
    · exact fun bounds => UInt16.le_antisymm bounds.2 bounds.1
    · rintro rfl
      exact ⟨UInt16.le_refl _, UInt16.le_refl _⟩
  | span low high ordered =>
    have kept : parsedBounds (RulePorts.span low high ordered).bounds = (low, high) :=
      if_neg fun zero => given zero.2
    rw [kept]
    rfl

theorem parsedBounds_onlyPortZero (zero : OnlyPortZero ports) :
    parsedBounds ports.bounds = (0, 65535) := by
  cases ports with
  | any => cases zero
  | one port => exact if_pos ⟨zero, zero⟩
  | span low high ordered =>
    have isZero : high = 0 := zero
    refine if_pos ⟨UInt16.le_antisymm ?_ UInt16.zero_le, zero⟩
    exact isZero ▸ ordered

theorem bounds_of_contain {port : UInt16} (contain : PortsContain ports port) :
    (parsedBounds ports.bounds).1 ≤ port ∧ port ≤ (parsedBounds ports.bounds).2 := by
  by_cases zero : OnlyPortZero ports
  · rw [parsedBounds_onlyPortZero zero]
    exact ⟨UInt16.zero_le, UInt16.le_iff_toNat_le.mpr (uint16_le port)⟩
  · exact (portsContain_iff zero port).mpr contain

def somePort : RulePorts → UInt16
  | .any => 0
  | .one port => port
  | .span low _ _ => low

theorem portsContain_somePort (ports : RulePorts) : PortsContain ports (somePort ports) := by
  cases ports with
  | any => trivial
  | one port => rfl
  | span low high ordered => exact ⟨UInt16.le_refl _, ordered⟩

def somePacket (rule : FilterRule) : Ipv4Packet where
  proto := rule.proto.getD 0
  src := netAddr rule.src
  dst := netAddr rule.dst
  srcPort := somePort rule.srcPorts
  dstPort := somePort rule.dstPorts

theorem ruleMatches_somePacket (rule : FilterRule) : RuleMatches rule (somePacket rule) where
  proto k given := by rw [somePacket, given]; rfl
  src := rfl
  dst := rfl
  srcPort := portsContain_somePort _
  dstPort := portsContain_somePort _

variable {rule : FilterRule}

theorem accepts_of_ruleMatches {p : Ipv4Packet} (matched : RuleMatches rule p) :
    (parsedRule rule).Accepts p :=
  ⟨by simp [parsedRule], inPrefix_of_contains matched.src, inPrefix_of_contains matched.dst,
    bounds_of_contain matched.srcPort, bounds_of_contain matched.dstPort⟩

/-- Any protocol, both mask lengths given, and no ports given as zero only. -/
structure MeaningKept (rule : FilterRule) : Prop where
  proto : rule.proto = none
  src : rule.src.maskLen.isSome
  dst : rule.dst.maskLen.isSome
  srcPorts : ¬ OnlyPortZero rule.srcPorts
  dstPorts : ¬ OnlyPortZero rule.dstPorts

theorem accepts_iff_of_kept (kept : MeaningKept rule) (p : Ipv4Packet) :
    (parsedRule rule).Accepts p ↔ RuleMatches rule p := by
  refine ⟨fun accepts => ?_, accepts_of_ruleMatches⟩
  obtain ⟨-, src, dst, srcPort, dstPort⟩ := accepts
  exact {
    proto := fun k given => by rw [kept.proto] at given; cases given
    src := (inPrefix_storedMask kept.src _).mp src
    dst := (inPrefix_storedMask kept.dst _).mp dst
    srcPort := (portsContain_iff kept.srcPorts _).mp srcPort
    dstPort := (portsContain_iff kept.dstPorts _).mp dstPort }

theorem maskLen_isSome_of_contains
    (exact_ : ∀ addr, inPrefix (netAddr net) (UInt32.ofNat net.storedMask.toNat).toNat addr →
      NetContains net addr) : net.maskLen.isSome := by
  cases given : net.maskLen with
  | some m => rfl
  | none =>
    have any : inPrefix (netAddr net) (UInt32.ofNat net.storedMask.toNat).toNat
        (netAddr net + 1) := by
      rw [toNat_storedMask, given]
      exact inPrefix_zero _ _
    have contained := exact_ _ any
    rw [NetContains, given] at contained
    have same : netAddr net + 1 = netAddr net := inPrefix_thirtyTwo.mp contained
    have values := congrArg UInt32.toNat same
    rw [UInt32.toNat_add] at values
    change (_ + 1) % 2 ^ 32 = _ at values
    omega

theorem not_onlyPortZero_of_contain (exact_ : ∀ port, (parsedBounds ports.bounds).1 ≤ port ∧
      port ≤ (parsedBounds ports.bounds).2 → PortsContain ports port) : ¬ OnlyPortZero ports := by
  intro zero
  have contained := exact_ 1 (by rw [parsedBounds_onlyPortZero zero]; decide)
  cases ports with
  | any => cases zero
  | one port =>
    have isZero : port = 0 := zero
    have isOne : 1 = port := contained
    rw [isZero] at isOne
    exact absurd isOne (by decide)
  | span low high ordered =>
    have isZero : high = 0 := zero
    have bound : 1 ≤ high := contained.2
    rw [isZero] at bound
    exact absurd bound (by decide)

theorem kept_of_accepts
    (same : ∀ p, (parsedRule rule).Accepts p → RuleMatches rule p) : MeaningKept rule := by
  obtain ⟨proto, src, dst, srcPort, dstPort⟩ := accepts_of_ruleMatches (ruleMatches_somePacket rule)
  constructor
  · cases given : rule.proto with
    | none => rfl
    | some k =>
      have matched := same { somePacket rule with proto := k + 1 }
        ⟨by simp [parsedRule], src, dst, srcPort, dstPort⟩
      have next : k + 1 = k := matched.proto k given
      have values := congrArg UInt8.toNat next
      rw [UInt8.toNat_add] at values
      change (_ + 1) % 2 ^ 8 = _ at values
      omega
  · exact maskLen_isSome_of_contains fun addr contained =>
      (same { somePacket rule with src := addr } ⟨proto, contained, dst, srcPort, dstPort⟩).src
  · exact maskLen_isSome_of_contains fun addr contained =>
      (same { somePacket rule with dst := addr } ⟨proto, src, contained, srcPort, dstPort⟩).dst
  · exact not_onlyPortZero_of_contain fun port contained =>
      (same { somePacket rule with srcPort := port } ⟨proto, src, dst, contained, dstPort⟩).srcPort
  · exact not_onlyPortZero_of_contain fun port contained =>
      (same { somePacket rule with dstPort := port } ⟨proto, src, dst, srcPort, contained⟩).dstPort

/-- A filter rule is filled, written and parsed, and the rule parsed accepts exactly the packets it
matches. -/
def EndToEnd (str : RteString) (rule : FilterRule) (sdfStr : List Char) : Prop :=
  ∃ f r, fillSdfStrctr str rule.text SdfPktFltr.zero = some f ∧
    parseCbIpv4vlanRule (sdfPktFilterToString f sdfStr tftDirectionDownlinkOnly) = some r ∧
    ∀ p, r.Accepts p ↔ RuleMatches rule p

theorem endToEnd_iff (str : RteString) (rule : FilterRule) (sdfStr : List Char) :
    EndToEnd str rule sdfStr ↔ MeaningKept rule := by
  have filled := fillSdfStrctr_text str rule
  have parsed : parseCbIpv4vlanRule
      (sdfPktFilterToString rule.filter sdfStr tftDirectionDownlinkOnly) =
      some (parsedRule rule) := by
    rw [sdfPktFilterToString_filter, parseCbIpv4vlanRule_printed]
  constructor
  · rintro ⟨f, r, fills, parses, same⟩
    obtain rfl := some_inj.mp (filled.symm.trans fills)
    obtain rfl := some_inj.mp (parsed.symm.trans parses)
    exact kept_of_accepts fun p => (same p).mp
  · intro kept
    exact ⟨rule.filter, parsedRule rule, filled, parsed, accepts_iff_of_kept kept⟩

def splitString : RteString where
  strsplit text _ delim := if text = [] then [] else text.splitOn delim
  strsplit_pieces pieces _ delim clear _ := by
    cases pieces with
    | nil => rfl
    | cons piece pieces =>
      have filled : [delim].intercalate (piece :: pieces) ≠ [] := by
        have some_char := (clear piece List.mem_cons_self).1
        cases pieces <;> simp [List.intercalate, some_char]
      rw [if_neg filled]
      exact List.splitOn_intercalate delim (fun piece member => (clear piece member).2)
        (List.cons_ne_nil _ _)

def udpRule : FilterRule where
  proto := some 17
  src := { a := 10, b := 0, c := 0, d := 1, maskLen := some 32 }
  srcPorts := .any
  dst := { a := 10, b := 0, c := 0, d := 2, maskLen := some 32 }
  dstPorts := .any

def tcpPacket : Ipv4Packet where
  proto := 6
  src := 0x0a000001
  dst := 0x0a000002
  srcPort := 80
  dstPort := 80

/-- The rule that the user plane makes of the rule for UDP accepts the TCP packet. -/
theorem udpRule_not_endToEnd :
    (∃ f r, fillSdfStrctr splitString udpRule.text SdfPktFltr.zero = some f ∧
      parseCbIpv4vlanRule (sdfPktFilterToString f [] tftDirectionDownlinkOnly) = some r ∧
      r.Accepts tcpPacket) ∧
    ¬ RuleMatches udpRule tcpPacket ∧ ¬ EndToEnd splitString udpRule [] := by
  refine ⟨⟨udpRule.filter, parsedRule udpRule, fillSdfStrctr_text splitString udpRule, ?_,
    by decide +kernel⟩, fun matched => ?_, fun kept => ?_⟩
  · rw [sdfPktFilterToString_filter, parseCbIpv4vlanRule_printed]
  · exact absurd (matched.proto 17 rfl) (by decide)
  · obtain ⟨f, r, fills, parses, same⟩ := kept
    obtain rfl := some_inj.mp ((fillSdfStrctr_text splitString udpRule).symm.trans fills)
    rw [sdfPktFilterToString_filter, parseCbIpv4vlanRule_printed, some_inj] at parses
    subst parses
    have matched := (same tcpPacket).mp (by decide +kernel)
    exact absurd (matched.proto 17 rfl) (by decide)

end

end Epc.Up
