import Epc.Up.Filters

/-! What `swap_src_dst_ip` does to the rule that `parse_cb_ipv4vlan_rule` reads (`dp/up_acl.c`). -/

namespace Epc.Up.Filters

open Epc.Lib.Text List Option

variable {str token rest src dst : List Char} {tokens : List (List Char)} {rule : Ipv4Rule} {n : Nat}

theorem strtok_newline (next : strtok blank str = some (token, rest)) :
    ∃ rest', strtok blank (str ++ ['\n']) = some (token, rest') ∧ (rest' = rest ∨ rest' = rest ++ ['\n']) := by
  obtain ⟨lead, tail, rfl, skipped, some_char, inside, end_ | ⟨d, stop, rfl⟩⟩ := strtok_split next
  · obtain ⟨rfl, rfl⟩ := end_
    refine ⟨[], ?_, .inl rfl⟩
    rw [append_assoc, strtok_lead skipped, append_nil]
    exact strtok_append some_char inside rfl []
  · refine ⟨rest ++ ['\n'], ?_, .inr rfl⟩
    rw [append_assoc, strtok_lead skipped, append_assoc, cons_append]
    exact strtok_append some_char inside stop _

theorem cbFields_succ (fields : cbFields (n + 1) str = some tokens) :
    ∃ token rest more, strtok blank str = some (token, rest) ∧ cbFields n rest = some more ∧
      tokens = token :: more := by
  obtain ⟨⟨token, rest⟩, next, fields⟩ := bind_eq_some_iff.mp fields
  obtain ⟨more, later, same⟩ := bind_eq_some_iff.mp fields
  exact ⟨token, rest, more, next, later, (some.inj same).symm⟩

theorem cbFields_of_strtok (next : strtok blank str = some (token, rest))
    (later : cbFields n rest = some tokens) : cbFields (n + 1) str = some (token :: tokens) := by
  change (strtok blank str).bind _ = _
  rw [next, bind_some]
  change (cbFields n rest).bind _ = _
  rw [later]
  rfl

theorem cbFields_newline (fields : cbFields n str = some tokens) :
    cbFields n (str ++ ['\n']) = some tokens := by
  induction n generalizing str tokens with
  | zero => exact fields
  | succ n ih =>
    obtain ⟨token, rest, more, next, later, rfl⟩ := cbFields_succ fields
    obtain ⟨rest', next', same | longer⟩ := strtok_newline next
    · exact cbFields_of_strtok next' (same ▸ later)
    · exact cbFields_of_strtok next' (longer ▸ ih later)

theorem take_newline (front : List Char) (fits : front.length < maxLen) :
    (front ++ ['\n']).take (maxLen - 1) = front ∨ (front ++ ['\n']).take (maxLen - 1) = front ++ ['\n'] := by
  rcases Nat.lt_or_ge front.length (maxLen - 1) with short | full
  · exact .inr (take_of_length_le (by simpa using short))
  · exact .inl (take_left' (by omega))

theorem cbFields_swapSrcDstIp (short : str.length < maxLen)
    (fields : cbFields (n + 3) str = some (src :: dst :: tokens)) :
    ∃ swapped, swapSrcDstIp str = .ok swapped ∧ swapped.length < maxLen ∧
      cbFields (n + 3) swapped = some (dst :: src :: tokens) := by
  obtain ⟨_, rest, _, first, fields, same⟩ := cbFields_succ fields
  cases same
  obtain ⟨_, sp, _, second, fields, same⟩ := cbFields_succ fields
  cases same
  obtain ⟨_, _, _, third, -, -⟩ := cbFields_succ fields
  have ended {s : List Char} {r} (next : strtok blank s = some r) : s ≠ [] := by
    rintro rfl
    cases next
  have := strtok_length first (ended second)
  have := strtok_length second (ended third)
  obtain ⟨_, _, -, -, src_some, src_clear, -⟩ := strtok_split first
  obtain ⟨_, _, -, -, dst_some, dst_clear, -⟩ := strtok_split second
  have swapped : swapSrcDstIp str =
      .ok (((dst ++ ' ' :: (src ++ ' ' :: sp)) ++ ['\n']).take (maxLen - 1)) := by
    simp [swapSrcDstIp, first, second]
  have read {last : List Char} (fields : cbFields (n + 1) last = some tokens) :
      cbFields (n + 3) (dst ++ ' ' :: (src ++ ' ' :: last)) = some (dst :: src :: tokens) :=
    cbFields_of_strtok (strtok_append dst_some dst_clear rfl _)
      (cbFields_of_strtok (strtok_append src_some src_clear rfl _) fields)
  refine ⟨_, swapped, (length_take_le _ _).trans_lt (by decide), ?_⟩
  have fits : (dst ++ ' ' :: (src ++ ' ' :: sp)).length < maxLen := by
    simp only [length_append, length_cons]
    omega
  rcases take_newline _ fits with cut | whole
  · rw [cut]
    exact read fields
  · rw [whole]
    simpa using read (cbFields_newline fields)

/-- The rule with the addresses exchanged. -/
def crossed (rule : Ipv4Rule) : Ipv4Rule :=
  { rule with
    src := rule.dst, srcMaskLen := rule.dstMaskLen, dst := rule.src, dstMaskLen := rule.srcMaskLen }

/-- The rule with source and destination exchanged. -/
def exchanged (rule : Ipv4Rule) : Ipv4Rule :=
  { crossed rule with
    srcPortLow := rule.dstPortLow, srcPortHigh := rule.dstPortHigh
    dstPortLow := rule.srcPortLow, dstPortHigh := rule.srcPortHigh }

theorem parse_crossed {str' : List Char} (fields : cbFields 9 str = some (src :: dst :: tokens))
    (fields' : cbFields 9 str' = some (dst :: src :: tokens))
    (parsed : parseCbIpv4vlanRule str = some rule) : parseCbIpv4vlanRule str' = some (crossed rule) := by
  obtain ⟨fields₁, is, parsed⟩ := bind_eq_some_iff.mp parsed
  rw [fields] at is
  cases is
  split at parsed
  · next shape =>
    cases shape
    obtain ⟨⟨src, srcMaskLen⟩, srcNet, parsed⟩ := bind_eq_some_iff.mp parsed
    obtain ⟨⟨dst, dstMaskLen⟩, dstNet, parsed⟩ := bind_eq_some_iff.mp parsed
    obtain ⟨⟨srcPortLow, srcPortHigh⟩, srcPorts, parsed⟩ := bind_eq_some_iff.mp parsed
    obtain ⟨srcDlm, parsed⟩ := ite_none_left_eq_some.mp parsed
    obtain ⟨⟨dstPortLow, dstPortHigh⟩, dstPorts, parsed⟩ := bind_eq_some_iff.mp parsed
    obtain ⟨dstDlm, parsed⟩ := ite_none_left_eq_some.mp parsed
    obtain ⟨ordered, parsed⟩ := ite_none_left_eq_some.mp parsed
    obtain ⟨⟨value, rest⟩, proto, parsed⟩ := bind_eq_some_iff.mp parsed
    obtain ⟨⟨mask, rest'⟩, protoMask, parsed⟩ := bind_eq_some_iff.mp parsed
    cases parsed
    simp only [parseCbIpv4vlanRule, fields', srcNet, dstNet, srcPorts, dstPorts, proto, protoMask,
      if_neg srcDlm, if_neg dstDlm, if_neg ordered, bind_eq_bind, bind_some]
    rfl
  · cases parsed

theorem crossed_eq_exchanged_iff :
    crossed rule = exchanged rule ↔
      rule.srcPortLow = rule.dstPortLow ∧ rule.srcPortHigh = rule.dstPortHigh := by
  simp only [crossed, exchanged, Ipv4Rule.mk.injEq, true_and, eq_comm (a := rule.dstPortLow),
    eq_comm (a := rule.dstPortHigh)]
  tauto

theorem parse_swapSrcDstIp (short : str.length < maxLen) (parsed : parseCbIpv4vlanRule str = some rule) :
    ∃ swapped, swapSrcDstIp str = .ok swapped ∧ swapped.length < maxLen ∧
      parseCbIpv4vlanRule swapped = some (crossed rule) := by
  obtain ⟨fields, read, -⟩ := bind_eq_some_iff.mp parsed
  obtain ⟨src, rest, more, first, later, rfl⟩ := cbFields_succ read
  obtain ⟨dst, sp, tokens, -, -, rfl⟩ := cbFields_succ later
  obtain ⟨swapped, is, short', read'⟩ := cbFields_swapSrcDstIp short read
  exact ⟨swapped, is, short', parse_crossed read read' parsed⟩

/-- Swapping exchanges source and destination exactly if both sides have the same ports. -/
theorem swap_exchanges_iff (short : str.length < maxLen) (parsed : parseCbIpv4vlanRule str = some rule) :
    (∃ swapped, swapSrcDstIp str = .ok swapped ∧ parseCbIpv4vlanRule swapped = some (exchanged rule) ∧
        ∃ twice, swapSrcDstIp swapped = .ok twice ∧ parseCbIpv4vlanRule twice = some rule) ↔
      rule.srcPortLow = rule.dstPortLow ∧ rule.srcPortHigh = rule.dstPortHigh := by
  obtain ⟨swapped, is, short', once⟩ := parse_swapSrcDstIp short parsed
  obtain ⟨twice, is', -, again⟩ := parse_swapSrcDstIp short' once
  rw [← crossed_eq_exchanged_iff]
  constructor
  · rintro ⟨swapped', is'', exchanges, -⟩
    rw [is] at is''
    cases is''
    rw [once] at exchanges
    exact some.inj exchanges
  · intro same
    exact ⟨swapped, is, once.trans (congrArg some same), twice, is', again⟩

def sdfRule (srcPorts : String) : List Char :=
  ("10.0.0.1/32 8.8.8.8/24 " ++ srcPorts ++ " 0 : 65535 17/0xff").toList

theorem swap_exchanges_anyPort :
    ∃ swapped, swapSrcDstIp (sdfRule "0 : 65535") = .ok swapped ∧
      parseCbIpv4vlanRule swapped = some (exchanged ⟨17, 255, 0x0a000001, 32, 0x08080808, 24, 0, 65535, 0, 65535⟩) ∧
      ∃ twice, swapSrcDstIp swapped = .ok twice ∧
        parseCbIpv4vlanRule twice = some ⟨17, 255, 0x0a000001, 32, 0x08080808, 24, 0, 65535, 0, 65535⟩ :=
  (swap_exchanges_iff (by decide +kernel) (by decide +kernel)).mpr ⟨rfl, rfl⟩

/-- The ports stay with the other address. -/
theorem swapped_ports_stay :
    (parseCbIpv4vlanRule (sdfRule "53 : 53")).map exchanged ≠ none ∧
      (swapSrcDstIp (sdfRule "53 : 53")).map parseCbIpv4vlanRule ≠
        .ok ((parseCbIpv4vlanRule (sdfRule "53 : 53")).map exchanged) := by
  decide +kernel

end Epc.Up.Filters
