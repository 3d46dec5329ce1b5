import Epc.Cp.Proof.TadFilter
import Epc.Lib.Run

/-! The walks over a traffic aggregate description: where each packet filter is read, and what the
entries of the packet filter information describe. -/

namespace Epc.Cp

open Epc.Lib List Function
open Option hiding mem_map

def tadOctets (fs : List PacketFilter) : List UInt8 :=
  (fs.map PacketFilter.octets).flatten

def filterPlace (fs : List PacketFilter) (i : Nat) : Nat :=
  (tadOctets (fs.take i)).length

def filterPlaces (fs : List PacketFilter) : List Nat :=
  (List.range fs.length).map (filterPlace fs)

section

variable {fs : List PacketFilter} {buf rest : List UInt8}

@[simp]
theorem filterPlace_zero (fs : List PacketFilter) : filterPlace fs 0 = 0 := rfl

variable {f : PacketFilter}

theorem filterPlace_succ {i : Nat} (nth : fs[i]? = some f) :
    filterPlace fs (i + 1) = filterPlace fs i + f.octets.length := by
  obtain ⟨inside, rfl⟩ := List.getElem?_eq_some_iff.mp nth
  simp only [filterPlace, tadOctets, ← take_concat_get' fs i inside, map_append,
    flatten_append, length_append, map_singleton, flatten_singleton]

theorem filterPlace_length (fs : List PacketFilter) : filterPlace fs fs.length = (tadOctets fs).length := by
  rw [filterPlace, take_length]

theorem filterPlace_le (fs : List PacketFilter) (i : Nat) : filterPlace fs i ≤ (tadOctets fs).length := by
  conv_rhs => rw [← take_append_drop i fs]
  simp only [tadOctets, map_append, flatten_append, length_append]
  exact Nat.le_add_right _ _

theorem drop_filterPlace (whole : buf = tadOctets fs ++ rest) {i : Nat} (nth : fs[i]? = some f) :
    buf.drop (filterPlace fs i) = f.octets ++ (tadOctets (fs.drop (i + 1)) ++ rest) := by
  obtain ⟨inside, rfl⟩ := List.getElem?_eq_some_iff.mp nth
  have cut : tadOctets fs =
      tadOctets (fs.take i) ++ (fs[i].octets ++ tadOctets (fs.drop (i + 1))) := by
    conv_lhs => rw [← take_append_drop i fs, drop_eq_getElem_cons inside]
    simp only [tadOctets, map_append, map_cons, flatten_append, flatten_cons]
  rw [whole, cut, filterPlace, append_assoc, drop_left, append_assoc]

theorem getD_length (whole : buf = tadOctets fs ++ rest) {i : Nat} (nth : fs[i]? = some f) :
    buf.getD (filterPlace fs i + 2) 0 = UInt8.ofNat f.content.length :=
  getD_of_drop (drop_filterPlace whole nth) 2 (by rw [f.length_octets]; omega)

end

section

variable {buf : List UInt8} {next : UInt8 → UInt8}

theorem foldl_round (buf : List UInt8) (next : UInt8 → UInt8) (w : TadWalk) (count : Nat) :
    let w' := (List.range count).foldl (TadWalk.round buf next) w
    w'.pktIndx = next^[count] w.pktIndx ∧
      w'.reads = w.reads ++ (List.range count).map (fun i => (next^[i] w.pktIndx).toNat) ∧
      ∀ idx, w'.list idx =
        if idx < count then filterEntry buf (next^[idx] w.pktIndx).toNat (w.list idx)
        else w.list idx := by
  induction count with
  | zero => simp
  | succ count ih =>
    obtain ⟨index, reads, list⟩ := ih
    simp only [range_succ, foldl_append, foldl_cons, foldl_nil, TadWalk.round]
    refine ⟨by rw [index, iterate_succ_apply'], ?_, fun idx => ?_⟩
    · rw [reads, index, map_append, append_assoc]
      rfl
    · by_cases own : idx = count
      · rw [own, update_self, index, list, if_neg (Nat.lt_irrefl _), if_pos (Nat.lt_succ_self _)]
      · have same : idx < count + 1 ↔ idx < count := by omega
        rw [update_of_ne own, list]
        simp only [same]

theorem reads_eq_places_iff (fs : List PacketFilter) :
    (List.range fs.length).map (fun i => (next^[i] 0).toNat) = filterPlaces fs ↔
      ∀ i < fs.length, (next^[i] 0).toNat = filterPlace fs i := by
  simp [filterPlaces]

variable {fs : List PacketFilter} {rest : List UInt8} (raw : Nat → GxPacketFilterInformation)

theorem forall₂_describes_iff (whole : buf = tadOctets fs ++ rest)
    {list : Nat → GxPacketFilterInformation}
    (entries : ∀ i < fs.length, list i = filterEntry buf (filterPlace fs i) (raw i)) :
    List.Forall₂ Describes ((List.range fs.length).map list) fs ↔
      (∀ f ∈ fs, f.Expressible) ∧ ∀ i < fs.length, (raw i).Clear := by
  have pointwise : List.Forall₂ Describes ((List.range fs.length).map list) fs ↔
      ∀ i (inside : i < fs.length), fs[i].Expressible ∧ (raw i).Clear := by
    rw [forall₂_iff_get]
    simp only [length_map, length_range, get_eq_getElem, getElem_map, getElem_range, true_and]
    refine forall_congr' fun i => ⟨fun all inside => ?_, fun all inside _ => ?_⟩
    · have here := drop_filterPlace whole (getElem?_eq_getElem inside)
      have describes := all inside inside
      rw [entries i inside] at describes
      exact (describes_filterEntry_iff here (raw i)).mp describes
    · have here := drop_filterPlace whole (getElem?_eq_getElem inside)
      rw [entries i inside]
      exact (describes_filterEntry_iff here (raw i)).mpr (all inside)
  rw [pointwise]
  constructor
  · refine fun all => ⟨fun f mem => ?_, fun i inside => (all i inside).2⟩
    obtain ⟨i, inside, rfl⟩ := getElem_of_mem mem
    exact (all i inside).1
  · exact fun ⟨expressible, clear⟩ i inside =>
      ⟨expressible _ (getElem_mem inside), clear i inside⟩

end

/-- A command that carries the filters of a description; `rest` follows in the buffer. -/
structure BearerRsrcCmd.Carries (cmd : BearerRsrcCmd) (fs : List PacketFilter) (rest : List UInt8) :
    Prop where
  some_filter : 1 ≤ fs.length
  few : fs.length ≤ 15
  count : (cmd.trafficAggDesc &&& 0x0f).toNat = fs.length
  octets : cmd.pktFltrBuf = tadOctets fs ++ rest

def FilterAvps.Describe (avps : FilterAvps) (fs : List PacketFilter) : Prop :=
  avps.filterReads = filterPlaces fs ∧ List.Forall₂ Describes avps.packetFilterInformation fs

/-- The filters are expressible and the memory of the list was clear. -/
structure Describable (fs : List PacketFilter) (raw : Nat → GxPacketFilterInformation) : Prop where
  expressible : ∀ f ∈ fs, f.Expressible
  clear : ∀ i < fs.length, (raw i).Clear

section

variable {fs : List PacketFilter} {buf rest : List UInt8} (raw : Nat → GxPacketFilterInformation)

section

variable (whole : buf = tadOctets fs ++ rest)

include whole

theorem assignedIndx_place {i : Nat} {f : PacketFilter}
    (nth : fs[i]? = some f) {pktIndx : UInt8} (place : pktIndx.toNat = filterPlace fs i) :
    (assignedIndx buf pktIndx).toNat = f.octets.length := by
  have bound := f.content_length_le
  rw [assignedIndx, place, getD_length whole nth, f.length_octets, UInt8.toNat_add, UInt8.toNat_ofNat']
  change (f.content.length % 256 + 3) % 256 = _
  omega

theorem assigned_places_iff :
    (∀ i < fs.length, ((assignedIndx buf)^[i] 0).toNat = filterPlace fs i) ↔ fs.length ≤ 2 := by
  have second : ∀ {f : PacketFilter}, fs[0]? = some f →
      ((assignedIndx buf)^[1] 0).toNat = filterPlace fs 1 := fun {f} first => by
    rw [filterPlace_succ first, filterPlace_zero, Nat.zero_add]
    exact assignedIndx_place whole first rfl
  constructor
  · intro places
    by_contra three
    have first := getElem?_eq_getElem (show 0 < fs.length by omega)
    have next := getElem?_eq_getElem (show 1 < fs.length by omega)
    -- The third filter is taken to start where it would without the first one.
    have reached : ((assignedIndx buf)^[2] 0).toNat = fs[1].octets.length :=
      assignedIndx_place whole next (places 1 (by omega))
    have proper := places 2 (by omega)
    rw [reached, filterPlace_succ next, filterPlace_succ first, filterPlace_zero,
      fs[0].length_octets] at proper
    omega
  · intro two i inside
    match i with
    | 0 => rfl
    | 1 => exact second (getElem?_eq_getElem (show 0 < fs.length by omega))
    | i + 2 => omega

theorem assignedWalk_describe_iff :
    ((assignedWalk buf fs.length raw).reads = filterPlaces fs ∧
      List.Forall₂ Describes ((List.range fs.length).map (assignedWalk buf fs.length raw).list) fs) ↔
      fs.length ≤ 2 ∧ Describable fs raw := by
  obtain ⟨-, reads, list⟩ := foldl_round buf (assignedIndx buf)
    { pktIndx := 0, list := raw, reads := [] } fs.length
  change (assignedWalk buf fs.length raw).reads = _ at reads
  change ∀ idx, (assignedWalk buf fs.length raw).list idx = _ at list
  rw [reads, nil_append, reads_eq_places_iff, assigned_places_iff whole]
  refine and_congr_right fun two => ?_
  have places := (assigned_places_iff whole).mpr two
  rw [forall₂_describes_iff raw whole fun i inside => by
    rw [list, if_pos inside, places i inside]]
  exact ⟨fun ⟨expressible, clear⟩ => ⟨expressible, clear⟩, fun ⟨expressible, clear⟩ =>
    ⟨expressible, clear⟩⟩

end

def TftBearer.Has (bearer : TftBearer) (fs : List PacketFilter) : Prop :=
  ∀ f ∈ fs, (checkPcktFltrIdInRule (UInt8.ofNat f.identifier) bearer).isSome = true

theorem ruleReports_isSome {bearer : TftBearer} (whole : buf = tadOctets fs ++ rest)
    (has : bearer.Has fs) {count start : Nat} (sum : start + count = fs.length) {pktIndx : UInt8}
    (places : ∀ i < count, ((assignedIndx buf)^[i] pktIndx).toNat = filterPlace fs (start + i))
    (report : List Nat) : ∃ report', ruleReports buf bearer count pktIndx report = some report' := by
  induction count generalizing start pktIndx report with
  | zero => exact ⟨report, rfl⟩
  | succ count ih =>
    have inside : start < fs.length := by omega
    have nth := getElem?_eq_getElem inside
    have place : pktIndx.toNat = filterPlace fs start := places 0 (by omega)
    have parsed : parseTadPacketFilter (buf.drop pktIndx.toNat) = fs[start].decoded := by
      rw [place, drop_filterPlace whole nth, fs[start].parse_octets]
    obtain ⟨ruleIndex, found⟩ := isSome_iff_exists.mp (has _ (getElem_mem inside))
    rw [ruleReports, parsed, fs[start].decoded_id, found, bind_some]
    refine ih (show start + 1 + count = fs.length by omega) (fun i small => ?_) _
    rw [← iterate_succ_apply, places (i + 1) (by omega), Nat.add_assoc, Nat.add_comm 1]

end

/-- Creation and replacement describe every filter at its place exactly if there are at most two,
expressible ones, and the memory of the list was clear. -/
theorem describe_iff_two (fs : List PacketFilter) (rest : List UInt8)
    (raw : Nat → GxPacketFilterInformation) (bearer : TftBearer) (cmd : BearerRsrcCmd)
    (carries : cmd.Carries fs rest) (qos : cmd.flowQos.isSome = true) (has : bearer.Has fs) :
    ((∃ avps, fillCreateNewTftAvp raw cmd = .ok avps ∧ avps.Describe fs) ↔
      fs.length ≤ 2 ∧ Describable fs raw) ∧
    ((∃ avps, fillReplaceFilterExistingTftAvp raw cmd bearer = .ok avps ∧ avps.Describe fs) ↔
      fs.length ≤ 2 ∧ Describable fs raw) := by
  have count : cmd.pktFltCnt = fs.length := carries.count
  have positive : ¬ fs.length = 0 := by
    have := carries.some_filter
    omega
  have walk := assignedWalk_describe_iff raw carries.octets
  constructor
  · obtain ⟨flowQos, present⟩ := isSome_iff_exists.mp qos
    rw [← walk, fillCreateNewTftAvp, present]
    simp only [count, if_neg positive]
    constructor
    · rintro ⟨avps, ⟨⟩, describe⟩
      exact describe
    · exact fun describe => ⟨_, rfl, describe⟩
  · rw [← walk, fillReplaceFilterExistingTftAvp, count, if_neg positive]
    constructor
    · rintro ⟨avps, filled, describe⟩
      cases looked : ruleReports cmd.pktFltrBuf bearer fs.length 0 [] with
      | none =>
        rw [looked] at filled
        cases filled
      | some report =>
        rw [looked] at filled
        cases filled
        exact describe
    · intro describe
      have places := (assigned_places_iff carries.octets).mpr (walk.mp describe).1
      obtain ⟨report, looked⟩ := ruleReports_isSome carries.octets has (Nat.zero_add _)
        (fun i inside => by rw [places i inside, Nat.zero_add]) []
      rw [looked]
      exact ⟨_, rfl, describe⟩

theorem precedences_of_describes {es : List GxPacketFilterInformation} {fs : List PacketFilter}
    (describes : List.Forall₂ Describes es fs) :
    es.map (·.precedence) = fs.map fun f => f.precedence.toUInt32 := by
  induction describes with
  | nil => rfl
  | cons head _ ih => rw [map_cons, map_cons, head.precedence, ih]

def flowFilter (identifier : Fin 16) (precedence : UInt8) : PacketFilter where
  identifier
  direction := 3
  precedence
  components :=
    [.ipv6Local (Vector.replicate 16 1) 128, .ipv6Remote (Vector.replicate 16 2) 64,
      .localPortRange 1024 2047, .remotePortRange 80 443]
  distinct := by decide

def flowFilters (count : Nat) : List PacketFilter :=
  (List.range count).map fun i => flowFilter (Fin.ofNat 16 (i + 1)) (UInt8.ofNat (10 * i))

def fullBearer : TftBearer where
  packetFilterMap := fun _ => 0
  prdefRules := []
  dynamicRules := [{
    ruleName := []
    precedence := 0
    flowDesc := (List.range 16).map fun i =>
      { pcktFltrIdentifier := UInt8.ofNat i, sdfFlwDesc := SdfPktFltr.zero } }]

/-- Carries some filters and a parameter naming the filter with identifier nine; `op` has the bit
for a parameter list. -/
def filterCommand (op : UInt8) (fs : List PacketFilter) : BearerRsrcCmd where
  headerLen := UInt16.ofNat ((tadOctets fs).length + 4)
  trafficAggDesc := op + UInt8.ofNat fs.length
  pktFltrBuf := tadOctets fs ++ [3, 1, 9]
  flowQos := some { qci := 9, guarntdBitRateUplnk := 0, guarntdBitRateDnlnk := 0 }

theorem flowFilter_expressible (identifier : Fin 16) (precedence : UInt8) :
    (flowFilter identifier precedence).Expressible :=
  ⟨(by decide : (3 : Fin 4) ≠ 0), rfl, rfl⟩

theorem flowFilters_describable (count : Nat) : Describable (flowFilters count) fun _ => clearEntry := by
  refine ⟨fun f mem => ?_, fun _ _ => ⟨by decide, rfl, rfl, rfl⟩⟩
  obtain ⟨i, -, rfl⟩ := mem_map.mp mem
  exact flowFilter_expressible _ _

theorem flowFilters_has (count : Nat) : fullBearer.Has (flowFilters count) := by
  intro f mem
  have all : ∀ id : Fin 16, (checkPcktFltrIdInRule (UInt8.ofNat id) fullBearer).isSome = true := by
    decide
  exact all _

theorem flowFilters_carries {op : UInt8} {count : Nat} (some_filter : 1 ≤ count) (few : count ≤ 15)
    (bits : ((op + UInt8.ofNat count) &&& 0x0f).toNat = count) :
    (filterCommand op (flowFilters count)).Carries (flowFilters count) [3, 1, 9] := by
  have length : (flowFilters count).length = count := by simp [flowFilters]
  refine ⟨by rwa [length], by rwa [length], ?_, rfl⟩
  simpa only [filterCommand, length] using bits

theorem describe_two_filters :
    (∃ avps, fillCreateNewTftAvp (fun _ => clearEntry) (filterCommand 32 (flowFilters 2)) =
      .ok avps ∧ avps.Describe (flowFilters 2)) ∧
    (∃ avps, fillReplaceFilterExistingTftAvp (fun _ => clearEntry)
      (filterCommand 128 (flowFilters 2)) fullBearer = .ok avps ∧ avps.Describe (flowFilters 2)) :=
  ⟨(describe_iff_two _ [3, 1, 9] _ fullBearer _
      (flowFilters_carries (by decide) (by decide) (by decide)) rfl (flowFilters_has 2)).1.mpr
      ⟨by decide, flowFilters_describable 2⟩,
    (describe_iff_two _ [3, 1, 9] _ fullBearer _
      (flowFilters_carries (by decide) (by decide) (by decide)) rfl (flowFilters_has 2)).2.mpr
      ⟨by decide, flowFilters_describable 2⟩⟩

/-- The third entry has the precedence of the second filter. -/
theorem three_filters_not_described :
    (filterCommand 32 (flowFilters 3)).Carries (flowFilters 3) [3, 1, 9] ∧
    (¬ ∃ avps, fillCreateNewTftAvp (fun _ => clearEntry) (filterCommand 32 (flowFilters 3)) =
      .ok avps ∧ List.Forall₂ Describes avps.packetFilterInformation (flowFilters 3)) ∧
    (¬ ∃ avps, fillReplaceFilterExistingTftAvp (fun _ => clearEntry)
      (filterCommand 128 (flowFilters 3)) fullBearer = .ok avps ∧
      List.Forall₂ Describes avps.packetFilterInformation (flowFilters 3)) := by
  have own : (flowFilters 3).map (fun f => f.precedence.toUInt32) = [0, 10, 20] := by decide
  refine ⟨flowFilters_carries (by decide) (by decide) (by decide), ?_, ?_⟩
  · rintro ⟨avps, filled, describes⟩
    have written : (fillCreateNewTftAvp (fun _ => clearEntry)
        (filterCommand 32 (flowFilters 3))).map
        (fun avps => avps.packetFilterInformation.map (·.precedence)) = .ok [0, 10, 10] := by
      decide +kernel
    rw [filled, Except.map, precedences_of_describes describes, own] at written
    exact absurd written (by decide)
  · rintro ⟨avps, filled, describes⟩
    have written : (fillReplaceFilterExistingTftAvp (fun _ => clearEntry)
        (filterCommand 128 (flowFilters 3)) fullBearer).map
        (fun avps => avps.packetFilterInformation.map (·.precedence)) = .ok [0, 10, 10] := by
      decide +kernel
    rw [filled, Except.map, precedences_of_describes describes, own] at written
    exact absurd written (by decide)

section

variable {fs : List PacketFilter} {buf rest : List UInt8}

theorem addedIndx_place (whole : buf = tadOctets fs ++ rest) {i : Nat} {f : PacketFilter}
    (nth : fs[i]? = some f) {pktIndx : UInt8} (place : pktIndx.toNat = filterPlace fs i)
    (room : filterPlace fs (i + 1) ≤ 255) : (addedIndx buf pktIndx).toNat = filterPlace fs (i + 1) := by
  rw [filterPlace_succ nth, f.length_octets] at room ⊢
  rw [addedIndx, place, getD_length whole nth, UInt8.toNat_add, UInt8.toNat_add, UInt8.toNat_ofNat',
    place]
  change (filterPlace fs i + (f.content.length % 256 + 3) % 256) % 256 = _
  omega

theorem added_places (whole : buf = tadOctets fs ++ rest) (room : (tadOctets fs).length ≤ 255)
    (i : Nat) (inside : i ≤ fs.length) : ((addedIndx buf)^[i] 0).toNat = filterPlace fs i := by
  induction i with
  | zero => rfl
  | succ i ih =>
    rw [iterate_succ_apply']
    exact addedIndx_place whole (getElem?_eq_getElem inside) (ih (by omega))
      (Nat.le_trans (filterPlace_le fs (i + 1)) room)

theorem foldl_filter (buf : List UInt8) (w : AddWalk) (count : Nat) :
    ((List.range count).foldl (AddWalk.filter buf) w).walk =
        (List.range count).foldl (TadWalk.round buf (addedIndx buf)) w.walk ∧
      ((List.range count).foldl (AddWalk.filter buf) w).parameterReads = w.parameterReads := by
  induction count with
  | zero => exact ⟨rfl, rfl⟩
  | succ count ih =>
    simp only [range_succ, foldl_append, foldl_cons, foldl_nil, AddWalk.filter, ih, and_self]

theorem totalDecoded_bounds (buf : List UInt8) {w : AddWalk} (start : w.totalDecoded = 1) {count : Nat}
    (few : count ≤ 15) :
    let w' := (List.range count).foldl (AddWalk.filter buf) w
    1 ≤ w'.totalDecoded.toNat ∧ w'.totalDecoded.toNat ≤ 1 + 255 * count ∧
      (1 ≤ count → w'.walk.pktIndx.toNat + 1 ≤ w'.totalDecoded.toNat) := by
  induction count with
  | zero => simp [start]
  | succ count ih =>
    obtain ⟨low, high, -⟩ := ih (by omega)
    simp only [range_succ, foldl_append, foldl_cons, foldl_nil, AddWalk.filter]
    generalize (List.range count).foldl (AddWalk.filter buf) w = w' at low high ⊢
    have octet := (w'.walk.round buf (addedIndx buf) count).pktIndx.toNat_lt
    have sum : (w'.totalDecoded + (w'.walk.round buf (addedIndx buf) count).pktIndx.toUInt16).toNat =
        w'.totalDecoded.toNat + (w'.walk.round buf (addedIndx buf) count).pktIndx.toNat := by
      rw [UInt16.toNat_add, UInt8.toNat_toUInt16]
      omega
    omega

theorem addRounds_done {count : Nat} {totalLen : UInt16} {w : AddWalk}
    (enough : ¬ w.totalDecoded < totalLen) (rounds : Nat) :
    addRounds buf count totalLen rounds w = .ok w := by
  cases rounds <;> rw [addRounds, if_neg enough]

theorem addRounds_parameterReads {count rounds : Nat} {totalLen : UInt16} {w w' : AddWalk}
    (done : addRounds buf count totalLen rounds w = .ok w') :
    w.parameterReads <+: w'.parameterReads := by
  induction rounds generalizing w with
  | zero =>
    rw [addRounds] at done
    split at done
    · cases done
    · cases done
      exact prefix_rfl
  | succ rounds ih =>
    rw [addRounds] at done
    split at done
    · obtain ⟨between, round, later⟩ := except_bind_ok done
      refine List.IsPrefix.trans ?_ (ih later)
      rw [AddWalk.round] at round
      split at round
      · cases round
      · cases round
        simp only [(foldl_filter buf w count).2]
        exact prefix_append _ _
    · cases done
      exact prefix_rfl

end

/-- A command that carries filters to add and then one parameter that names a filter. -/
structure BearerRsrcCmd.CarriesAdded (cmd : BearerRsrcCmd) (fs : List PacketFilter) (packetId : UInt8)
    (rest : List UInt8) : Prop where
  carries : cmd.Carries fs ([0x03, 0x01, packetId] ++ rest)
  parameterBit : (cmd.trafficAggDesc >>> 4) &&& 0x01 = 1
  length : cmd.headerLen.toNat = 1 + (tadOctets fs).length + 3

/-- Each filter is read once at its place, the parameter list behind the last, and the entries are
the filters and the one named. -/
structure FilterAvps.DescribeAdded (avps : FilterAvps) (fs : List PacketFilter) (packetId : UInt8) :
    Prop where
  filterReads : avps.filterReads = filterPlaces fs
  parameterReads : avps.parameterReads = [(tadOctets fs).length, (tadOctets fs).length]
  entries : ∃ entries last, avps.packetFilterInformation = entries ++ [last] ∧
    List.Forall₂ Describes entries fs ∧ Names last packetId

section

variable {fs : List PacketFilter} {buf rest : List UInt8} {packetId : UInt8}

theorem parseParameterList_parameter (packetId : UInt8) (rest : List UInt8) :
    parseParameterList ([0x03, 0x01, packetId] ++ rest) = some packetId := rfl

theorem addRounds_all (raw : Nat → GxPacketFilterInformation)
    (whole : buf = tadOctets fs ++ ([0x03, 0x01, packetId] ++ rest)) (some_filter : 1 ≤ fs.length)
    (few : fs.length ≤ 15) (room : (tadOctets fs).length ≤ 255) {totalLen : UInt16}
    (length : totalLen.toNat = 1 + (tadOctets fs).length + 3) (rounds : Nat) (reads : List Nat) :
    ∃ w, addRounds buf fs.length totalLen (rounds + 1)
        { walk := { pktIndx := 0, list := raw, reads := [] }, totalDecoded := 1,
          parameterReads := reads } = .ok w ∧
      w.walk.reads = filterPlaces fs ∧ w.parameterReads = reads ++ [(tadOctets fs).length] ∧
      (∀ i < fs.length, w.walk.list i = filterEntry buf (filterPlace fs i) (raw i)) ∧
      w.walk.list fs.length = namedEntry packetId (raw fs.length) := by
  let start : AddWalk :=
    { walk := { pktIndx := 0, list := raw, reads := [] }, totalDecoded := 1, parameterReads := reads }
  obtain ⟨walk, parameters⟩ := foldl_filter buf start fs.length
  obtain ⟨-, high, low⟩ := totalDecoded_bounds buf (show start.totalDecoded = 1 from rfl) few
  obtain ⟨index, places, list⟩ := foldl_round buf (addedIndx buf) start.walk fs.length
  have atEnd : ((addedIndx buf)^[fs.length] 0).toNat = (tadOctets fs).length := by
    rw [added_places whole room _ (Nat.le_refl _), filterPlace_length]
  simp only [walk, index] at low
  have parameter : parseParameterList (buf.drop (tadOctets fs).length) = some packetId := by
    rw [whole, drop_left, parseParameterList_parameter]
  have more : start.totalDecoded < totalLen := by
    rw [UInt16.lt_iff_toNat_lt, length]
    change 1 < _
    omega
  let after : AddWalk := {
    walk := {
      pktIndx := (addedIndx buf)^[fs.length] 0 + 3
      list := Function.update ((List.range fs.length).foldl (TadWalk.round buf (addedIndx buf))
        start.walk).list fs.length (namedEntry packetId (raw fs.length))
      reads := filterPlaces fs }
    totalDecoded := ((List.range fs.length).foldl (AddWalk.filter buf) start).totalDecoded + 3
    parameterReads := reads ++ [(tadOctets fs).length] }
  have round : start.round buf fs.length = .ok after := by
    have own := list fs.length
    rw [if_neg (Nat.lt_irrefl _)] at own
    have proper := (reads_eq_places_iff fs).mpr fun i inside =>
      added_places whole room i (Nat.le_of_lt inside)
    simp only [AddWalk.round, walk, parameters, index, places, own]
    rw [atEnd, parameter]
    simp only [start, after, proper, nil_append]
  have enough : ¬ after.totalDecoded < totalLen := by
    have reached := low some_filter
    change ((addedIndx buf)^[fs.length] 0).toNat + 1 ≤ _ at reached
    rw [UInt16.lt_iff_toNat_lt, UInt16.toNat_add, length]
    change ¬ (_ + 3) % 65536 < _
    omega
  refine ⟨after, ?_, rfl, rfl, fun i inside => ?_, update_self ..⟩
  · rw [addRounds, if_pos more, round]
    exact addRounds_done enough rounds
  · change Function.update _ _ _ i = _
    rw [update_of_ne (by omega), list, if_pos inside]
    rw [added_places whole room i (by omega)]

end

/-- The addition reads a description as meant exactly if an octet holds the filters' length, they
are expressible, and the memory of the list was clear. -/
theorem describeAdded_iff (rounds : Nat) (fs : List PacketFilter) (packetId : UInt8)
    (rest : List UInt8) (raw : Nat → GxPacketFilterInformation) (bearer : TftBearer)
    (cmd : BearerRsrcCmd) (carries : cmd.CarriesAdded fs packetId rest)
    (found : (checkPcktFltrIdInRule packetId bearer).isSome = true) :
    (∃ avps, fillAddFilterExistingTftAvp (rounds + 1) raw cmd bearer = .ok avps ∧
      avps.DescribeAdded fs packetId) ↔
      (tadOctets fs).length ≤ 255 ∧ Describable fs raw ∧ (raw fs.length).Unmarked := by
  obtain ⟨⟨some_filter, few, count, whole⟩, bit, length⟩ := carries
  replace count : cmd.pktFltCnt = fs.length := count
  have positive : ¬ fs.length = 0 := by omega
  have index : (cmd.headerLen - 4).toUInt8.toNat = (tadOctets fs).length % 256 := by
    rw [UInt16.toNat_toUInt8, UInt16.toNat_sub, length]
    change (65536 - 4 + _) % 65536 % 256 = _
    omega
  rw [fillAddFilterExistingTftAvp, if_neg (not_not.mpr bit), count, if_neg positive]
  simp only [index]
  constructor
  · rintro ⟨avps, filled, describe⟩
    -- The place where the parameter list is looked for first is an octet.
    have room : (tadOctets fs).length ≤ 255 := by
      split at filled
      · cases filled
      · obtain ⟨w, walked, filled⟩ := except_bind_ok filled
        cases filled
        obtain ⟨later, split⟩ := addRounds_parameterReads walked
        have reads := describe.parameterReads
        simp only [← split, singleton_append, List.cons.injEq] at reads
        omega
    refine ⟨room, ?_⟩
    rw [Nat.mod_eq_of_lt (by omega), whole, drop_left, parseParameterList_parameter,
      bind_some, ← whole] at filled
    obtain ⟨ruleIndex, looked⟩ := isSome_iff_exists.mp found
    rw [looked] at filled
    obtain ⟨w, walked, reads, parameters, list, last⟩ :=
      addRounds_all raw whole some_filter few room length rounds [(tadOctets fs).length]
    simp only [walked] at filled
    cases filled
    obtain ⟨entries, final, split, describes, names⟩ := describe.entries
    rw [range_succ, map_append, map_singleton] at split
    obtain ⟨rfl, same⟩ := append_inj' split rfl
    cases same
    obtain ⟨expressible, clear⟩ := (forall₂_describes_iff raw whole list).mp describes
    rw [last] at names
    exact ⟨⟨expressible, clear⟩, (names_namedEntry_iff packetId _).mp names⟩
  · rintro ⟨room, ⟨expressible, clear⟩, unmarked⟩
    obtain ⟨ruleIndex, looked⟩ := isSome_iff_exists.mp found
    obtain ⟨w, walked, reads, parameters, list, last⟩ :=
      addRounds_all raw whole some_filter few room length rounds [(tadOctets fs).length]
    have first : (parseParameterList (cmd.pktFltrBuf.drop ((tadOctets fs).length % 256))).bind
        (fun packetId => checkPcktFltrIdInRule packetId bearer) = some ruleIndex := by
      rw [Nat.mod_eq_of_lt (by omega), whole, drop_left, parseParameterList_parameter,
        bind_some, looked]
    rw [first, Nat.mod_eq_of_lt (show (tadOctets fs).length < 256 by omega)]
    simp only [walked]
    refine ⟨_, rfl, reads, parameters, _, _, by rw [range_succ, map_append]; rfl, ?_, ?_⟩
    · exact (forall₂_describes_iff raw whole list).mpr ⟨expressible, clear⟩
    · rw [last]
      exact (names_namedEntry_iff packetId _).mpr unmarked

theorem flowFilters_carriesAdded {count : Nat} (some_filter : 1 ≤ count) (few : count ≤ 15)
    (count_bits : ((112 + UInt8.ofNat count) &&& 0x0f).toNat = count)
    (parameter_bit : ((112 + UInt8.ofNat count) >>> 4) &&& 0x01 = 1) :
    (filterCommand 112 (flowFilters count)).CarriesAdded (flowFilters count) 9 [] := by
  have length : (flowFilters count).length = count := by simp [flowFilters]
  have octets : (tadOctets (flowFilters count)).length = 49 * count := by
    have each : ∀ identifier precedence, (flowFilter identifier precedence).octets.length = 49 :=
      fun _ _ => rfl
    simp [tadOctets, flowFilters, length_flatten, comp_def, each, Nat.mul_comm]
  refine ⟨flowFilters_carries some_filter few count_bits, ?_, ?_⟩
  · simpa only [filterCommand, length] using parameter_bit
  · rw [filterCommand, octets, UInt16.toNat_ofNat']
    omega

theorem describeAdded_two_filters :
    ∃ avps, fillAddFilterExistingTftAvp 1 (fun _ => clearEntry) (filterCommand 112 (flowFilters 2))
      fullBearer = .ok avps ∧ avps.DescribeAdded (flowFilters 2) 9 :=
  (describeAdded_iff 0 _ 9 [] _ fullBearer _
    (flowFilters_carriesAdded (by decide) (by decide) (by decide) (by decide)) (by decide)).mpr
    ⟨by decide, flowFilters_describable 2, ⟨rfl, rfl, rfl, rfl, rfl, rfl⟩⟩

/-- Six filters take 294 octets: the parameter list is looked for 256 octets too early. -/
theorem six_filters_refused :
    (filterCommand 112 (flowFilters 6)).CarriesAdded (flowFilters 6) 9 [] ∧
      (checkPcktFltrIdInRule 9 fullBearer).isSome = true ∧
      ∀ rounds, fillAddFilterExistingTftAvp rounds (fun _ => clearEntry)
        (filterCommand 112 (flowFilters 6)) fullBearer = .error .syntacticErrInTadOp := by
  refine ⟨flowFilters_carriesAdded (by decide) (by decide) (by decide) (by decide), by decide,
    fun rounds => ?_⟩
  have bit : ¬ ((filterCommand 112 (flowFilters 6)).trafficAggDesc >>> 4) &&& 0x01 ≠ 1 := by
    decide +kernel
  have count : ¬ (filterCommand 112 (flowFilters 6)).pktFltCnt = 0 := by decide +kernel
  have missing : parseParameterList ((filterCommand 112 (flowFilters 6)).pktFltrBuf.drop
      ((filterCommand 112 (flowFilters 6)).headerLen - 4).toUInt8.toNat) = none := by
    decide +kernel
  rw [fillAddFilterExistingTftAvp, if_neg bit, if_neg count]
  simp only [missing, bind_none]

end Epc.Cp
