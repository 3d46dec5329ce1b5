import Epc.Cp.Proof.TftFilter

/-! Traffic flow templates: identifiers, the octets of the whole template, and for which bearers it is
read back as the flow descriptions in it. -/

namespace Epc.Cp

open List Function DynamicRule
open Option hiding filter_filter map_map

section

def freeIds (map : Nat → Int) : List Nat :=
  (List.range' 1 15).filter fun i => map i == notPresent

theorem nodup_freeIds (map : Nat → Int) : (freeIds map).Nodup :=
  List.Nodup.filter _ (by decide)

theorem freeIds_update {map : Nat → Int} {id : Nat} {ids : List Nat} (free : freeIds map = id :: ids) :
    freeIds (Function.update map id present) = ids := by
  have nodup := nodup_freeIds map
  rw [free] at nodup
  have step : freeIds (Function.update map id present) = (freeIds map).filter fun i => i != id := by
    unfold freeIds
    rw [filter_filter]
    apply filter_congr
    intro i _
    by_cases same : i = id
    · subst same
      simp [present, notPresent]
    · simp [same]
  rw [step, free, filter_cons_of_neg (by simp)]
  apply filter_eq_self.mpr
  intro i mem
  have ne : i ≠ id := fun same => (nodup_cons.mp nodup).1 (same ▸ mem)
  simpa using ne

theorem getPacketFilterIdentifier_eq (map : Nat → Int) :
    getPacketFilterIdentifier map =
      (freeIds map).head?.map fun id => (id, Function.update map id present) := by
  unfold getPacketFilterIdentifier freeIds
  rw [head?_filter]
  rfl

end

namespace TftState

structure Holds (s : TftState) (octets : List UInt8) : Prop where
  length : s.i.toNat = octets.length
  cells : ∀ j (h : j < octets.length), s.epsBearerLvlTft j = octets[j]

variable {s : TftState} {octets : List UInt8}

theorem Holds.octets_eq (holds : s.Holds octets) :
    (List.range s.i.toNat).map s.epsBearerLvlTft = octets := by
  apply ext_getElem
  · simp [holds.length]
  · intro j _ h
    simp [holds.cells j h]

theorem Holds.put (holds : s.Holds octets) (octet : UInt8) (fits : octets.length + 1 ≤ 255) :
    (s.put octet).Holds (octets ++ [octet]) where
  length := by
    have one : (1 : UInt8).toNat = 1 := rfl
    simp only [TftState.put, UInt8.toNat_add, one, holds.length, length_append, length_singleton]
    omega
  cells j h := by
    simp only [length_append, length_singleton] at h
    simp only [TftState.put, holds.length]
    by_cases last : j = octets.length
    · subst last
      simp
    · rw [update_of_ne last, holds.cells j (by omega), getElem_append_left]

theorem Holds.putAll (holds : s.Holds octets) (more : List UInt8)
    (fits : octets.length + more.length ≤ 255) : (s.putAll more).Holds (octets ++ more) := by
  induction more generalizing s octets with
  | nil => simpa [TftState.putAll] using holds
  | cons octet more ih =>
    simp only [length_cons] at fits
    have step := ih (holds.put octet (by omega)) (by
      simp only [length_append, length_singleton]
      omega)
    rw [append_assoc] at step
    exact step

theorem Holds.set {before after : List UInt8} {old index : UInt8}
    (holds : s.Holds (before ++ old :: after)) (here : index.toNat = before.length)
    (octet : UInt8) : (s.set index octet).Holds (before ++ octet :: after) where
  length := by
    have length := holds.length
    simp only [length_append, length_cons] at length ⊢
    exact length
  cells j h := by
    have old_cell := holds.cells j (by simpa using h)
    simp only [TftState.set, here]
    by_cases same : j = before.length
    · subst same
      simp
    · rw [update_of_ne same, old_cell]
      simp only [getElem_append, getElem_cons]
      split
      · rfl
      · rw [dif_neg (by omega), dif_neg (by omega)]

theorem putAll_i (more : List UInt8) : (s.putAll more).i = s.i + UInt8.ofNat more.length := by
  induction more generalizing s with
  | nil => simp [putAll]
  | cons octet more ih =>
    have step := ih (s := s.put octet)
    simp only [putAll, foldl_cons, length_cons] at step ⊢
    rw [step, UInt8.ofNat_add, put, UInt8.add_assoc, UInt8.add_comm 1]
    rfl

@[simp] theorem putAll_map (more : List UInt8) : (s.putAll more).map = s.map := by
  induction more generalizing s with
  | nil => rfl
  | cons octet more ih => exact ih (s := s.put octet)

end TftState

section

abbrev TftEntry := UInt32 × FlowDesc

def DynamicRule.entries (op : TftOp) (ruleName : Option (List Char)) (rules : List DynamicRule) :
    List TftEntry :=
  (rules.filter (·.included op ruleName)).flatMap fun rule =>
    rule.flowDesc.map fun d => (rule.precedence, d)

def TftBearer.entries (bearer : TftBearer) (op : TftOp) (ruleName : Option (List Char)) :
    List TftEntry :=
  DynamicRule.entries op ruleName bearer.prdefRules ++
    DynamicRule.entries op ruleName bearer.dynamicRules

def tftEntries (op : TftOp) (s : TftState) (entries : List TftEntry) : Option TftState :=
  entries.foldlM (fun s entry => (tftFlow op entry.1 s entry.2).map Prod.fst) s

theorem tftEntries_append (op : TftOp) (s : TftState) (first second : List TftEntry) :
    tftEntries op s (first ++ second) =
      (tftEntries op s first).bind fun s => tftEntries op s second :=
  foldlM_append

theorem tftEntries_cons (op : TftOp) (s : TftState) (entry : TftEntry) (entries : List TftEntry) :
    tftEntries op s (entry :: entries) =
      ((tftFlow op entry.1 s entry.2).map Prod.fst).bind fun s => tftEntries op s entries :=
  rfl

theorem tftFlows_state (op : TftOp) (precedence : UInt32) (s : TftState) (ds : List FlowDesc) :
    (tftFlows op precedence s ds).map Prod.fst =
      tftEntries op s (ds.map fun d => (precedence, d)) := by
  induction ds generalizing s with
  | nil => rfl
  | cons d ds ih =>
    rw [map_cons, tftEntries_cons, tftFlows]
    cases tftFlow op precedence s d with
    | none => rfl
    | some next =>
      have rest := ih next.1
      simp only [map_some, bind_some, ← rest]
      cases h : tftFlows op precedence next.1 ds <;> simp [h]

theorem tftRules_state (op : TftOp) (ruleName : Option (List Char)) (s : TftState)
    (rules : List DynamicRule) :
    (tftRules op ruleName s rules).map Prod.fst =
      tftEntries op s (entries op ruleName rules) := by
  induction rules generalizing s with
  | nil => rfl
  | cons rule rules ih =>
    rw [tftRules]
    by_cases included : rule.included op ruleName = true
    · have split : entries op ruleName (rule :: rules) =
          (rule.flowDesc.map fun d => (rule.precedence, d)) ++
            entries op ruleName rules := by
        simp [entries, included]
      rw [split, tftEntries_append, ← tftFlows_state, if_pos included]
      cases tftFlows op rule.precedence s rule.flowDesc with
      | none => rfl
      | some next =>
        have rest := ih next.1
        simp only [map_some, bind_some, ← rest]
        cases h : tftRules op ruleName next.1 rules <;> simp [h]
    · have skip : entries op ruleName (rule :: rules) =
          entries op ruleName rules := by
        simp [entries, included]
      rw [skip, if_neg included, ← ih s]
      cases h : tftRules op ruleName s rules <;> simp [h]

def tftStart (op : TftOp) (bearer : TftBearer) (tft : Nat → UInt8) : TftState :=
  TftState.put { epsBearerLvlTft := tft, i := 0, map := bearer.packetFilterMap } op.code

theorem setBearerTft_octets (op : TftOp) (ruleName : Option (List Char)) (bearer : TftBearer)
    (tft : Nat → UInt8) :
    (setBearerTft op ruleName bearer tft).map Prod.fst =
      (tftEntries op (tftStart op bearer tft) (bearer.entries op ruleName)).map fun s =>
        (List.range s.i.toNat).map s.epsBearerLvlTft := by
  rw [TftBearer.entries, tftEntries_append, ← tftRules_state]
  simp only [setBearerTft, tftStart]
  cases tftRules op ruleName _ bearer.prdefRules with
  | none => rfl
  | some next =>
    have rest := tftRules_state op ruleName next.1 bearer.dynamicRules
    simp only [map_some, bind_some, ← rest]
    cases h : tftRules op ruleName next.1 bearer.dynamicRules <;> simp [h]

def writeFilter (s : TftState) (id : Nat) (precedence : UInt32) (f : SdfPktFltr)
    (components : List UInt8) : TftState :=
  let s := { s.set 0 (s.epsBearerLvlTft 0 + 1) with map := Function.update s.map id present }
  let s := s.put (UInt8.ofNat id + directionBits f.direction)
  let s := s.put precedence.toUInt8
  let lenIndex := s.i
  let s := { s with i := s.i + 1 }
  (s.putAll components).set lenIndex (UInt8.ofNat components.length)

theorem tftFlow_state {op : TftOp} (op_ne : op ≠ .removeFilterExisting) (s : TftState)
    (precedence : UInt32) {d : FlowDesc} (direction : d.sdfFlwDesc.direction ≠ 0) :
    (tftFlow op precedence s d).map Prod.fst =
      (freeIds s.map).head?.bind fun id =>
        (filterComponents d.sdfFlwDesc).map fun components =>
          writeFilter s id precedence d.sdfFlwDesc components := by
  have map_eq : (s.set 0 (s.epsBearerLvlTft 0 + 1)).map = s.map := rfl
  simp only [tftFlow, if_pos (And.intro direction op_ne), if_neg op_ne, map_eq,
    getPacketFilterIdentifier_eq]
  cases (freeIds s.map).head? with
  | none => rfl
  | some id =>
    cases h : filterComponents d.sdfFlwDesc with
    | none => simp [h]
    | some components => simp [h, writeFilter]

theorem writeFilter_map (s : TftState) (id : Nat) (precedence : UInt32) (f : SdfPktFltr)
    (components : List UInt8) :
    (writeFilter s id precedence f components).map = Function.update s.map id present := by
  simp [writeFilter, TftState.set, TftState.put]

theorem length_filterOctets (id : Nat) (precedence : UInt32) (f : SdfPktFltr) (components : List UInt8) :
    (filterOctets id precedence f components).length = 3 + components.length := by
  rw [filterOctets, length_append]
  rfl

theorem writeFilter_i (s : TftState) (id : Nat) (precedence : UInt32) (f : SdfPktFltr)
    (components : List UInt8) :
    (writeFilter s id precedence f components).i =
      s.i + UInt8.ofNat (filterOctets id precedence f components).length := by
  have header : UInt8.ofNat 3 = 1 + (1 + 1) := rfl
  simp only [writeFilter, TftState.set, TftState.put, TftState.putAll_i, length_filterOctets,
    UInt8.ofNat_add,
    header, UInt8.add_assoc]

theorem TftState.Holds.skip {s : TftState} {octets : List UInt8} (holds : s.Holds octets)
    (fits : octets.length + 1 ≤ 255) :
    TftState.Holds { s with i := s.i + 1 } (octets ++ [s.epsBearerLvlTft s.i.toNat]) := by
  have kept := holds.put (s.epsBearerLvlTft s.i.toNat) fits
  rwa [TftState.put, update_eq_self] at kept

theorem writeFilter_holds {s : TftState} {op : UInt8} {octets : List UInt8}
    (holds : s.Holds (op :: octets)) (id : Nat) (precedence : UInt32) (f : SdfPktFltr)
    (components : List UInt8)
    (fits : 1 + octets.length + (filterOctets id precedence f components).length ≤ 255) :
    (writeFilter s id precedence f components).Holds
      ((op + 1) :: (octets ++ filterOctets id precedence f components)) := by
  rw [length_filterOctets] at fits
  have first : s.epsBearerLvlTft 0 = op := holds.cells 0 (by simp)
  have counted : (s.set 0 (s.epsBearerLvlTft 0 + 1)).Holds ((op + 1) :: octets) := by
    rw [first]
    have here : (0 : UInt8).toNat = ([] : List UInt8).length := rfl
    exact TftState.Holds.set holds here (op + 1)
  have mapped : TftState.Holds
      { s.set 0 (s.epsBearerLvlTft 0 + 1) with map := Function.update s.map id present }
      ((op + 1) :: octets) := ⟨counted.length, counted.cells⟩
  have header := (mapped.put (UInt8.ofNat id + directionBits f.direction) (by
    simp only [length_cons]; omega)).put precedence.toUInt8 (by
    simp only [length_append, length_cons, length_nil]; omega)
  have skipped := header.skip (by
    simp only [length_append, length_cons, length_nil]; omega)
  have written := skipped.putAll components (by
    simp only [length_append, length_cons, length_nil]; omega)
  rw [append_assoc, singleton_append] at written
  have shape : (op + 1) :: (octets ++ filterOctets id precedence f components) =
      (op + 1) :: octets ++ [UInt8.ofNat id + directionBits f.direction] ++
        [precedence.toUInt8] ++ UInt8.ofNat components.length :: components := by
    simp [filterOctets]
  rw [shape]
  exact written.set header.length (UInt8.ofNat components.length)

def encodeEntries : List Nat → List TftEntry → Option (List (List UInt8))
  | _, [] => some []
  | [], _ :: _ => none
  | id :: ids, (precedence, d) :: entries =>
    (filterComponents d.sdfFlwDesc).bind fun components =>
      (encodeEntries ids entries).map fun filters =>
        filterOctets id precedence d.sdfFlwDesc components :: filters

theorem encodeEntries_nil (ids : List Nat) : encodeEntries ids [] = some [] := by
  cases ids <;> rfl

theorem tftEntries_spec {op : TftOp} (op_ne : op ≠ .removeFilterExisting) (entries : List TftEntry)
    (eligible : ∀ entry ∈ entries, entry.2.sdfFlwDesc.direction ≠ 0) (s : TftState) :
    match encodeEntries (freeIds s.map) entries with
    | none => tftEntries op s entries = none
    | some filters => ∃ s', tftEntries op s entries = some s' ∧
        s'.i = s.i + UInt8.ofNat filters.flatten.length ∧
        ∀ count octets, s.Holds (count :: octets) →
          1 + octets.length + filters.flatten.length ≤ 255 →
          s'.Holds ((count + UInt8.ofNat entries.length) :: (octets ++ filters.flatten)) := by
  induction entries generalizing s with
  | nil =>
    simp only [encodeEntries]
    refine ⟨s, rfl, by simp, fun count octets holds _ => ?_⟩
    simpa using holds
  | cons entry entries ih =>
    obtain ⟨precedence, d⟩ := entry
    have direction := eligible (precedence, d) (mem_cons_self ..)
    rw [tftEntries_cons, tftFlow_state op_ne s precedence direction]
    cases free : freeIds s.map with
    | nil => rfl
    | cons id ids =>
      cases written : filterComponents d.sdfFlwDesc with
      | none => simp [encodeEntries, written]
      | some components =>
        have rest := ih (fun entry mem => eligible entry (mem_cons_of_mem _ mem))
          (writeFilter s id precedence d.sdfFlwDesc components)
        rw [writeFilter_map, freeIds_update free, writeFilter_i] at rest
        simp only [encodeEntries, written, head?_cons, bind_some, map_some]
        cases encoded : encodeEntries ids entries with
        | none =>
          rw [encoded] at rest
          exact rest
        | some filters =>
          rw [encoded] at rest
          obtain ⟨s', run, index, holds'⟩ := rest
          refine ⟨s', run, ?_, fun count octets holds fits => ?_⟩
          · rw [index, flatten_cons, length_append, UInt8.ofNat_add, UInt8.add_assoc]
          · rw [flatten_cons, length_append] at fits
            have step := holds' _ _ (writeFilter_holds holds id precedence
              d.sdfFlwDesc components (by omega)) (by
                rw [length_append]; omega)
            rw [length_cons, Nat.add_comm entries.length, UInt8.ofNat_add,
              ← UInt8.add_assoc, flatten_cons, ← append_assoc]
            exact step

end

section

def readFilters : List UInt8 → List SdfPktFltr → Option (List TadPktFltr)
  | _, [] => some []
  | octets, f :: fs =>
    if filterLength f ≤ octets.length then
      (readFilters (octets.drop (filterLength f)) fs).map fun ts =>
        parseTadPacketFilter octets :: ts
    else none

def TftEntry.filter (entry : TftEntry) : SdfPktFltr :=
  entry.2.sdfFlwDesc

/-- The octets have the operation, the number of the filters and the filters one behind another, each
as its entry has it and with an identifier of its own. -/
structure ReadBack (op : TftOp) (entries : List TftEntry) (octets : List UInt8) : Prop where
  operation : octets.getD 0 0 &&& 0xe0 = op.code
  count : (octets.getD 0 0 &&& 0x0f).toNat = entries.length
  filters : ∃ ts, readFilters octets.tail (entries.map TftEntry.filter) = some ts ∧
    List.Forall₂ (fun entry t => Preserved (TftEntry.filter entry) t) entries ts ∧
    (ts.map TadPktFltr.pcktFltrId).Nodup

/-- `set_bearer_tft` writes a template that is read back as its flow descriptions. -/
def RoundTrip (op : TftOp) (ruleName : Option (List Char)) (bearer : TftBearer)
    (tft : Nat → UInt8) : Prop :=
  ∃ octets bearer', setBearerTft op ruleName bearer tft = some (octets, bearer') ∧
    ReadBack op (bearer.entries op ruleName) octets

/-- Flow descriptions that components can hold, no more octets than the index counts and no more
filters than free identifiers; a template that removes filters has none. -/
structure TftFits (op : TftOp) (ruleName : Option (List Char)) (bearer : TftBearer) : Prop where
  operation : op = .removeFilterExisting → bearer.entries op ruleName = []
  exact : ∀ entry ∈ bearer.entries op ruleName, entry.2.sdfFlwDesc.Exact
  octets : 1 + ((bearer.entries op ruleName).map fun entry =>
    filterLength entry.2.sdfFlwDesc).sum ≤ 255
  identifiers : (bearer.entries op ruleName).length ≤ (freeIds bearer.packetFilterMap).length

variable {entries : List TftEntry} {ids : List Nat} {filters : List (List UInt8)} {op : TftOp}

variable {octets : List UInt8}

theorem length_readFilters {fs : List SdfPktFltr} {ts : List TadPktFltr}
    (read : readFilters octets fs = some ts) : (fs.map filterLength).sum ≤ octets.length := by
  induction fs generalizing octets ts with
  | nil => simp
  | cons f fs ih =>
    rw [readFilters] at read
    split at read
    · next fits =>
        obtain ⟨rest, readRest, -⟩ := map_eq_some_iff.mp read
        have tail := ih readRest
        rw [length_drop] at tail
        rw [map_cons, sum_cons]
        omega
    · cases read

theorem encodeEntries_length (eligible : ∀ entry ∈ entries, entry.2.sdfFlwDesc.Eligible)
    (encoded : encodeEntries ids entries = some filters) :
    entries.length ≤ ids.length ∧
      filters.flatten.length = (entries.map fun entry => filterLength entry.2.sdfFlwDesc).sum := by
  induction entries generalizing ids filters with
  | nil =>
    rw [encodeEntries_nil] at encoded
    cases encoded
    simp
  | cons entry entries ih =>
    obtain ⟨precedence, d⟩ := entry
    cases ids with
    | nil => cases encoded
    | cons id ids =>
      simp only [encodeEntries, bind_eq_some_iff, map_eq_some_iff] at encoded
      obtain ⟨components, written, rest, encodedRest, rfl⟩ := encoded
      have family := (eligible (precedence, d) (mem_cons_self ..)).family
      have here := length_filterComponents family written
      obtain ⟨enough, length⟩ :=
        ih (fun entry mem => eligible entry (mem_cons_of_mem _ mem)) encodedRest
      refine ⟨by simpa using enough, ?_⟩
      rw [flatten_cons, length_append, length, map_cons, sum_cons, length_filterOctets, here]

theorem encodeEntries_exists (exact : ∀ entry ∈ entries, entry.2.sdfFlwDesc.Exact)
    (enough : entries.length ≤ ids.length) : ∃ filters, encodeEntries ids entries = some filters := by
  induction entries generalizing ids with
  | nil => exact ⟨[], encodeEntries_nil ids⟩
  | cons entry entries ih =>
    obtain ⟨precedence, d⟩ := entry
    cases ids with
    | nil => simp at enough
    | cons id ids =>
      obtain ⟨components, written⟩ :=
        filterComponents_isSome (exact (precedence, d) (mem_cons_self ..))
      obtain ⟨rest, encodedRest⟩ :=
        ih (fun entry mem => exact entry (mem_cons_of_mem _ mem)) (by simpa using enough)
      exact ⟨_, by rw [encodeEntries, written, bind_some, encodedRest, map_some]⟩

def readEntries (ids : List Nat) (entries : List TftEntry) : List TadPktFltr :=
  List.zipWith (fun id entry => readFilter id entry.1 (TftEntry.filter entry)) ids entries

theorem readFilters_encodeEntries (eligible : ∀ entry ∈ entries, entry.2.sdfFlwDesc.Eligible)
    (range : ∀ id ∈ ids, id ∈ List.range' 1 15) (encoded : encodeEntries ids entries = some filters) :
    readFilters filters.flatten (entries.map TftEntry.filter) = some (readEntries ids entries) ∧
      (List.Forall₂ (fun entry t => Preserved (TftEntry.filter entry) t) entries
        (readEntries ids entries) ↔ ∀ entry ∈ entries, entry.2.sdfFlwDesc.Exact) := by
  induction entries generalizing ids filters with
  | nil =>
    rw [encodeEntries_nil] at encoded
    cases encoded
    simp [readFilters, readEntries]
  | cons entry entries ih =>
    obtain ⟨precedence, d⟩ := entry
    cases ids with
    | nil => cases encoded
    | cons id ids =>
      simp only [encodeEntries, bind_eq_some_iff, map_eq_some_iff] at encoded
      obtain ⟨components, written, rest, encodedRest, rfl⟩ := encoded
      have here := eligible (precedence, d) (mem_cons_self ..)
      have length : (filterOctets id precedence d.sdfFlwDesc components).length =
          filterLength d.sdfFlwDesc := by
        rw [length_filterOctets, length_filterComponents here.family written]
      obtain ⟨readRest, preservedRest⟩ :=
        ih (fun entry mem => eligible entry (mem_cons_of_mem _ mem))
          (fun id mem => range id (mem_cons_of_mem _ mem)) encodedRest
      have parsed : parseTadPacketFilter
          (filterOctets id precedence d.sdfFlwDesc components ++ rest.flatten) =
            readFilter id precedence d.sdfFlwDesc :=
        parse_filterOctets (range id (mem_cons_self ..)) here written rest.flatten
      constructor
      · simp only [map_cons, readFilters, flatten_cons]
        rw [if_pos (by
          rw [length_append, length]
          exact Nat.le_add_right ..)]
        rw [show filterLength (TftEntry.filter (precedence, d)) =
          (filterOctets id precedence d.sdfFlwDesc components).length from length.symm,
          drop_left, readRest, parsed]
        rfl
      · rw [readEntries, zipWith_cons_cons, forall₂_cons, forall_mem_cons]
        exact and_congr (preserved_readFilter_iff written) preservedRest

theorem readEntries_ids (enough : entries.length ≤ ids.length) :
    (readEntries ids entries).map TadPktFltr.pcktFltrId =
      (ids.take entries.length).map UInt8.ofNat := by
  induction entries generalizing ids with
  | nil => simp [readEntries]
  | cons entry entries ih =>
    cases ids with
    | nil => simp at enough
    | cons id ids =>
      have rest : (readEntries ids entries).map TadPktFltr.pcktFltrId =
          (ids.take entries.length).map UInt8.ofNat := ih (by simpa using enough)
      simp only [readEntries, zipWith_cons_cons, map_cons, length_cons, take_succ_cons] at rest ⊢
      congr 1
      simp only [readFilter, remoteAddress, srcAddress]
      split <;> rfl

theorem nodup_readEntries_ids {map : Nat → Int} (enough : entries.length ≤ (freeIds map).length) :
    ((readEntries (freeIds map) entries).map TadPktFltr.pcktFltrId).Nodup := by
  rw [readEntries_ids enough]
  apply List.Nodup.map_on
  · intro i hi j hj eq
    have small : ∀ id ∈ (freeIds map).take entries.length, id < 16 := by
      intro id mem
      have range := mem_of_mem_filter (mem_of_mem_take mem)
      rw [mem_range'_1] at range
      omega
    have toNat := congrArg UInt8.toNat eq
    rw [UInt8.toNat_ofNat', UInt8.toNat_ofNat'] at toNat
    have hi' := small i hi
    have hj' := small j hj
    omega
  · exact (nodup_freeIds map).sublist (take_sublist ..)

theorem operation_read (op : TftOp) {count : Nat} (small : count ≤ 15) :
    (op.code + UInt8.ofNat count) &&& 0xe0 = op.code ∧
      ((op.code + UInt8.ofNat count) &&& 0x0f).toNat = count := by
  have all : ∀ count : Fin 16, (op.code + UInt8.ofNat count.val) &&& 0xe0 = op.code ∧
      ((op.code + UInt8.ofNat count.val) &&& 0x0f).toNat = count.val := by
    cases op <;> decide +kernel
  exact all ⟨count, by omega⟩

theorem tftEntries_remove {s s' : TftState} (run : tftEntries .removeFilterExisting s entries = some s') :
    s'.i = s.i + UInt8.ofNat entries.length := by
  induction entries generalizing s with
  | nil =>
    cases run
    simp
  | cons entry entries ih =>
    obtain ⟨next, flow, rest⟩ := bind_eq_some_iff.mp run
    obtain ⟨⟨after, d⟩, flow, rfl⟩ := map_eq_some_iff.mp flow
    have index : after.i = s.i + 1 := by
      simp only [tftFlow, ne_eq, not_true_eq_false, and_false, if_false, if_true,
        bind_eq_bind, bind_some] at flow
      split at flow
      · cases flow
        rfl
      · cases flow
    rw [ih rest, index, length_cons, Nat.add_comm, UInt8.ofNat_add, UInt8.add_assoc]
    rfl

theorem tftStart_holds (op : TftOp) (bearer : TftBearer) (tft : Nat → UInt8) :
    (tftStart op bearer tft).Holds [op.code] := by
  have empty : TftState.Holds
      { epsBearerLvlTft := tft, i := 0, map := bearer.packetFilterMap } [] :=
    ⟨rfl, fun _ h => absurd h (Nat.not_lt_zero _)⟩
  exact empty.put op.code (by decide)

theorem tftStart_map (op : TftOp) (bearer : TftBearer) (tft : Nat → UInt8) :
    (tftStart op bearer tft).map = bearer.packetFilterMap := rfl

theorem roundTrip_iff_run {ruleName : Option (List Char)} {bearer : TftBearer}
    {tft : Nat → UInt8} : RoundTrip op ruleName bearer tft ↔
    ∃ s, tftEntries op (tftStart op bearer tft) (bearer.entries op ruleName) = some s ∧
      ReadBack op (bearer.entries op ruleName) ((List.range s.i.toNat).map s.epsBearerLvlTft) := by
  have state := setBearerTft_octets op ruleName bearer tft
  constructor
  · rintro ⟨octets, bearer', written, readBack⟩
    rw [written, map_some] at state
    obtain ⟨s, run, rfl⟩ := map_eq_some_iff.mp state.symm
    exact ⟨s, run, readBack⟩
  · rintro ⟨s, run, readBack⟩
    rw [run, map_some] at state
    obtain ⟨⟨octets, bearer'⟩, written, rfl⟩ := map_eq_some_iff.mp state
    exact ⟨_, bearer', written, readBack⟩

theorem ReadBack.octets_le (readBack : ReadBack op entries octets) :
    (entries.map fun entry => filterLength entry.2.sdfFlwDesc).sum ≤ octets.length - 1 := by
  obtain ⟨ts, read, -⟩ := readBack.filters
  have length := length_readFilters read
  rw [length_tail, map_map] at length
  exact length

theorem readBack_iff {map : Nat → Int} (eligible : ∀ entry ∈ entries, entry.2.sdfFlwDesc.Eligible)
    (encoded : encodeEntries (freeIds map) entries = some filters) :
    ReadBack op entries ((op.code + UInt8.ofNat entries.length) :: filters.flatten) ↔
      ∀ entry ∈ entries, entry.2.sdfFlwDesc.Exact := by
  have enough := (encodeEntries_length eligible encoded).1
  have range : ∀ id ∈ freeIds map, id ∈ List.range' 1 15 := fun id mem => mem_of_mem_filter mem
  have few : (freeIds map).length ≤ 15 :=
    (length_filter_le ..).trans_eq (length_range' ..)
  obtain ⟨read, preserved⟩ := readFilters_encodeEntries eligible range encoded
  constructor
  · intro readBack
    obtain ⟨ts, read', allPreserved, -⟩ := readBack.filters
    rw [tail_cons, read] at read'
    cases read'
    exact preserved.mp allPreserved
  · intro exact
    obtain ⟨operation, count⟩ := operation_read op (enough.trans few)
    exact {
      operation := operation
      count := count
      filters := ⟨_, read, preserved.mpr exact, nodup_readEntries_ids enough⟩ }

variable {op : TftOp} {ruleName : Option (List Char)} {bearer : TftBearer} {tft : Nat → UInt8}

theorem entries_eq_nil_of_short (short : octets.length ≤ 1 + entries.length)
    (readBack : ReadBack op entries octets) : entries = [] := by
  have long : ∀ entries : List TftEntry,
      29 * entries.length ≤ (entries.map fun entry => filterLength entry.2.sdfFlwDesc).sum := by
    intro entries
    induction entries with
    | nil => simp
    | cons entry entries ih =>
      have here : 29 ≤ filterLength entry.2.sdfFlwDesc := by
        unfold filterLength
        split <;> decide
      rw [length_cons, map_cons, sum_cons]
      omega
  have lower := long entries
  have upper := readBack.octets_le
  exact length_eq_zero_iff.mp (by omega)

theorem direction_ne_zero (eligible : ∀ entry ∈ entries, entry.2.sdfFlwDesc.Eligible) :
    ∀ entry ∈ entries, entry.2.sdfFlwDesc.direction ≠ 0 := by
  intro entry mem none
  have direction := (eligible entry mem).direction
  rw [none] at direction
  exact absurd direction (by decide)

theorem encoded_of_run (op_ne : op ≠ .removeFilterExisting)
    (eligible : ∀ entry ∈ entries, entry.2.sdfFlwDesc.Eligible) {s : TftState}
    (run : tftEntries op (tftStart op bearer tft) entries = some s) :
    ∃ filters, encodeEntries (freeIds bearer.packetFilterMap) entries = some filters := by
  have spec := tftEntries_spec op_ne entries (direction_ne_zero eligible) (tftStart op bearer tft)
  rw [tftStart_map] at spec
  cases encoded : encodeEntries (freeIds bearer.packetFilterMap) entries with
  | none =>
    rw [encoded] at spec
    rw [run] at spec
    cases spec
  | some filters => exact ⟨filters, rfl⟩

theorem run_of_encoded (op_ne : op ≠ .removeFilterExisting)
    (eligible : ∀ entry ∈ entries, entry.2.sdfFlwDesc.Eligible) (tft : Nat → UInt8)
    (encoded : encodeEntries (freeIds bearer.packetFilterMap) entries = some filters)
    (fits : 1 + filters.flatten.length ≤ 255) :
    ∃ s, tftEntries op (tftStart op bearer tft) entries = some s ∧
      (List.range s.i.toNat).map s.epsBearerLvlTft =
        (op.code + UInt8.ofNat entries.length) :: filters.flatten := by
  have spec := tftEntries_spec op_ne entries (direction_ne_zero eligible) (tftStart op bearer tft)
  rw [tftStart_map, encoded] at spec
  obtain ⟨s, run, -, holds⟩ := spec
  exact ⟨s, run,
    (holds op.code [] (tftStart_holds op bearer tft) (by simpa using fits)).octets_eq⟩

theorem roundTrip_remove_iff :
    RoundTrip .removeFilterExisting ruleName bearer tft ↔
      bearer.entries .removeFilterExisting ruleName = [] := by
  constructor
  · intro roundTrip
    obtain ⟨s, run, readBack⟩ := roundTrip_iff_run.mp roundTrip
    have index := tftEntries_remove run
    have start : (tftStart .removeFilterExisting bearer tft).i = 1 := rfl
    have one : (1 : UInt8).toNat = 1 := rfl
    apply entries_eq_nil_of_short _ readBack
    rw [length_map, length_range, index, start, UInt8.toNat_add, UInt8.toNat_ofNat']
    omega
  · intro empty
    have run : tftEntries .removeFilterExisting (tftStart .removeFilterExisting bearer tft)
        (bearer.entries .removeFilterExisting ruleName) =
          some (tftStart .removeFilterExisting bearer tft) := by
      rw [empty]
      rfl
    refine roundTrip_iff_run.mpr ⟨_, run, ?_⟩
    rw [(tftStart_holds .removeFilterExisting bearer tft).octets_eq, empty]
    exact ⟨by decide, by decide, ⟨[], rfl, .nil, .nil⟩⟩

section

variable (op_ne : op ≠ .removeFilterExisting)
  (eligible : ∀ entry ∈ bearer.entries op ruleName, entry.2.sdfFlwDesc.Eligible)

include op_ne eligible

theorem tftFits_of_roundTrip
    (roundTrip : RoundTrip op ruleName bearer tft) : TftFits op ruleName bearer := by
  obtain ⟨s, run, readBack⟩ := roundTrip_iff_run.mp roundTrip
  obtain ⟨filters, encoded⟩ := encoded_of_run op_ne eligible run
  obtain ⟨enough, length⟩ := encodeEntries_length eligible encoded
  have counted := readBack.octets_le
  have index := s.i.toNat_lt
  rw [length_map, length_range] at counted
  have fits : 1 + filters.flatten.length ≤ 255 := by omega
  obtain ⟨s', run', octets⟩ := run_of_encoded op_ne eligible tft encoded fits
  obtain rfl : s = s' := some.inj (run.symm.trans run')
  rw [octets] at readBack
  exact {
    operation := fun remove => absurd remove op_ne
    exact := (readBack_iff eligible encoded).mp readBack
    octets := length ▸ fits
    identifiers := enough }

theorem roundTrip_of_tftFits
    (fits : TftFits op ruleName bearer) : RoundTrip op ruleName bearer tft := by
  obtain ⟨filters, encoded⟩ := encodeEntries_exists fits.exact fits.identifiers
  have length := (encodeEntries_length eligible encoded).2
  obtain ⟨s, run, octets⟩ := run_of_encoded op_ne eligible tft encoded (length ▸ fits.octets)
  refine roundTrip_iff_run.mpr ⟨s, run, ?_⟩
  rw [octets]
  exact (readBack_iff eligible encoded).mpr fits.exact

end

/-- The round trip holds for exactly the bearers that fit. -/
theorem setBearerTft_roundTrip_iff
    (eligible : ∀ entry ∈ bearer.entries op ruleName, entry.2.sdfFlwDesc.Eligible) :
    RoundTrip op ruleName bearer tft ↔ TftFits op ruleName bearer := by
  by_cases remove : op = .removeFilterExisting
  · subst remove
    rw [roundTrip_remove_iff]
    constructor
    · intro empty
      exact ⟨fun _ => empty, by simp [empty], by simp [empty], by simp [empty]⟩
    · intro fits
      exact fits.operation rfl
  · exact ⟨tftFits_of_roundTrip remove eligible, roundTrip_of_tftFits remove eligible⟩

def webFlow : SdfPktFltr where
  protoId := 6
  v4 := 1
  v6 := 0
  protoMask := 0xff
  direction := tftDirectionDownlinkOnly
  localIpMask := 24
  remoteIpMask := 32
  localPortLow := 443
  localPortHigh := 443
  remotePortLow := 5000
  remotePortHigh := 5000
  ulocalip := [192, 168, 1, 0]
  uremoteip := [10, 0, 0, 1]

def ruleBearer (flows : List SdfPktFltr) : TftBearer where
  packetFilterMap := fun _ => notPresent
  prdefRules := []
  dynamicRules := [{ ruleName := ['r'], precedence := 1, flowDesc := flows.map (⟨0, ·⟩) }]

theorem setBearerTft_roundTrip_webFlow :
    RoundTrip .createNew none
      (ruleBearer [webFlow, { webFlow with v4 := 0, v6 := 1, direction := tftDirectionUplinkOnly }])
      (fun _ => 0) := by
  refine (setBearerTft_roundTrip_iff ?_).mpr ⟨by decide, ?_, by decide, by decide⟩
  · simp only [TftBearer.entries, entries, included, ruleBearer]
    simp [webFlow, tftDirectionUplinkOnly, tftDirectionDownlinkOnly]
    exact ⟨⟨by decide, by decide⟩, ⟨by decide, by decide⟩⟩
  · simp [TftBearer.entries, entries, included, ruleBearer,
      SdfPktFltr.Exact, FlowSide.Exact, SdfPktFltr.localSide, SdfPktFltr.remoteSide, webFlow]

def rangeFlow : SdfPktFltr :=
  { webFlow with remotePortHigh := 6000 }

/-- Of a port range only the low end comes back. -/
theorem portRange_not_roundTrip :
    rangeFlow.Eligible ∧ ¬ RoundTrip .createNew none (ruleBearer [rangeFlow]) (fun _ => 0) := by
  refine ⟨⟨by decide, by decide⟩, ?_⟩
  rintro ⟨octets, bearer', written, readBack⟩
  have octets_eq : (setBearerTft .createNew none (ruleBearer [rangeFlow]) (fun _ => 0)).map Prod.fst =
      some [33, 17, 1, 26, 48, 6, 80, 19, 136, 64, 1, 187, 17, 192, 168, 1, 0, 255, 255, 255, 0, 16,
        10, 0, 0, 1, 255, 255, 255, 255] := by
    decide +kernel
  rw [written, map_some, some.injEq] at octets_eq
  subst octets_eq
  obtain ⟨ts, read, preserved, -⟩ := readBack.filters
  have high : (readFilters [17, 1, 26, 48, 6, 80, 19, 136, 64, 1, 187, 17, 192, 168, 1, 0, 255, 255,
      255, 0, 16, 10, 0, 0, 1, 255, 255, 255, 255] [rangeFlow]).map
      (List.map TadPktFltr.remotePortHigh) = some [5000] := by
    decide +kernel
  have readHigh : some (ts.map TadPktFltr.remotePortHigh) = some [5000] :=
    (congrArg (Option.map (List.map TadPktFltr.remotePortHigh)) read).symm.trans high
  cases preserved with
  | cons head _ =>
    rw [map_cons, head.remotePorts.2] at readHigh
    exact absurd (List.cons.inj (some.inj readHigh)).1 (by decide)

end

end Epc.Cp
