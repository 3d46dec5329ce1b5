import Epc.Cp.FlowDesc
import Mathlib.Data.List.Perm.Subperm

/-! Whether a modified rule has other flow descriptions: `compare_flow_description`
(`pfcp_messages/pfcp_gx.c`). -/

namespace Epc.Cp

open List

/-- The fields that are compared; `s_addr` has the first four octets of a union. -/
def SdfPktFltr.compared (f : SdfPktFltr) : SdfPktFltr :=
  { f with v4 := 0, v6 := 0, ulocalip := f.ulocalip.take 4, uremoteip := f.uremoteip.take 4 }

/-- The inner loop for an old flow, with the flag: whether the function returns 1. -/
def SdfPktFltr.missing (old : SdfPktFltr) : Bool → List SdfPktFltr → Bool
  | _, [] => false
  | found, new :: rest =>
    if old.compared ≠ new.compared then
      if rest = [] ∧ found = false then true else old.missing found rest
    else old.missing true rest

def compareFlowDescription (old new : List SdfPktFltr) : UInt8 :=
  if old.length ≠ new.length then 1
  else if old.any (·.missing false new) then 1
  else 0

/-- An address as its family has it. -/
def SdfPktFltr.address (f : SdfPktFltr) (octets : List UInt8) : List UInt8 :=
  if f.v6 ≠ 0 then octets else octets.take 4

/-- What a flow stands for: its fields, with the addresses of the family. -/
def SdfPktFltr.flow (f : SdfPktFltr) : SdfPktFltr :=
  { f with v4 := 0, v6 := 0, ulocalip := f.address f.ulocalip, uremoteip := f.address f.uremoteip }

open SdfPktFltr

variable {old new : List SdfPktFltr}

theorem take_address (f : SdfPktFltr) (octets : List UInt8) :
    (f.address octets).take 4 = octets.take 4 := by
  unfold address
  split
  · rfl
  · rw [take_take, Nat.min_self]

theorem compared_flow (f : SdfPktFltr) : f.flow.compared = f.compared := by
  simp only [compared, flow, take_address]

theorem missing_iff (f : SdfPktFltr) (found : Bool) :
    f.missing found new = true ↔
      new ≠ [] ∧ found = false ∧ ∀ g ∈ new, f.compared ≠ g.compared := by
  induction new generalizing found with
  | nil => simp [missing]
  | cons g rest ih =>
    rw [missing]
    by_cases same : f.compared = g.compared
    · simp [same, ih]
    · by_cases last : rest = []
      · cases found <;> simp [same, last, missing]
      · simp [same, last, ih]

theorem compareFlowDescription_iff :
    compareFlowDescription old new = 0 ↔
      old.length = new.length ∧ ∀ f ∈ old, ∃ g ∈ new, f.compared = g.compared := by
  unfold compareFlowDescription
  by_cases lengths : old.length = new.length
  · rw [if_neg (not_not.mpr lengths), and_iff_right lengths]
    have found : old.any (·.missing false new) = false ↔
        ∀ f ∈ old, ∃ g ∈ new, f.compared = g.compared := by
      rw [any_eq_false]
      refine forall₂_congr fun f mem => ?_
      have some : new ≠ [] := ne_nil_of_length_pos (lengths ▸ length_pos_of_mem mem)
      simp [missing_iff, some]
    rw [← found]
    cases old.any (·.missing false new) <;> decide
  · simp [lengths]

theorem compareFlowDescription_of_perm (same : (old.map SdfPktFltr.flow).Perm (new.map SdfPktFltr.flow)) :
    compareFlowDescription old new = 0 := by
  refine compareFlowDescription_iff.mpr ⟨by simpa using same.length_eq, fun f mem => ?_⟩
  obtain ⟨g, mem', flow⟩ := mem_map.mp (same.subset (mem_map_of_mem mem))
  exact ⟨g, mem', by rw [← compared_flow, ← compared_flow g, flow]⟩

theorem compareFlowDescription_eq_ite {p : Prop} [Decidable p] :
    (compareFlowDescription old new = if p then 0 else 1) ↔ (compareFlowDescription old new = 0 ↔ p) := by
  have result : compareFlowDescription old new = 0 ∨ compareFlowDescription old new = 1 := by
    unfold compareFlowDescription
    split_ifs <;> decide
  rcases result with same | changed
  · rw [same]
    split_ifs with h <;> simp [h]
  · rw [changed]
    split_ifs with h <;> simp [h]

/-- The comparison is right exactly if, where the numbers are equal and every old flow has an equal
one, no flow is there more often than in the new rule. -/
theorem compareFlowDescription_right_iff (old new : List SdfPktFltr) :
    compareFlowDescription old new =
        (if (old.map SdfPktFltr.flow).Perm (new.map SdfPktFltr.flow) then 0 else 1) ↔
      (old.length = new.length → (∀ f ∈ old, ∃ g ∈ new, f.compared = g.compared) →
        ∀ f ∈ old, (old.map SdfPktFltr.flow).count f.flow ≤ (new.map SdfPktFltr.flow).count f.flow) := by
  have counts : (old.map flow) <+~ (new.map flow) ↔
      ∀ f ∈ old, (old.map flow).count f.flow ≤ (new.map flow).count f.flow := by
    rw [subperm_ext_iff, forall_mem_map]
  rw [compareFlowDescription_eq_ite]
  constructor
  · intro right lengths found
    exact counts.mp (right.mp (compareFlowDescription_iff.mpr ⟨lengths, found⟩)).subperm
  · intro often
    refine ⟨fun same => ?_, compareFlowDescription_of_perm⟩
    obtain ⟨lengths, found⟩ := compareFlowDescription_iff.mp same
    exact (counts.mpr (often lengths found)).perm_of_length_le (by simp [lengths])

/-- A repeated flow stands for another one; IPv6 addresses differ behind their first word. -/
theorem changed_flows_not_seen :
    let web : SdfPktFltr := { SdfPktFltr.zero with v4 := 1, protoId := 6 }
    let dns : SdfPktFltr := { web with protoId := 17 }
    let host : SdfPktFltr := { web with v4 := 0, v6 := 1, ulocalip := replicate 16 1 }
    let other : SdfPktFltr := { host with ulocalip := replicate 4 1 ++ replicate 12 2 }
    (compareFlowDescription [web, web] [web, dns] = 0 ∧
      ¬ ([web, web].map flow).Perm ([web, dns].map flow)) ∧
    compareFlowDescription [host] [other] = 0 ∧
      ¬ ([host].map flow).Perm ([other].map flow) := by
  decide

end Epc.Cp
