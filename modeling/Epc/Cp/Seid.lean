import Epc.Cp.UeContext

/-! Control-plane session identifiers: how `SESS_ID` packs a TEID and a bearer id, and how the report
handler gets them back (`cp_dp_api/vepc_cp_dp_api.h`, `pfcp_messages/pfcp_association.c`). Here: when the
TEID and the bearer id are those it was made from. -/

namespace Epc.Cp

open Epc.Lib List

/-- `SESS_ID` at the given value of `time(NULL)`. -/
def sessId (epoch : UInt64) (ueId : UInt32) (brId : UInt8) : UInt64 :=
  (epoch <<< 32) ||| ((0xfffffff : UInt64) &&& ((ueId.toUInt64 <<< 4) ||| (0xf &&& brId).toUInt64))

def ueSessId (x : UInt64) : UInt64 :=
  (x &&& 0xfffffff) >>> 4

def ueBearId (x : UInt64) : UInt64 :=
  x &&& 0xf

/-- The lookups of `process_pfcp_report_req`: the context and bearer index of a SEID; `smHash` has
the session ids with a response entry. -/
def reportTarget (smHash : UInt64 → Bool) (ueContextByFteidHash : Table UInt32 Nat)
    (sessionId : UInt64) : Option (Nat × Nat) := do
  let s11SgwGtpcTeid := (ueSessId sessionId).toUInt32
  let ebiIndex ← getEbiIndex (ueBearId sessionId).toNat
  if smHash sessionId then
    let context ← ueContextByFteidHash s11SgwGtpcTeid
    some (context, ebiIndex)
  else
    none

theorem toNat_ueSessId (x : UInt64) : (ueSessId x).toNat = x.toNat % 2 ^ 28 / 2 ^ 4 := by
  have mask : x.toNat &&& (0xfffffff : UInt64).toNat = x.toNat % 2 ^ 28 :=
    Nat.and_two_pow_sub_one_eq_mod x.toNat 28
  rw [ueSessId, UInt64.toNat_shiftRight, UInt64.toNat_and, mask, Nat.shiftRight_eq_div_pow]
  rfl

theorem toNat_ueBearId (x : UInt64) : (ueBearId x).toNat = x.toNat % 2 ^ 4 := by
  exact Nat.and_two_pow_sub_one_eq_mod x.toNat 4

section

variable (epoch : UInt64) (t : UInt32) (e : UInt8)

theorem toNat_sessId_mod :
    (sessId epoch t e).toNat % 2 ^ 28 = (2 ^ 4 * t.toNat + e.toNat % 2 ^ 4) % 2 ^ 28 := by
  have high : (epoch <<< 32).toNat % 2 ^ 28 = 0 := by
    simp
    omega
  have ue : (t.toUInt64 <<< 4).toNat = 2 ^ 4 * t.toNat := by
    have := t.toNat_lt
    simp
    omega
  have br : ((0xf &&& e : UInt8).toUInt64).toNat = e.toNat % 2 ^ 4 := by
    rw [UInt8.toNat_toUInt64, UInt8.toNat_and, Nat.and_comm]
    exact Nat.and_two_pow_sub_one_eq_mod e.toNat 4
  have low : (0xfffffff : UInt64).toNat = 2 ^ 28 - 1 := rfl
  rw [sessId, UInt64.toNat_or, UInt64.toNat_and, UInt64.toNat_or, ue, br, low,
    ← Nat.two_pow_add_eq_or_of_lt (Nat.mod_lt _ (by decide)), Nat.and_comm,
    Nat.and_two_pow_sub_one_eq_mod, Nat.or_mod_two_pow, high, Nat.zero_or, Nat.mod_mod]

theorem toNat_ueSessId_sessId : (ueSessId (sessId epoch t e)).toNat = t.toNat % 2 ^ 24 := by
  rw [toNat_ueSessId, toNat_sessId_mod]
  omega

theorem toNat_ueBearId_sessId : (ueBearId (sessId epoch t e)).toNat = e.toNat % 2 ^ 4 := by
  have low := toNat_sessId_mod epoch t e
  rw [toNat_ueBearId]
  omega

end

/-- `SESS_ID(t, e)` gives `t` and `e` back, and a report with it reaches the context under `t`, at
the index of bearer `e`. -/
structure Recovers (epoch : UInt64) (t : UInt32) (e : UInt8) : Prop where
  teid : ueSessId (sessId epoch t e) = t.toUInt64
  bearer : ueBearId (sessId epoch t e) = e.toUInt64
  target : ∀ (smHash : UInt64 → Bool) (contexts : Table UInt32 Nat),
    smHash (sessId epoch t e) = true →
      reportTarget smHash contexts (sessId epoch t e) =
        (contexts t).bind fun c => (getEbiIndex e.toNat).map fun i => (c, i)

theorem ueSessId_sessId_eq_iff (epoch : UInt64) (t : UInt32) (e : UInt8) :
    ueSessId (sessId epoch t e) = t.toUInt64 ↔ t.toNat < 2 ^ 24 := by
  rw [← UInt64.toNat_inj, toNat_ueSessId_sessId, UInt32.toNat_toUInt64]
  omega

theorem ueBearId_sessId_eq_iff (epoch : UInt64) (t : UInt32) (e : UInt8) :
    ueBearId (sessId epoch t e) = e.toUInt64 ↔ e.toNat ≤ 15 := by
  rw [← UInt64.toNat_inj, toNat_ueBearId_sessId, UInt8.toNat_toUInt64]
  omega

theorem reportTarget_of_recovered {epoch : UInt64} {t : UInt32} {e : UInt8} {smHash : UInt64 → Bool}
    (contexts : Table UInt32 Nat) (teid : ueSessId (sessId epoch t e) = t.toUInt64)
    (bearer : ueBearId (sessId epoch t e) = e.toUInt64) (known : smHash (sessId epoch t e) = true) :
    reportTarget smHash contexts (sessId epoch t e) =
      (contexts t).bind fun c => (getEbiIndex e.toNat).map fun i => (c, i) := by
  simp only [reportTarget, teid, bearer, known, UInt32.toUInt32_toUInt64, UInt8.toNat_toUInt64]
  cases getEbiIndex e.toNat <;> cases contexts t <;> rfl

/-- For a returned TEID and an accepted bearer id, the packing is undone exactly when the TEID has
at most 24 bits and the bearer id at most four. -/
theorem sessId_recovers_iff (calls : List GtpcCall) (t : UInt32) (_returned : t ∈ gtpcTeids calls)
    (e : UInt8) (_accepted : (getEbiIndex e.toNat).isSome) (epoch : UInt64) :
    Recovers epoch t e ↔ t.toNat < 2 ^ 24 ∧ e.toNat ≤ 15 := by
  constructor
  · intro recovers
    exact ⟨(ueSessId_sessId_eq_iff epoch t e).mp recovers.teid,
      (ueBearId_sessId_eq_iff epoch t e).mp recovers.bearer⟩
  · rintro ⟨teidFits, bearerFits⟩
    have teid := (ueSessId_sessId_eq_iff epoch t e).mpr teidFits
    have bearer := (ueBearId_sessId_eq_iff epoch t e).mpr bearerFits
    exact ⟨teid, bearer, fun _ contexts known =>
      reportTarget_of_recovered contexts teid bearer known⟩

theorem sessId_recovers_first_default_bearer : Recovers 1700000000 0xC0FFEE 5 :=
  (sessId_recovers_iff [.s11Sgw 0 .sgwc 0] 0xC0FFEE (by decide) 5 (by decide) 1700000000).mpr
    (by decide)

theorem gtpcTeidsFrom_replicate_s5s8Pgw (c : GtpcCounters) (n : Nat) :
    gtpcTeidsFrom c (List.replicate n .s5s8Pgw) =
      (List.range n).map fun i =>
        s5s8PgwGtpcBaseTeid + (c.s5s8PgwGtpcTeidOffset + UInt32.ofNat i) := by
  induction n generalizing c with
  | zero => rfl
  | succ n ih =>
    rw [replicate_succ, gtpcTeidsFrom, ih, range_succ_eq_map, map_cons, map_map]
    congr 1
    · simp [GtpcCall.apply, getS5s8PgwGtpcTeid]
    · apply map_congr_left
      intro i _
      simp [GtpcCall.apply, getS5s8PgwGtpcTeid, UInt32.add_assoc, UInt32.add_comm 1]

theorem exists_calls_returning (t : UInt32) : ∃ calls, t ∈ gtpcTeids calls := by
  refine ⟨List.replicate ((t - s5s8PgwGtpcBaseTeid).toNat + 1) .s5s8Pgw, ?_⟩
  rw [gtpcTeids, gtpcTeidsFrom_replicate_s5s8Pgw, mem_map]
  refine ⟨(t - s5s8PgwGtpcBaseTeid).toNat, by simp, ?_⟩
  simp [UInt32.add_comm s5s8PgwGtpcBaseTeid]

/-- The first temporary bearer id past 16, and bearer 5 on a TEID of 25 bits. -/
theorem sessId_not_recovered :
    (0xC0FFEE ∈ gtpcTeids [.s11Sgw 0 .sgwc 0] ∧ (getEbiIndex (17 : UInt8).toNat).isSome ∧
      ∀ epoch, ¬ Recovers epoch 0xC0FFEE 17) ∧
    ((∃ calls, 0x1000000 ∈ gtpcTeids calls) ∧ ∀ epoch, ¬ Recovers epoch 0x1000000 5) := by
  refine ⟨⟨by decide, by decide, fun epoch recovers => ?_⟩,
    exists_calls_returning _, fun epoch recovers => ?_⟩
  · exact absurd ((ueBearId_sessId_eq_iff epoch _ _).mp recovers.bearer) (by decide)
  · exact absurd ((ueSessId_sessId_eq_iff epoch _ _).mp recovers.teid) (by decide)

end Epc.Cp
