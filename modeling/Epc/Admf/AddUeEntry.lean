import Epc.Admf.UeConfig

/-! The entries that D-ADMF adds for UEs (`ulpc/d_admf/src/AddUeEntry.cpp`), and the identifiers that
they get (`ulpc/d_admf/src/Common.cpp`). Which UEs are found under their own identifiers, whatever the
random numbers are. -/

namespace Epc.Admf

open Epc.Lib.Run List Function

/-- A UE of a request, defaults filled in, with what the calls made for it return: those of
`getTimeDiffInMilliSec` for its identifier and for its timers, and `time(0)`, cut to the seed. -/
structure AddUe where
  ueDataTmp : UeData
  diffs : TimeDiffs
  times : TimeDiffs
  seed : UInt32
  deriving DecidableEq

def addAction : UInt16 := 1

/-- The identifier but for the random numbers; `uiPgws5s8c` is added twice. -/
def identifierBase (ue : AddUe) : UInt64 :=
  let ueData := ue.ueDataTmp
  let startDiff : UInt64 := .ofInt (ue.diffs.start.tdiv milliseconds)
  let stopDiff : UInt64 := .ofInt (ue.diffs.stop.tdiv milliseconds)
  ueData.uiImsi + ueData.uiS11.toUInt64 + ueData.uiSgws5s8c.toUInt64 + ueData.uiPgws5s8c.toUInt64 +
    ueData.uiPgws5s8c.toUInt64 + ueData.uiForward.toUInt64 + ueData.s1uContent.toUInt64 +
    ueData.sgwS5S8Content.toUInt64 + ueData.pgwS5S8Content.toUInt64 + ueData.sgiContent.toUInt64 +
    (startDiff - stopDiff)

def AddUe.Accepted (ue : AddUe) : Prop :=
  ¬ (ue.times.start ≤ 0 ∨ ue.times.stop ≤ 0 ∨ ue.times.stop ≤ ue.times.start)

instance (ue : AddUe) : Decidable ue.Accepted :=
  inferInstanceAs (Decidable (¬ (_ ∨ _ ∨ _)))

section

/-! `rand` gives the first two values of `rand()` behind `srand` with a seed. -/

variable (rand : UInt32 → Fin (2 ^ 31) × Fin (2 ^ 31))

def randomNum (seed : UInt32) : UInt64 :=
  .ofNat ((rand seed).1 % 1000 + (rand seed).2 % 1000)

def generateSequenceIdentifier (ue : AddUe) : UInt64 :=
  identifierBase ue + randomNum rand ue.seed

def addedEntry (ue : AddUe) : UeEntry where
  data := { ue.ueDataTmp with
    uiSeqIdentifier := generateSequenceIdentifier rand ue
    ackReceived := addAction }
  iTimeToStart := ue.times.start
  iTimeToStop := ue.times.stop

/-- `AddUeEntryPost::process` for one UE; an identifier that is in the map is not inserted. -/
def addUeEntry (s : UeConfig) (ue : AddUe) : UeConfig :=
  if ue.Accepted then
    let entry := addedEntry rand ue
    let id := entry.data.uiSeqIdentifier
    { mapUeConfig :=
        match s.mapUeConfig id with
        | some _ => s.mapUeConfig
        | none => Function.update s.mapUeConfig id (some entry)
      timers := s.timers ++ [id] }
  else s

end

section

variable (rand : UInt32 → Fin (2 ^ 31) × Fin (2 ^ 31))

theorem randomNum_lt (seed : UInt32) : (randomNum rand seed).toNat < 1999 := by
  have small : (rand seed).1.val % 1000 + (rand seed).2.val % 1000 < 1999 := by omega
  rw [randomNum, UInt64.toNat_ofNat_of_lt' (by rw [UInt64.size]; omega)]
  exact small

def noisy (seed : UInt32) (noise : Nat) (other : UInt32) : Fin (2 ^ 31) × Fin (2 ^ 31) :=
  if other = seed then (.ofNat _ (min noise 999), .ofNat _ (noise - min noise 999)) else (0, 0)

theorem randomNum_noisy {seed : UInt32} {noise : Nat} (small : noise < 1999) :
    randomNum (noisy seed noise) seed = .ofNat noise := by
  have first : (Fin.ofNat (2 ^ 31) (min noise 999)).val = min noise 999 :=
    Nat.mod_eq_of_lt (by omega)
  have second : (Fin.ofNat (2 ^ 31) (noise - min noise 999)).val = noise - min noise 999 :=
    Nat.mod_eq_of_lt (by omega)
  rw [randomNum, noisy, if_pos rfl, first, second]
  congr 1
  omega

theorem randomNum_noisy_other {seed other : UInt32} (ne : other ≠ seed) (noise : Nat) :
    randomNum (noisy seed noise) other = 0 := by
  rw [randomNum, noisy, if_neg ne]
  rfl

def FarApart (a b : UInt64) : Prop :=
  1999 ≤ (a - b).toNat ∧ 1999 ≤ (b - a).toNat

theorem FarApart.add_ne {a b x y : UInt64} (apart : FarApart a b) (small : x.toNat < 1999)
    (small' : y.toNat < 1999) : a + x ≠ b + y := by
  obtain ⟨above, below⟩ := apart
  intro same
  have bounds := And.intro a.toNat_lt b.toNat_lt
  have values := congrArg UInt64.toNat same
  rw [UInt64.toNat_add, UInt64.toNat_add] at values
  rw [UInt64.toNat_sub] at above below
  omega

end

section

/-- Within a second the random numbers agree; otherwise they make up for differences below their
range. -/
def IdentifiersApart (ue other : AddUe) : Prop :=
  if ue.seed = other.seed then identifierBase ue ≠ identifierBase other
  else FarApart (identifierBase ue) (identifierBase other)

variable {ue other : AddUe}

theorem IdentifiersApart.generate_ne (apart : IdentifiersApart ue other)
    (rand : UInt32 → Fin (2 ^ 31) × Fin (2 ^ 31)) :
    generateSequenceIdentifier rand ue ≠ generateSequenceIdentifier rand other := by
  unfold IdentifiersApart at apart
  split at apart
  · rename_i sameSecond
    intro same
    rw [generateSequenceIdentifier, generateSequenceIdentifier, sameSecond] at same
    exact apart ((UInt64.add_left_inj _).mp same)
  · exact apart.add_ne (randomNum_lt rand _) (randomNum_lt rand _)

theorem exists_generate_eq_of_sub_lt (ne : ue.seed ≠ other.seed)
    (near : (identifierBase ue - identifierBase other).toNat < 1999) :
    ∃ rand, generateSequenceIdentifier rand ue =
      generateSequenceIdentifier rand other := by
  refine ⟨noisy other.seed (identifierBase ue - identifierBase other).toNat, ?_⟩
  rw [generateSequenceIdentifier, generateSequenceIdentifier, randomNum_noisy near,
    randomNum_noisy_other ne, UInt64.ofNat_toNat, UInt64.add_zero, UInt64.add_comm,
    UInt64.sub_add_cancel]

theorem exists_generate_eq (near : ¬ IdentifiersApart ue other) :
    ∃ rand, generateSequenceIdentifier rand ue =
      generateSequenceIdentifier rand other := by
  unfold IdentifiersApart at near
  split at near
  · rename_i sameSecond
    refine ⟨fun _ => (0, 0), ?_⟩
    rw [generateSequenceIdentifier, generateSequenceIdentifier, sameSecond, not_not.mp near]
  · rename_i ne
    rw [FarApart, not_and_or, Nat.not_le, Nat.not_le] at near
    rcases near with above | below
    · exact exists_generate_eq_of_sub_lt ne above
    · obtain ⟨rand, same⟩ := exists_generate_eq_of_sub_lt (Ne.symm ne) below
      exact ⟨rand, same.symm⟩

end

section

variable (rand : UInt32 → Fin (2 ^ 31) × Fin (2 ^ 31))

/-- The map has exactly the entries that were added, each under its identifier. -/
structure Added (ues : List AddUe) (s : UeConfig) : Prop where
  present : ∀ ue ∈ ues,
    s.mapUeConfig (generateSequenceIdentifier rand ue) = some (addedEntry rand ue)
  only : ∀ id, id ∉ ues.map (generateSequenceIdentifier rand) → s.mapUeConfig id = none

variable {rand}

theorem Added.step {ues : List AddUe} {s : UeConfig} (added : Added rand ues s) {ue : AddUe}
    (accepted : ue.Accepted) (fresh : generateSequenceIdentifier rand ue ∉
      ues.map (generateSequenceIdentifier rand)) :
    Added rand (ues ++ [ue]) (addUeEntry rand s ue) := by
  have inserted : (addUeEntry rand s ue).mapUeConfig =
      Function.update s.mapUeConfig (generateSequenceIdentifier rand ue)
        (some (addedEntry rand ue)) := by
    have absent : s.mapUeConfig (addedEntry rand ue).data.uiSeqIdentifier = none :=
      added.only _ fresh
    simp only [addUeEntry, if_pos accepted, absent]
    rfl
  constructor
  · intro other mem
    rw [inserted]
    rcases mem_append.mp mem with earlier | new
    · have ne : generateSequenceIdentifier rand other ≠
          generateSequenceIdentifier rand ue := by
        intro same
        exact fresh (same ▸ mem_map_of_mem earlier)
      rw [update_of_ne ne, added.present other earlier]
    · rw [mem_singleton.mp new, update_self]
  · intro id outside
    rw [map_append, mem_append, not_or] at outside
    have ne : id ≠ generateSequenceIdentifier rand ue := by
      rintro rfl
      exact outside.2 (mem_singleton_self _)
    rw [inserted, update_of_ne ne, added.only id outside.1]

theorem added_run {ues : List AddUe} (accepted : ∀ ue ∈ ues, ue.Accepted)
    (nodup : (ues.map (generateSequenceIdentifier rand)).Nodup) :
    Added rand ues (run (addUeEntry rand) emptyConfig ues) := by
  induction ues using List.reverseRecOn with
  | nil => exact ⟨forall_mem_nil _, fun _ _ => rfl⟩
  | append_singleton ues ue ih =>
    rw [map_append, nodup_append] at nodup
    obtain ⟨earlier, -, apart⟩ := nodup
    rw [run_append]
    refine (ih (fun other mem => accepted other (mem_append_left _ mem)) earlier).step
      (accepted ue (mem_append_right _ (mem_singleton_self ue))) ?_
    intro mem
    exact apart _ mem _ (mem_singleton_self _) rfl

variable (rand)

/-- The identifiers are distinct, and every entry stays in the map. -/
structure EntriesKept (ues : List AddUe) : Prop where
  distinct : (ues.map (generateSequenceIdentifier rand)).Nodup
  present : ∀ added, added <+: ues → ∀ ue ∈ added,
    (run (addUeEntry rand) emptyConfig added).mapUeConfig
      (generateSequenceIdentifier rand ue) = some (addedEntry rand ue)

/-- Accepted UEs are kept for all random numbers exactly if their identifiers are apart without
them. -/
theorem entriesKept_iff (ues : List AddUe) (accepted : ∀ ue ∈ ues, ue.Accepted) :
    (∀ rand, EntriesKept rand ues) ↔ ues.Pairwise (IdentifiersApart) := by
  constructor
  · intro kept
    have different : ues.Pairwise fun ue other => ∀ rand,
        generateSequenceIdentifier rand ue ≠ generateSequenceIdentifier rand other := by
      rw [pairwise_iff_forall_sublist]
      intro ue other pair rand
      have distinct := (pairwise_map.mp (kept rand).distinct)
      exact pairwise_iff_forall_sublist.mp distinct pair
    refine different.imp fun apart => ?_
    by_contra near
    obtain ⟨rand, same⟩ := exists_generate_eq near
    exact apart rand same
  · intro apart rand
    have distinct : (ues.map (generateSequenceIdentifier rand)).Nodup :=
      pairwise_map.mpr (apart.imp fun apart => apart.generate_ne rand)
    refine ⟨distinct, fun added front ue member => ?_⟩
    have part := front.sublist
    exact (added_run (fun ue member => accepted ue (part.subset member))
      (distinct.sublist (part.map _))).present ue member

end

section

def inAnHour (ueDataTmp : UeData) (seed : UInt32) : AddUe where
  ueDataTmp
  diffs := ⟨3600000, 7200000⟩
  times := ⟨3600000, 7200000⟩
  seed

def fiveSecondsApart : List AddUe :=
  [inAnHour firstUe 1700000000, inAnHour { firstUe with uiImsi := 310170123460000 } 1700000005]

theorem entriesKept_fiveSecondsApart :
    (∀ ue ∈ fiveSecondsApart, ue.Accepted) ∧ ∀ rand, EntriesKept rand fiveSecondsApart := by
  have accepted : ∀ ue ∈ fiveSecondsApart, ue.Accepted := by decide
  refine ⟨accepted, (entriesKept_iff fiveSecondsApart accepted).mpr ?_⟩
  refine pairwise_pair.mpr ?_
  exact ⟨by decide, by decide⟩

def sameSecond : List AddUe :=
  [inAnHour { firstUe with uiS11 := 2 } 1700000000,
    inAnHour { firstUe with uiImsi := 310170123456790, uiS11 := 1 } 1700000000]

/-- They get one identifier, and the second UE is in the map under none. -/
theorem sameSecond_not_kept :
    (∀ ue ∈ sameSecond, ue.Accepted) ∧ ∀ rand,
      ¬ EntriesKept rand sameSecond ∧
        ((run (addUeEntry rand) emptyConfig sameSecond).mapUeConfig
          (generateSequenceIdentifier rand sameSecond[1])).map (·.data.uiImsi) = some 310170123456789 := by
  have base : identifierBase sameSecond[0] = identifierBase sameSecond[1] := by decide
  refine ⟨by decide, fun rand => ?_⟩
  have same : generateSequenceIdentifier rand sameSecond[0] = generateSequenceIdentifier rand sameSecond[1] :=
    congrArg (· + randomNum rand 1700000000) base
  refine ⟨fun kept => ?_, ?_⟩
  · exact (pairwise_pair.mp (pairwise_map.mp kept.distinct)) same
  · have first : Added rand [sameSecond[0]] (addUeEntry rand emptyConfig sameSecond[0]) :=
      added_run (by decide) (nodup_singleton _)
    have found := first.present _ (mem_singleton_self _)
    rw [same] at found
    have both : run (addUeEntry rand) emptyConfig sameSecond =
        addUeEntry rand (addUeEntry rand emptyConfig sameSecond[0]) sameSecond[1] := rfl
    have kept : (addUeEntry rand (addUeEntry rand emptyConfig sameSecond[0]) sameSecond[1]).mapUeConfig =
        (addUeEntry rand emptyConfig sameSecond[0]).mapUeConfig := by
      rw [addUeEntry, if_pos (by decide)]
      dsimp only [addedEntry]
      rw [found]
    rw [both, kept, found]
    rfl

end

end Epc.Admf
