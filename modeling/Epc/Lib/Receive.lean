import Mathlib.Data.List.Basic

/-! A loop that takes packets with their length in front from a queue of symbols. What is done with a packet
decides whether the loop goes on; it may differ from round to round. -/

namespace Epc.Lib.Receive

open Option

section

variable {σ : Type*} (step : Nat → σ → Option σ)

/-- The state after some rounds, none once the loop is left. -/
def after : Nat → σ → Option σ
  | 0, s => some s
  | rounds + 1, s => (after rounds s).bind (step rounds)

def Leaves (s : σ) : Prop :=
  ∃ rounds, after step rounds s = none

theorem after_succ (rounds : Nat) (s : σ) :
    after step (rounds + 1) s = (step 0 s).bind (after (fun round => step (round + 1)) rounds) := by
  induction rounds with
  | zero =>
    rw [after, after, bind_some]
    cases step 0 s <;> rfl
  | succ rounds ih =>
    rw [after, ih, Option.bind_assoc]
    rfl

theorem leaves_iff (s : σ) :
    Leaves step s ↔ ∀ next, step 0 s = some next → Leaves (fun round => step (round + 1)) next := by
  constructor
  · rintro ⟨rounds, left⟩ next stays
    cases rounds with
    | zero => cases left
    | succ rounds =>
      rw [after_succ, stays, bind_some] at left
      exact ⟨rounds, left⟩
  · intro goesOn
    cases first : step 0 s with
    | none => exact ⟨1, by rw [after_succ, first, bind_none]⟩
    | some next =>
      obtain ⟨rounds, left⟩ := goesOn next first
      exact ⟨rounds + 1, by rw [after_succ, first, bind_some, left]⟩

end

/-- The loop is left, and every other round takes something from the queue. -/
structure EndsConsuming {α : Type*} (step : Nat → List α → Option (List α)) (pending : List α) : Prop where
  leaves : Leaves step pending
  consumes : ∀ rounds reached rest, after step rounds pending = some reached →
    step rounds reached = some rest → rest.length < reached.length

section

variable {α ω : Type*} (headerSize : Nat) (packetLength : List α → Int) {decides : List α → Bool}

/-- One round: the header is looked at, the packet waited for and read. A negative number is never
read. -/
def receive (stays : List α → Bool) (pending : List α) : Option (List α) :=
  if pending.length < headerSize then none
  else
    let length := packetLength (pending.take headerSize)
    if (pending.length : Int) < length then none
    else
      let packet := pending.take length.toNat
      if (packet.length : Int) ≠ length then none
      else if stays packet then some (pending.drop length.toNat)
      else none

/-- A packet at the front that is read with `count` symbols. -/
def Front (pending : List α) (count : Nat) : Prop :=
  headerSize ≤ pending.length ∧ packetLength (pending.take headerSize) = count ∧ count ≤ pending.length

variable {headerSize packetLength}

theorem receive_eq_some_iff {stays : List α → Bool} {pending rest : List α} :
    receive headerSize packetLength stays pending = some rest ↔
      ∃ count, Front headerSize packetLength pending count ∧ stays (pending.take count) ∧
        rest = pending.drop count := by
  unfold receive
  constructor
  · intro received
    split at received
    · cases received
    rename_i header
    dsimp only at received
    split at received
    · cases received
    split at received
    · cases received
    split at received
    · rename_i on
      exact ⟨_, ⟨Nat.not_lt.mp header, by omega, by omega⟩, on, (some.inj received).symm⟩
    · cases received
  · rintro ⟨count, ⟨header, length, inside⟩, on, rfl⟩
    have whole : ((pending.take count).length : Int) = count := by
      rw [List.length_take_of_le inside]
    simp only [length, Int.toNat_natCast, if_neg (Nat.not_lt.mpr header),
      if_neg (show ¬ (pending.length : Int) < count by omega), whole, ne_eq, not_true_eq_false, if_false,
      on, if_true]

variable (headerSize packetLength) (May : List α → Prop)

/-- A packet without any symbol is met, maybe behind packets after which the loop may go on. -/
inductive MeetsEmpty : List α → Prop
  | here (pending : List α) (front : Front headerSize packetLength pending 0) : MeetsEmpty pending
  | later (pending : List α) (count : Nat) (front : Front headerSize packetLength pending count)
      (positive : 0 < count) (may : May (pending.take count)) (rest : MeetsEmpty (pending.drop count)) :
      MeetsEmpty pending

variable {headerSize packetLength May} {stays : Nat → List α → Bool} {pending : List α}

theorem receive_of_not_meetsEmpty (allowed : ∀ packet, decides packet → May packet)
    (clear : ¬ MeetsEmpty headerSize packetLength May pending) {rest : List α}
    (received : receive headerSize packetLength decides pending = some rest) :
    rest.length < pending.length ∧ ¬ MeetsEmpty headerSize packetLength May rest := by
  obtain ⟨count, front, on, rfl⟩ := receive_eq_some_iff.mp received
  have pos : 0 < count := by
    refine Nat.pos_of_ne_zero ?_
    rintro rfl
    exact clear (.here pending front)
  constructor
  · rw [List.length_drop]
    have inside := front.2.2
    omega
  · exact fun later => clear (.later pending count front pos (allowed _ on) later)

section

variable (allowed : ∀ round packet, stays round packet → May packet)
  (clear : ¬ MeetsEmpty headerSize packetLength May pending)

include allowed clear

theorem leaves_of_not_meetsEmpty :
    Leaves (fun round => receive headerSize packetLength (stays round)) pending := by
  -- the queue gets shorter; the later rounds are the first ones of a shifted sequence
  induction size : pending.length using Nat.strongRecOn generalizing pending stays with
  | ind size ih =>
    refine (leaves_iff _ _).mpr fun next received => ?_
    obtain ⟨shorter, still⟩ := receive_of_not_meetsEmpty (allowed 0) clear received
    exact ih next.length (size ▸ shorter) (fun round => allowed (round + 1)) still rfl

theorem after_of_not_meetsEmpty {rounds : Nat} {reached : List α}
    (run : after (fun round => receive headerSize packetLength (stays round)) rounds pending =
      some reached) : ¬ MeetsEmpty headerSize packetLength May reached := by
  induction rounds generalizing reached with
  | zero =>
    cases run
    exact clear
  | succ rounds ih =>
    obtain ⟨before, earlier, received⟩ := bind_eq_some_iff.mp run
    exact (receive_of_not_meetsEmpty (allowed rounds) (ih earlier) received).2

end

theorem not_leaves_of_meetsEmpty (goesOn : ∀ packet, May packet → decides packet)
    (empty : May []) (met : MeetsEmpty headerSize packetLength May pending) :
    ¬ Leaves (fun _ => receive headerSize packetLength decides) pending := by
  induction met with
  | here pending front =>
    have again : receive headerSize packetLength decides pending = some pending :=
      receive_eq_some_iff.mpr ⟨0, front, goesOn _ empty, rfl⟩
    rintro ⟨rounds, left⟩
    have stuck : after (fun _ => receive headerSize packetLength decides) rounds pending =
        some pending := by
      clear left
      induction rounds with
      | zero => rfl
      | succ rounds ih => rw [after, ih, bind_some, again]
    rw [stuck] at left
    cases left
  | later pending count front _ may _ ih =>
    intro leaves
    have next : receive headerSize packetLength decides pending = some (pending.drop count) :=
      receive_eq_some_iff.mpr ⟨count, front, goesOn _ may, rfl⟩
    exact ih ((leaves_iff _ _).mp leaves _ next)

variable {decided : ω → Nat → List α → Bool}

/-- The loop ends under all possible decisions exactly if it meets no empty packet. -/
theorem endsConsuming_iff (allowed : ∀ env round packet, decided env round packet → May packet)
    (always : ω) (decides : List α → Bool) (same : decided always = fun _ => decides)
    (goesOn : ∀ packet, May packet → decides packet) (empty : May []) (pending : List α) :
    (∀ env, EndsConsuming (fun round => receive headerSize packetLength (decided env round)) pending) ↔
      ¬ MeetsEmpty headerSize packetLength May pending := by
  constructor
  · intro ends met
    have leaves := (ends always).leaves
    rw [same] at leaves
    exact not_leaves_of_meetsEmpty goesOn empty met leaves
  · intro clear env
    refine ⟨leaves_of_not_meetsEmpty (allowed env) clear, fun rounds reached rest run received => ?_⟩
    exact (receive_of_not_meetsEmpty (allowed env rounds)
      (after_of_not_meetsEmpty (allowed env) clear run) received).1

end

end Epc.Lib.Receive
