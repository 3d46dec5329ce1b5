import Mathlib.Data.List.Basic

/-! Messages sent one after another over a stream of symbols that arrives in pieces. The receiver looks at
what is pending and handles a message when it is complete. -/

namespace Epc.Lib.Stream

open List

/-- What the receiver finds at the front of what is pending. -/
inductive Look (α β : Type*) where
  | short
  | bad
  | message (value : β) (rest : List α)

section

variable {α β σ : Type*} (look : List α → Look α β) (handle : σ → β → Option σ)

/-- The messages that are complete are handled; `fuel` bounds their number. -/
def drain : Nat → List α → σ → Option (List α × σ)
  | 0, _, _ => none
  | fuel + 1, pending, s =>
    match look pending with
    | .short => some (pending, s)
    | .bad => none
    | .message value rest => (handle s value).bind fun s => drain fuel rest s

/-- Every piece that arrives is added to what is pending. -/
def deliver : List (List α) → List α → σ → Option (List α × σ)
  | [], pending, s => some (pending, s)
  | piece :: pieces, pending, s =>
    (drain look handle ((pending ++ piece).length + 1) (pending ++ piece) s).bind fun next =>
      deliver pieces next.1 next.2

end

/-- The receiver finds what the sender wrote, and waits while it is not complete. -/
structure Framing {α β γ : Type*} (look : List α → Look α β) (Valid : γ → Prop) (encode : γ → List α)
    (decode : γ → β) : Prop where
  empty : look [] = .short
  nonempty : ∀ item, Valid item → encode item ≠ []
  whole : ∀ item, Valid item → ∀ rest, look (encode item ++ rest) = .message (decode item) rest
  part : ∀ item, Valid item → ∀ front missing, front ++ missing = encode item → missing ≠ [] →
    look front = .short

theorem append_split {α : Type*} {a b c d : List α} (same : a ++ b = c ++ d) :
    (∃ rest, a = c ++ rest ∧ rest ++ b = d) ∨ ∃ rest, rest ≠ [] ∧ a ++ rest = c ∧ b = rest ++ d := by
  rcases append_eq_append_iff.mp same with ⟨rest, whole, after⟩ | ⟨rest, whole, after⟩
  · by_cases none : rest = []
    · subst none
      exact .inl ⟨[], by simpa using whole.symm, after⟩
    · exact .inr ⟨rest, none, whole.symm, after⟩
  · exact .inl ⟨rest, whole, after.symm⟩

namespace Framing

variable {α β γ σ : Type*} {look : List α → Look α β} {Valid : γ → Prop} {encode : γ → List α}
  {decode : γ → β} (framing : Framing look Valid encode decode) (handle : σ → β → Option σ)

include framing

theorem drain_front (items : List γ) (valid : ∀ item ∈ items, Valid item) (pending missing : List α)
    (front : pending ++ missing = items.flatMap encode) (fuel : Nat) (enough : pending.length < fuel) :
    ∃ done todo rest, items = done ++ todo ∧ rest ++ missing = todo.flatMap encode ∧
      (missing = [] → todo = []) ∧
      ∀ s, drain look handle fuel pending s = ((done.map decode).foldlM handle s).map (rest, ·) := by
  induction items generalizing pending fuel with
  | nil =>
    obtain ⟨rfl, rfl⟩ := append_eq_nil_iff.mp front
    obtain ⟨fuel, rfl⟩ := Nat.exists_eq_succ_of_ne_zero (Nat.ne_of_gt enough)
    refine ⟨[], [], [], rfl, rfl, fun _ => rfl, fun s => ?_⟩
    rw [drain, framing.empty]
    rfl
  | cons item items ih =>
    obtain ⟨first, others⟩ := forall_mem_cons.mp valid
    obtain ⟨fuel, rfl⟩ := Nat.exists_eq_succ_of_ne_zero (Nat.ne_of_gt (Nat.zero_lt_of_lt enough))
    rcases append_split front with ⟨rest, rfl, after⟩ | ⟨rest, more, whole, absent⟩
    · have pos := length_pos_iff.mpr (framing.nonempty item first)
      rw [length_append] at enough
      obtain ⟨done, todo, left, cut, pending, all, handled⟩ :=
        ih others rest after fuel (by omega)
      refine ⟨item :: done, todo, left, by rw [cut, cons_append], pending, all, fun s => ?_⟩
      rw [drain, framing.whole item first, map_cons, foldlM_cons]
      dsimp only
      cases handle s (decode item) with
      | none => rfl
      | some s => exact handled s
    · refine ⟨[], item :: items, pending, rfl, by rwa [flatMap_cons], ?_, fun s => ?_⟩
      · rintro rfl
        exact absurd (append_eq_nil_iff.mp absent.symm).1 more
      · rw [drain, framing.part item first pending rest whole more]
        rfl

/-- However a stream is cut, its messages are handled one after another. -/
theorem deliver_stream (pieces : List (List α)) (items : List γ) (valid : ∀ item ∈ items, Valid item)
    (pending : List α) (stream : pending ++ pieces.flatten = items.flatMap encode)
    (settled : pieces = [] → items = []) (s : σ) :
    deliver look handle pieces pending s = ((items.map decode).foldlM handle s).map ([], ·) := by
  induction pieces generalizing items pending s with
  | nil =>
    obtain rfl := settled rfl
    rw [flatten_nil, append_nil, flatMap_nil] at stream
    rw [stream]
    rfl
  | cons piece pieces ih =>
    rw [flatten_cons, ← append_assoc] at stream
    obtain ⟨done, todo, rest, rfl, left, all, handled⟩ :=
      framing.drain_front handle items valid (pending ++ piece) pieces.flatten stream _
        (Nat.lt_succ_self _)
    have later := ih todo (fun item mem => valid item (mem_append_right _ mem)) rest left
      (by rintro rfl; exact all rfl)
    rw [deliver, handled, map_append, foldlM_append]
    cases (done.map decode).foldlM handle s with
    | none => rfl
    | some s => exact later s

end Framing

end Epc.Lib.Stream
