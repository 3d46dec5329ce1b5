import Mathlib

/-! Runs of a deterministic step function over a list of events, and the invariant rule for the
runs whose events are all admitted by a guard in the state they meet. The steps may fail. -/

namespace Epc.Lib

section

theorem except_ok_bind {ε α β : Type} (a : α) (next : α → Except ε β) :
    (Except.ok a : Except ε α) >>= next = next a := rfl

theorem except_error_bind {ε α β : Type} (fault : ε) (next : α → Except ε β) :
    (Except.error fault : Except ε α) >>= next = .error fault := rfl

theorem except_bind_ok {ε α β : Type} {value : Except ε α} {next : α → Except ε β} {result : β}
    (run : value >>= next = .ok result) : ∃ a, value = .ok a ∧ next a = .ok result := by
  cases value with
  | error fault => cases run
  | ok a => exact ⟨a, rfl, run⟩

end

namespace Run

variable {State Event : Type*} (step : State → Event → State) (ok : State → Event → Prop)

def run (s : State) (events : List Event) : State :=
  events.foldl step s

@[simp] theorem run_nil (s : State) : run step s [] = s := rfl

@[simp] theorem run_cons (s : State) (e : Event) (es : List Event) :
    run step s (e :: es) = run step (step s e) es := rfl

theorem run_append (s : State) (es fs : List Event) :
    run step s (es ++ fs) = run step (run step s es) fs := by
  simp [run, List.foldl_append]

/-- Every event of the list is admitted by `ok` in the state it is applied to. -/
def Guarded : State → List Event → Prop
  | _, [] => True
  | s, e :: es => ok s e ∧ Guarded (step s e) es

@[simp] theorem guarded_nil (s : State) : Guarded step ok s [] := trivial

@[simp] theorem guarded_cons (s : State) (e : Event) (es : List Event) :
    Guarded step ok s (e :: es) ↔ ok s e ∧ Guarded step ok (step s e) es := Iff.rfl

instance decidableGuarded [∀ s e, Decidable (ok s e)] :
    ∀ (s : State) (es : List Event), Decidable (Guarded step ok s es)
  | _, [] => isTrue trivial
  | s, e :: es =>
    have := decidableGuarded (step s e) es
    inferInstanceAs (Decidable (ok s e ∧ Guarded step ok (step s e) es))

theorem guarded_append (s : State) (es fs : List Event) :
    Guarded step ok s (es ++ fs) ↔
      Guarded step ok s es ∧ Guarded step ok (run step s es) fs := by
  induction es generalizing s with
  | nil => simp
  | cons e es ih => simp [ih, and_assoc]

variable {step ok}

variable {s : State}

theorem Guarded.of_prefix {pre events : List Event} (guarded : Guarded step ok s events)
    (isPrefix : pre <+: events) : Guarded step ok s pre := by
  obtain ⟨rest, rfl⟩ := isPrefix
  exact ((guarded_append step ok s pre rest).mp guarded).1

/-- A guard and what holds of the events in every state are one guard. -/
theorem Guarded.and_forall {events : List Event} {P : Event → Prop} (guarded : Guarded step ok s events)
    (all : ∀ e ∈ events, P e) : Guarded step (fun s e => P e ∧ ok s e) s events := by
  induction events generalizing s with
  | nil => trivial
  | cons e es ih =>
    rw [List.forall_mem_cons] at all
    exact ⟨⟨all.1, guarded.1⟩, ih guarded.2 all.2⟩

/-- What holds initially and every admitted step keeps, holds after a guarded run. -/
theorem Guarded.invariant {events : List Event} (guarded : Guarded step ok s events)
    (Inv : State → Prop) (initial : Inv s) (preserved : ∀ s e, Inv s → ok s e → Inv (step s e)) :
    Inv (run step s events) := by
  induction events generalizing s with
  | nil => exact initial
  | cons e es ih => exact ih guarded.2 (preserved s e initial guarded.1)

/-- The same for an invariant that every step keeps, admitted or not. -/
theorem run_invariant (Inv : State → Prop) (events : List Event) (initial : Inv s)
    (preserved : ∀ s e, Inv s → Inv (step s e)) : Inv (run step s events) := by
  induction events generalizing s with
  | nil => exact initial
  | cons e es ih => exact ih (preserved s e initial)

section

variable {events before : List Event} {e : Event} (guarded : Guarded step ok s events)
  (isPrefix : before ++ [e] <+: events)

include guarded isPrefix

/-- Before an event of a guarded run the invariant holds and the event is admitted. -/
theorem Guarded.inv_at (Inv : State → Prop) (initial : Inv s)
    (preserved : ∀ s e, Inv s → ok s e → Inv (step s e)) :
    Inv (run step s before) ∧ ok (run step s before) e := by
  obtain ⟨admitted, due, -⟩ := (guarded_append _ _ _ _ _).mp (guarded.of_prefix isPrefix)
  exact ⟨admitted.invariant Inv initial preserved, due⟩

/-- Every admitted operation of a run has a result that keeps the invariant. -/
theorem Guarded.exec_at (exec : State → Event → Option State) (Inv : State → Prop)
    (initial : Inv s) (steps : ∀ s e, step s e = (exec s e).getD s)
    (stepped : ∀ s e, Inv s → ok s e → ∃ s', exec s e = some s' ∧ Inv s') :
    ∃ s', exec (run step s before) e = some s' ∧ Inv s' := by
  obtain ⟨inv, due⟩ := guarded.inv_at isPrefix Inv initial fun s e inv ok => by
    obtain ⟨s', done, inv'⟩ := stepped s e inv ok
    rwa [steps, done]
  exact stepped _ e inv due

end

/-- The state after an operation: one that fails leaves it. -/
def attempt {ε : Type*} (exec : Event → State → Except ε State) (s : State) (e : Event) : State :=
  match exec e s with
  | .ok s' => s'
  | .error _ => s

theorem attempt_ok {ε : Type*} {exec : Event → State → Except ε State} {s' : State} {e : Event}
    (done : exec e s = .ok s') : attempt exec s e = s' := by
  rw [attempt, done]

end Run

end Epc.Lib
