import ImageRegistry.Proofs.Step
import Mathlib.Order.Defs.Unbundled

/-!
# Where an action gets

An action that is put together ends with a value when all of its parts do (`run_bind_eq_done`), and
the state that it leaves is that of its last part. `Moves R act` says that it leaves each state
related to the one that it found. When `R` is a preorder this is put together from the parts like
the action itself, whether or not they end with a value, because what was changed before an error is
not taken back.
-/

namespace ImageRegistry

/-- The value that an action ends with, if it ends with one. -/
def Outcome.value? {ε α : Type} : Outcome ε α → Option α
  | .done value => some value
  | .failed _ => none
  | .stuck => none

theorem Outcome.value?_eq_some_iff {ε α : Type} {outcome : Outcome ε α} {value : α} :
    outcome.value? = some value ↔ outcome = .done value := by
  cases outcome <;> simp [value?]

namespace Action

variable {σ τ ε ε' α β : Type} {s t u : σ} {a : α} {b : β}

/-! ### Ends and states -/

/-- An action that ends with a value has done so in both of its parts. -/
theorem run_bind_eq_done {act : Action σ ε α} {next : α → Action σ ε β} :
    (act >>= next).run s = (.done b, u) ↔
      ∃ a t, act.run s = (.done a, t) ∧ (next a).run t = (.done b, u) := by
  rw [run_bind]
  constructor
  · intro h
    rcases hact : act.run s with ⟨a | _ | _, t⟩
    · rw [hact] at h
      exact ⟨a, t, rfl, h⟩
    · rw [hact] at h
      cases h
    · rw [hact] at h
      cases h
  · rintro ⟨a, t, hact, hnext⟩
    rw [hact]
    exact hnext

theorem run_ofExcept_eq_done {lift : ε' → ε} {result : Except ε' α} :
    (ofExcept lift result).run s = (.done a, t) ↔ result = .ok a ∧ s = t := by
  cases result with
  | error error => simp
  | ok value => simp

/-- When an action ends with a value, it does not matter what its errors are put into. -/
theorem run_mapError_eq_done {f : ε → ε'} {act : Action σ ε α} :
    (act.mapError f).run s = (.done a, t) ↔ act.run s = (.done a, t) := by
  rw [run_mapError]
  rcases act.run s with ⟨_ | _ | _, u⟩ <;> simp

/-- What is made of the value of an action changes nothing. -/
theorem snd_run_map (act : Action σ ε α) (f : α → β) (s : σ) :
    ((act >>= fun a ↦ pure (f a)).run s).2 = (act.run s).2 := by
  rw [run_bind]
  rcases act.run s with ⟨_ | _ | _, t⟩ <;> rfl

theorem snd_run_ofStep (step : Step σ ε α) (s : σ) : ((ofStep step).run s).2 = (step.on s).2 := by
  show (ofStep step s).2 = _
  rw [ofStep]
  rcases step.on s with ⟨_ | _, t⟩ <;> rfl

theorem run_ofStep_of_ok {step : Step σ ε α} (h : step.on s = (.ok a, t)) :
    (ofStep step).run s = (.done a, t) := by
  show ofStep step s = _
  rw [ofStep, h]

theorem run_ofStep_of_error {step : Step σ ε α} {error : ε} (h : step.on s = (.error error, t)) :
    (ofStep step).run s = (.failed error, t) := by
  show ofStep step s = _
  rw [ofStep, h]

/-! ### Properties that are put together -/

/-- A property that an action has when all of its parts have it. What makes an action of its parts
is then gone through once, for whatever is to be proved of it. -/
structure Composes (P : ∀ ε α : Type, Action σ ε α → Prop) : Prop where
  pure : ∀ {ε α : Type} (value : α), P ε α (Pure.pure value)
  fail : ∀ {ε α : Type} (error : ε), P ε α (fail error)
  reading : ∀ {ε α : Type} (read : σ → α), P ε α (reading read)
  bind : ∀ {ε α β : Type} {act : Action σ ε α} {next : α → Action σ ε β},
    P ε α act → (∀ a, P ε β (next a)) → P ε β (act >>= next)
  mapError : ∀ {ε ε' α : Type} {act : Action σ ε α} (f : ε → ε'),
    P ε α act → P ε' α (act.mapError f)
  attempt : ∀ {ε ε' α : Type} {act : Action σ ε α},
    P ε α act → P ε' (Except ε α) act.attempt

theorem Composes.ofExcept {P : ∀ ε α : Type, Action σ ε α → Prop} (h : Composes P)
    (lift : ε' → ε) (result : Except ε' α) : P ε α (ofExcept lift result) := by
  cases result with
  | ok value => exact h.pure value
  | error error => exact h.fail (lift error)

/-! ### Related states -/

/-- From each state the action gets to one that is related to it. -/
def Moves (R : σ → σ → Prop) (act : Action σ ε α) : Prop := ∀ s, R s (act.run s).2

variable {R : σ → σ → Prop} {act : Action σ ε α}

theorem moves_mapError (f : ε → ε') (hact : Moves R act) : Moves R (act.mapError f) := by
  intro s
  have hs := hact s
  rw [run_mapError]
  rcases hrun : act.run s with ⟨value | error | _, t⟩ <;> rwa [hrun] at hs

theorem moves_attempt (hact : Moves R act) :
    Moves R (act.attempt : Action σ ε' (Except ε α)) := by
  intro s
  have hs := hact s
  rw [run_attempt]
  rcases hrun : act.run s with ⟨value | error | _, t⟩ <;> rwa [hrun] at hs

variable [IsPreorder σ R]

theorem moves_pure (value : α) : Moves R (pure value : Action σ ε α) := fun s ↦ refl s

theorem moves_fail (error : ε) : Moves R (fail error : Action σ ε α) := fun s ↦ refl s

theorem moves_reading (read : σ → α) : Moves R (reading read : Action σ ε α) := fun s ↦ refl s

theorem moves_bind {next : α → Action σ ε β} (hact : Moves R act) (hnext : ∀ a, Moves R (next a)) :
    Moves R (act >>= next) := by
  intro s
  have hs := hact s
  rw [run_bind]
  rcases hrun : act.run s with ⟨value | error | _, t⟩
  · rw [hrun] at hs
    exact IsTrans.trans _ _ _ hs (hnext value t)
  · rwa [hrun] at hs
  · rwa [hrun] at hs

theorem composes_moves (R : σ → σ → Prop) [IsPreorder σ R] :
    Composes fun ε α (act : Action σ ε α) ↦ Moves R act where
  pure := moves_pure
  fail := moves_fail
  reading := moves_reading
  bind := moves_bind
  mapError := moves_mapError
  attempt := moves_attempt

end Action

end ImageRegistry
