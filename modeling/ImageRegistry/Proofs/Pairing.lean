import ImageRegistry.Proofs.Action

/-!
# Two actions that go the same way

`Paired Q R` relates the ends of two actions: both end with values that are related by `R`, or both
fail with the same error, or both wait for ever, and their states are related by `Q` each time. It
is put together along the actions (`Paired.bind`); as long as they do the same thing in the same
state, what they did is known of both (`paired_bind_of_same`).
-/

namespace ImageRegistry.Action

variable {σ τ ε ε' α α' β β' : Type}

/-- Two actions end in the same way, with related values in related states. -/
inductive Paired (Q : σ → σ → Prop) (R : α → α' → Prop) :
    Outcome ε α × σ → Outcome ε α' × σ → Prop where
  | done {a : α} {b : α'} {s t : σ} (value : R a b) (state : Q s t) :
    Paired Q R (.done a, s) (.done b, t)
  | failed {s t : σ} (error : ε) (state : Q s t) : Paired Q R (.failed error, s) (.failed error, t)
  | stuck {s t : σ} (state : Q s t) : Paired Q R (.stuck, s) (.stuck, t)

variable {Q : σ → σ → Prop} {R : α → α' → Prop} {S : β → β' → Prop} {s t : σ}

/-- States are related by what is seen of them. -/
instance reflView {ω : Type} (view : σ → ω) : Std.Refl fun s t ↦ view s = view t :=
  ⟨fun _ ↦ rfl⟩

/-- The same action in the same state goes the same way. -/
theorem paired_bind_of_same [Std.Refl Q] {act : Action σ ε α} {next : α → Action σ ε β}
    {next' : α → Action σ ε β'}
    (hnext : ∀ a t, act.run s = (.done a, t) → Paired Q S ((next a).run t) ((next' a).run t)) :
    Paired Q S ((act >>= next).run s) ((act >>= next').run s) := by
  rw [run_bind, run_bind]
  rcases hrun : act.run s with ⟨a | error | _, t⟩
  · exact hnext a t hrun
  · exact .failed error (refl t)
  · exact .stuck (refl t)

/-- What comes after two paired actions may be told from their values and states alone. -/
theorem Paired.bind {act : Action σ ε α} {act' : Action σ ε α'} {next : α → Action σ ε β}
    {next' : α' → Action σ ε β'} (h : Paired Q R (act.run s) (act'.run t))
    (hnext : ∀ a b u v, R a b → Q u v → Paired Q S ((next a).run u) ((next' b).run v)) :
    Paired Q S ((act >>= next).run s) ((act' >>= next').run t) := by
  rw [run_bind, run_bind]
  generalize act.run s = result, act'.run t = result' at h
  cases h with
  | done value state => exact hnext _ _ _ _ value state
  | failed error state => exact .failed error state
  | stuck state => exact .stuck state

theorem Paired.mapError {act : Action σ ε α} {act' : Action σ ε α'}
    (h : Paired Q R (act.run s) (act'.run t)) (f : ε → ε') :
    Paired Q R ((act.mapError f).run s) ((act'.mapError f).run t) := by
  rw [run_mapError, run_mapError]
  generalize act.run s = result, act'.run t = result' at h
  cases h with
  | done value state => exact .done value state
  | failed error state => exact .failed (f error) state
  | stuck state => exact .stuck state

/-- An error that is made a value is the same one. -/
theorem Paired.attempt {act act' : Action σ ε α} (h : Paired Q Eq (act.run s) (act'.run t)) :
    Paired Q Eq ((act.attempt : Action σ ε' _).run s) ((act'.attempt : Action σ ε' _).run t) := by
  rw [run_attempt, run_attempt]
  generalize act.run s = result, act'.run t = result' at h
  cases h with
  | done value state => exact .done (congrArg Except.ok value) state
  | failed error state => exact .done rfl state
  | stuck state => exact .stuck state

/-- On parts of two states, when related parts make related states. -/
theorem Paired.within {P : τ → τ → Prop} {part : τ → σ} {replace : σ → τ → τ}
    {act : Action σ ε α} {act' : Action σ ε α'} {w w' : τ}
    (h : Paired Q R (act.run (part w)) (act'.run (part w')))
    (hreplace : ∀ u v, Q u v → P (replace u w) (replace v w')) :
    Paired P R ((act.within part replace).run w) ((act'.within part replace).run w') := by
  rw [run_within, run_within]
  generalize act.run (part w) = result, act'.run (part w') = result' at h
  cases h with
  | done value state => exact .done value (hreplace _ _ state)
  | failed error state => exact .failed error (hreplace _ _ state)
  | stuck state => exact .stuck (hreplace _ _ state)

end ImageRegistry.Action
