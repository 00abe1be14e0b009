import ImageRegistry.Proofs.Action

/-!
# What an action leaves alone

A *view* is any part of a state. `Keeps view act` says that an action leaves the view as it is,
however it ends; `KeepsUnless granted view act` that it leaves it as it is unless it ends with a
value that is granted. The second is what a refusal needs, and it is put together from the first:
whatever may fail has to come before the change (`keepsUnless_bind`), and what comes after it must
not fail any more (`keepsUnless_bind_of_granted`).
-/

namespace ImageRegistry.Action

variable {σ τ ε ε' α β ω : Type} {view : σ → ω} {act : Action σ ε α}

/-- However the action ends, the view is the same. -/
def Keeps (view : σ → ω) (act : Action σ ε α) : Prop := ∀ s, view (act.run s).2 = view s

/-- The view is the same, or the action ends with a granted value. -/
def KeepsUnless (granted : α → Prop) (view : σ → ω) (act : Action σ ε α) : Prop :=
  ∀ s, view (act.run s).2 = view s ∨ ∃ value, (act.run s).1 = .done value ∧ granted value

/-! ### Actions that keep a view -/

/-- To see the same is a preorder on states, so the rules of `Moves` are those of `Keeps`. -/
instance (view : σ → ω) : IsPreorder σ fun s t ↦ view t = view s where
  refl _ := rfl
  trans _ _ _ hst htu := htu.trans hst

theorem composes_keeps (view : σ → ω) : Composes fun ε α (act : Action σ ε α) ↦ Keeps view act :=
  composes_moves fun s t ↦ view t = view s

theorem keeps_pure (view : σ → ω) (value : α) : Keeps view (pure value : Action σ ε α) :=
  (composes_keeps view).pure value

theorem keeps_fail (view : σ → ω) (error : ε) : Keeps view (fail error : Action σ ε α) :=
  (composes_keeps view).fail error

theorem keeps_reading (view : σ → ω) (read : σ → α) : Keeps view (reading read : Action σ ε α) :=
  (composes_keeps view).reading read

theorem keeps_ofExcept (view : σ → ω) (lift : ε' → ε) (result : Except ε' α) :
    Keeps view (ofExcept lift result) :=
  (composes_keeps view).ofExcept lift result

theorem keeps_bind {next : α → Action σ ε β} (hact : Keeps view act)
    (hnext : ∀ a, Keeps view (next a)) : Keeps view (act >>= next) :=
  (composes_keeps view).bind hact hnext

/-- An action on a part of a state keeps what does not see that part. -/
theorem keeps_within {view : τ → ω} {part : τ → σ} {replace : σ → τ → τ} (act : Action σ ε α)
    (h : ∀ s t, view (replace s t) = view t) : Keeps view (act.within part replace) :=
  fun t ↦ h (act.run (part t)).2 t

/-! ### Actions that change a view when they are granted -/

variable {granted : α → Prop}

theorem keepsUnless_of_keeps (h : Keeps view act) : KeepsUnless granted view act :=
  fun s ↦ Or.inl (h s)

/-- What keeps the view comes first, and may fail. -/
theorem keepsUnless_bind {next : α → Action σ ε β} {granted : β → Prop} (hact : Keeps view act)
    (hnext : ∀ a, KeepsUnless granted view (next a)) : KeepsUnless granted view (act >>= next) := by
  intro s
  have hs := hact s
  rw [run_bind]
  rcases hrun : act.run s with ⟨value | error | _, t⟩
  · rw [hrun] at hs
    rcases hnext value t with hkept | hgranted
    · exact Or.inl (hkept.trans hs)
    · exact Or.inr hgranted
  · rw [hrun] at hs
    exact Or.inl hs
  · rw [hrun] at hs
    exact Or.inl hs

/-- After what was granted comes only what ends with a granted value. -/
theorem keepsUnless_bind_of_granted {next : α → Action σ ε β} {granted' : β → Prop}
    (hact : KeepsUnless granted view act) (hkeeps : ∀ a, Keeps view (next a))
    (hnext : ∀ a, granted a → ∀ s, ∃ b, ((next a).run s).1 = .done b ∧ granted' b) :
    KeepsUnless granted' view (act >>= next) := by
  intro s
  rw [run_bind]
  rcases hact s with hkept | ⟨value, hvalue, hgranted⟩
  · rcases hrun : act.run s with ⟨value | error | _, t⟩
    · rw [hrun] at hkept
      exact Or.inl ((hkeeps value t).trans hkept)
    · rw [hrun] at hkept
      exact Or.inl hkept
    · rw [hrun] at hkept
      exact Or.inl hkept
  · rcases hrun : act.run s with ⟨outcome, t⟩
    rw [hrun] at hvalue
    cases hvalue
    exact Or.inr (hnext value hgranted t)

/-- What is made of a granted value is granted. -/
theorem keepsUnless_map {f : α → β} {granted' : β → Prop} (hact : KeepsUnless granted view act)
    (hf : ∀ a, granted a → granted' (f a)) :
    KeepsUnless granted' view (act >>= fun a ↦ pure (f a)) :=
  keepsUnless_bind_of_granted hact (fun a ↦ keeps_pure view (f a))
    fun a ha _ ↦ ⟨f a, rfl, hf a ha⟩

/-- A change that cannot fail is granted, whatever it changes. -/
theorem keepsUnless_change (view : σ → ω) (f : σ → σ) :
    KeepsUnless (fun _ ↦ True) view (change f : Action σ ε Unit) :=
  fun _ ↦ Or.inr ⟨(), rfl, trivial⟩

/-- A step that changes nothing when it fails, as an action. -/
theorem keepsUnless_ofStep {step : Step σ ε α} (h : step.Atomic) :
    KeepsUnless (fun _ ↦ True) (fun s ↦ s) (ofStep step) := by
  intro s
  show (ofStep step s).2 = s ∨ ∃ value, (ofStep step s).1 = .done value ∧ True
  rw [ofStep]
  rcases hon : step.on s with ⟨error | value, t⟩
  · exact Or.inl (h s error t hon)
  · exact Or.inr ⟨value, rfl, trivial⟩

/-- An action on a part of a state keeps every view if it keeps that part, put back where it was. -/
theorem keepsUnless_within {view : τ → ω} {part : τ → σ} {replace : σ → τ → τ}
    (hact : KeepsUnless granted (fun s ↦ s) act) (h : ∀ t, view (replace (part t) t) = view t) :
    KeepsUnless granted view (act.within part replace) := by
  intro t
  rcases hact (part t) with hkept | hgranted
  · have hsame : (act.run (part t)).2 = part t := hkept
    refine Or.inl ?_
    show view (replace (act.run (part t)).2 t) = view t
    rw [hsame]
    exact h t
  · exact Or.inr hgranted

/-- An error that is made a value was not granted before. -/
theorem keepsUnless_attempt (hact : KeepsUnless granted view act) :
    KeepsUnless (fun result ↦ ∃ value, result = .ok value ∧ granted value) view
      (act.attempt : Action σ ε' (Except ε α)) := by
  intro s
  rw [run_attempt]
  rcases hact s with hkept | ⟨value, hvalue, hgranted⟩
  · rcases hrun : act.run s with ⟨value | error | _, t⟩
    all_goals
      rw [hrun] at hkept
      exact Or.inl hkept
  · rcases hrun : act.run s with ⟨outcome, t⟩
    rw [hrun] at hvalue
    cases hvalue
    exact Or.inr ⟨.ok value, rfl, value, rfl, hgranted⟩

end ImageRegistry.Action
