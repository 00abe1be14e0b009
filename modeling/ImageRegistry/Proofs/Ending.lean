import ImageRegistry.Proofs.Action

/-!
# Actions that come to an end

An action may wait for what never comes. `Ends I act` says that it does not do so in a state with
`I`, and that it leaves such a state behind, so that the next action does not do so either. It is
put together from the parts of an action, like `Moves`; that an action fails is an end as well.
-/

namespace ImageRegistry

/-- An action that ends so has come to an end. -/
def Outcome.IsEnd {ε α : Type} : Outcome ε α → Prop
  | done _ => True
  | failed _ => True
  | stuck => False

theorem Outcome.isEnd_iff {ε α : Type} {outcome : Outcome ε α} :
    outcome.IsEnd ↔ outcome ≠ .stuck := by
  cases outcome <;> simp [IsEnd]

namespace Action

variable {σ τ ε ε' α β : Type} {I : σ → Prop} {act : Action σ ε α}

/-- From each state with `I` the action comes to an end, and it leaves a state with `I`. -/
def Ends (I : σ → Prop) (act : Action σ ε α) : Prop :=
  ∀ s, I s → (act.run s).1.IsEnd ∧ I (act.run s).2

theorem ends_pure (value : α) : Ends I (pure value : Action σ ε α) :=
  fun _ hs ↦ ⟨trivial, hs⟩

theorem ends_fail (error : ε) : Ends I (fail error : Action σ ε α) :=
  fun _ hs ↦ ⟨trivial, hs⟩

theorem ends_reading (read : σ → α) : Ends I (reading read : Action σ ε α) :=
  fun _ hs ↦ ⟨trivial, hs⟩

theorem ends_changing {f : σ → α × σ} (h : ∀ s, I s → I (f s).2) :
    Ends I (changing f : Action σ ε α) :=
  fun s hs ↦ ⟨trivial, h s hs⟩

theorem ends_ofStep {step : Step σ ε α} (h : ∀ s, I s → I (step.on s).2) :
    Ends I (ofStep step) := by
  intro s hs
  have hkept := h s hs
  rcases hon : step.on s with ⟨error | value, t⟩
  · rw [hon] at hkept
    rw [run_ofStep_of_error hon]
    exact ⟨trivial, hkept⟩
  · rw [hon] at hkept
    rw [run_ofStep_of_ok hon]
    exact ⟨trivial, hkept⟩

theorem ends_bind {next : α → Action σ ε β} (hact : Ends I act) (hnext : ∀ a, Ends I (next a)) :
    Ends I (act >>= next) := by
  intro s hs
  have hends := hact s hs
  rw [run_bind]
  rcases hrun : act.run s with ⟨value | error | _, t⟩
  · rw [hrun] at hends
    exact hnext value t hends.2
  · rw [hrun] at hends
    exact ⟨trivial, hends.2⟩
  · rw [hrun] at hends
    exact hends.1.elim

theorem ends_mapError (f : ε → ε') (hact : Ends I act) : Ends I (act.mapError f) := by
  intro s hs
  have hends := hact s hs
  rw [run_mapError]
  rcases hrun : act.run s with ⟨value | error | _, t⟩
  · rw [hrun] at hends
    exact ⟨trivial, hends.2⟩
  · rw [hrun] at hends
    exact ⟨trivial, hends.2⟩
  · rw [hrun] at hends
    exact hends.1.elim

theorem ends_attempt (hact : Ends I act) :
    Ends I (act.attempt : Action σ ε' (Except ε α)) := by
  intro s hs
  have hends := hact s hs
  rw [run_attempt]
  rcases hrun : act.run s with ⟨value | error | _, t⟩
  · rw [hrun] at hends
    exact ⟨trivial, hends.2⟩
  · rw [hrun] at hends
    exact ⟨trivial, hends.2⟩
  · rw [hrun] at hends
    exact hends.1.elim

theorem composes_ends (I : σ → Prop) : Composes fun ε α (act : Action σ ε α) ↦ Ends I act where
  pure := ends_pure
  fail := ends_fail
  reading := ends_reading
  bind := ends_bind
  mapError := ends_mapError
  attempt := ends_attempt

/-- On a part of a state, when the part is as it should be and may be put back. -/
theorem ends_within {J : τ → Prop} {part : τ → σ} {replace : σ → τ → τ} (hact : Ends I act)
    (hpart : ∀ t, J t → I (part t)) (hreplace : ∀ s t, J t → I s → J (replace s t)) :
    Ends J (act.within part replace) := by
  intro t ht
  obtain ⟨hends, hleft⟩ := hact (part t) (hpart t ht)
  exact ⟨hends, hreplace _ t ht hleft⟩

end Action

end ImageRegistry
