import ImageRegistry.Step

/-!
# Steps that succeed and steps that fail

Of a failure there is one thing to say, and it is the same for every step on a store: `Step.Atomic`,
a step that fails changes nothing. It rests on the order in which a step goes.
`atomic_bind_of_looks` lets checks come first, which can fail because nothing was changed yet, and
`atomic_of_certain` lets changes come after them, because they cannot fail. A step that changed
something before its last check would be atomic by neither.
-/

namespace ImageRegistry

/-- A result that comes from another result succeeds when both do. -/
theorem bind_eq_ok_iff {ε α β : Type} {result : Except ε α} {next : α → Except ε β} {b : β} :
    (result >>= next) = .ok b ↔ ∃ a, result = .ok a ∧ next a = .ok b := by
  cases result with
  | error e => simp [bind, Except.bind]
  | ok a => simp [bind, Except.bind]

/-- It fails when one of them does, with the error of the first one that does. -/
theorem bind_eq_error_iff {ε α β : Type} {result : Except ε α} {next : α → Except ε β}
    {error : ε} : (result >>= next) = .error error ↔
      result = .error error ∨ ∃ a, result = .ok a ∧ next a = .error error := by
  cases result with
  | error e => simp [bind, Except.bind]
  | ok a => simp [bind, Except.bind]

/-- Results are collected alike if each of them is the same. -/
theorem mapM_congr {ε α β : Type} {f g : α → Except ε β} {l : List α} (h : ∀ a ∈ l, f a = g a) :
    l.mapM f = l.mapM g := by
  induction l with
  | nil => rfl
  | cons a rest ih =>
    rw [List.mapM_cons, List.mapM_cons, h a List.mem_cons_self,
      ih fun b hb ↦ h b (List.mem_cons_of_mem a hb)]

/-- Results of which none is an error are all collected. -/
theorem mapM_eq_ok {ε α β : Type} {f : α → Except ε β} {g : α → β} {l : List α}
    (h : ∀ a ∈ l, f a = .ok (g a)) : l.mapM f = .ok (l.map g) :=
  (mapM_congr h).trans List.mapM_pure

/-- What is collected comes from something in the list. -/
theorem mem_of_mapM_eq_ok {ε α β : Type} {f : α → Except ε β} {l : List α} {collected : List β}
    (h : l.mapM f = .ok collected) {b : β} : b ∈ collected ↔ ∃ a ∈ l, f a = .ok b := by
  induction l generalizing collected with
  | nil =>
    rw [List.mapM_nil] at h
    rw [← Except.ok.inj h]
    simp
  | cons a rest ih =>
    rw [List.mapM_cons] at h
    obtain ⟨first, hfirst, h⟩ := bind_eq_ok_iff.1 h
    obtain ⟨more, hmore, h⟩ := bind_eq_ok_iff.1 h
    rw [← Except.ok.inj h]
    simp [ih hmore, hfirst, eq_comm]

namespace Step

variable {σ ε α β : Type} {step : Step σ ε α} {next : α → Step σ ε β}

theorem result_eq_ok_iff {s t : σ} {a : α} :
    step.result s = .ok (a, t) ↔ step.on s = (.ok a, t) := by
  rw [result]
  rcases step.on s with ⟨_ | _, u⟩ <;> simp

/-- A step that looks at the store and does not change it. -/
def Looks (step : Step σ ε α) : Prop := ∀ s, (step.on s).2 = s

/-- A step that cannot fail. -/
def Certain (step : Step σ ε α) : Prop := ∀ s, ∃ a, (step.on s).1 = .ok a

/-- A step that changes nothing when it fails. -/
def Atomic (step : Step σ ε α) : Prop := ∀ s error t, step.on s = (.error error, t) → t = s

theorem looks_ofExcept (outcome : Except ε α) : Looks (ofExcept outcome : Step σ ε α) :=
  fun _ ↦ rfl

theorem looks_get : Looks (get : Step σ ε σ) := fun _ ↦ rfl

theorem looks_throw (error : ε) : Looks (throw error : Step σ ε α) := fun _ ↦ rfl

theorem certain_pure (value : α) : Certain (pure value : Step σ ε α) := fun _ ↦ ⟨value, rfl⟩

theorem certain_modify (f : σ → σ) : Certain (modify f : Step σ ε Unit) := fun _ ↦ ⟨(), rfl⟩

theorem certain_bind (hstep : Certain step) (hnext : ∀ a, Certain (next a)) :
    Certain (step >>= next) := by
  intro s
  obtain ⟨a, ha⟩ := hstep s
  rw [on_bind]
  rcases hon : step.on s with ⟨outcome, t⟩
  rw [hon] at ha
  cases ha
  exact hnext a t

theorem atomic_of_looks (h : Looks step) : Atomic step := by
  intro s error t hon
  have hsame := h s
  rwa [hon] at hsame

/-- A change can only come where nothing fails after it. -/
theorem atomic_of_certain (h : Certain step) : Atomic step := by
  intro s error t hon
  obtain ⟨a, ha⟩ := h s
  rw [hon] at ha
  cases ha

/-- A check can come first, whatever it finds. -/
theorem atomic_bind_of_looks (hstep : Looks step) (hnext : ∀ a, Atomic (next a)) :
    Atomic (step >>= next) := by
  intro s error t hon
  have hsame := hstep s
  rw [on_bind] at hon
  rcases hfirst : step.on s with ⟨outcome, u⟩
  rw [hfirst] at hon hsame
  have hu : u = s := hsame
  subst hu
  cases outcome with
  | error e =>
    cases hon
    rfl
  | ok a => exact hnext a u error t hon

/-- Nothing is lost with the store of a failure when a step is atomic: its result is the step. -/
theorem ofResult_result (h : step.Atomic) : ofResult step.result = step := by
  have hon (s : σ) : (ofResult step.result).on s = step.on s := by
    rw [on_ofResult, result]
    rcases hstep : step.on s with ⟨error | value, t⟩
    · rw [h s error t hstep]
    · rfl
  exact funext hon

end Step

end ImageRegistry
