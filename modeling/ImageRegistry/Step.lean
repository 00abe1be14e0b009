import ImageRegistry.Action

/-!
# Steps

A `Step σ ε α` works on a store of type `σ` and always ends, with a value or with an error. It does
one thing after the other, and an error does not take back what was changed before it, so it is the
order of checks and changes that keeps a store whole when a step fails.

`Step.result` is for those who only want the store of a step that succeeds, `Action.ofStep` takes a
step as an action.
-/

namespace ImageRegistry

/-- A step on a store. It ends with a value or with an error, and an error does not take back what
was changed before it. -/
abbrev Step (σ ε α : Type) : Type := ExceptT ε (StateM σ) α

namespace Step

variable {σ ε α β : Type}

/-- How a step ends on a store, and the store after it. -/
def on (step : Step σ ε α) (s : σ) : Except ε α × σ := step.run.run s

/-- Ends as a check says. -/
def ofExcept (result : Except ε α) : Step σ ε α := ExceptT.mk (pure result)

/-- The value of a step and the store after it. With an error there is no store. -/
def result (step : Step σ ε α) (s : σ) : Except ε (α × σ) :=
  match step.on s with
  | (.ok value, t) => .ok (value, t)
  | (.error error, _) => .error error

/-- The step that gives the value and the store of a result, and changes nothing if there is
none. -/
def ofResult (change : σ → Except ε (α × σ)) : Step σ ε α :=
  ExceptT.mk fun s ↦ match change s with
    | .ok (value, t) => (.ok value, t)
    | .error error => (.error error, s)

/-! ### What each step does to a store -/

@[simp] theorem on_pure (value : α) (s : σ) : (pure value : Step σ ε α).on s = (.ok value, s) := rfl

@[simp] theorem on_throw (error : ε) (s : σ) :
    (throw error : Step σ ε α).on s = (.error error, s) := rfl

@[simp] theorem on_get (s : σ) : (get : Step σ ε σ).on s = (.ok s, s) := rfl

@[simp] theorem on_modify (f : σ → σ) (s : σ) :
    (modify f : Step σ ε Unit).on s = (.ok (), f s) := rfl

@[simp] theorem on_ofExcept (result : Except ε α) (s : σ) :
    (ofExcept result : Step σ ε α).on s = (result, s) := rfl

theorem on_ofResult (change : σ → Except ε (α × σ)) (s : σ) :
    (ofResult change).on s = match change s with
      | .ok (value, t) => (.ok value, t)
      | .error error => (.error error, s) := rfl

/-- The second step is not begun if the first one gives no value. -/
theorem on_bind (step : Step σ ε α) (next : α → Step σ ε β) (s : σ) :
    (step >>= next).on s = match step.on s with
      | (.ok value, t) => (next value).on t
      | (.error error, t) => (.error error, t) := by
  show (match step.on s with
    | (outcome, t) => (ExceptT.bindCont next outcome).run t) = _
  rcases step.on s with ⟨_ | _, t⟩ <;> rfl

@[simp] theorem result_pure (value : α) (s : σ) :
    (pure value : Step σ ε α).result s = .ok (value, s) := rfl

@[simp] theorem result_throw (error : ε) (s : σ) :
    (throw error : Step σ ε α).result s = .error error := rfl

@[simp] theorem result_modify (f : σ → σ) (s : σ) :
    (modify f : Step σ ε Unit).result s = .ok ((), f s) := rfl

@[simp] theorem result_get_bind (next : σ → Step σ ε β) (s : σ) :
    (get >>= next).result s = (next s).result s := rfl

@[simp] theorem result_modify_bind (f : σ → σ) (next : Unit → Step σ ε β) (s : σ) :
    ((modify f : Step σ ε Unit) >>= next).result s = (next ()).result (f s) := rfl

@[simp] theorem result_ofExcept_bind (outcome : Except ε α) (next : α → Step σ ε β) (s : σ) :
    (ofExcept outcome >>= next).result s = outcome >>= fun a ↦ (next a).result s := by
  cases outcome <;> rfl

end Step

/-- A step as an action. -/
def Action.ofStep {σ ε α : Type} (step : Step σ ε α) : Action σ ε α := fun s ↦
  match step.on s with
  | (.ok value, t) => (.done value, t)
  | (.error error, t) => (.failed error, t)

end ImageRegistry
