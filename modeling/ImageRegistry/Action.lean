/-!
# Actions

An `Action σ ε α` is one step of the program: it reads and changes a state of type `σ` and ends with
a value, with an error, or not at all. An error does not take back what was changed before it. An
action that waits for something that never comes is `stuck`, and so is every action that it is part
of; `attempt` turns an error into a value and leaves a stuck action stuck.
-/

namespace ImageRegistry

/-- How an action ends. -/
inductive Outcome (ε α : Type) where
  /-- With a value. -/
  | done (value : α)
  /-- With an error. -/
  | failed (error : ε)
  /-- Never: it waits for what does not come. -/
  | stuck
  deriving Repr, DecidableEq

/-- A step that reads and changes a state. -/
def Action (σ ε α : Type) : Type := σ → Outcome ε α × σ

namespace Action

variable {σ τ ε ε' α β : Type}

/-- The outcome of an action in a state, and the state after it. -/
def run (act : Action σ ε α) (s : σ) : Outcome ε α × σ := act s

/-- Ends with a value at once. -/
def done (value : α) : Action σ ε α := fun s ↦ (.done value, s)

/-- Ends with an error at once. -/
def fail (error : ε) : Action σ ε α := fun s ↦ (.failed error, s)

/-- Never ends. -/
def wait : Action σ ε α := fun s ↦ (.stuck, s)

/-- One action after the other; the second one is not begun if the first one gives no value. -/
def andThen (act : Action σ ε α) (next : α → Action σ ε β) : Action σ ε β := fun s ↦
  match act s with
  | (.done value, t) => next value t
  | (.failed error, t) => (.failed error, t)
  | (.stuck, t) => (.stuck, t)

instance : Monad (Action σ ε) where
  pure := done
  bind := andThen

/-- The state. -/
def state : Action σ ε σ := fun s ↦ (.done s, s)

/-- What `read` finds in the state. -/
def reading (read : σ → α) : Action σ ε α := fun s ↦ (.done (read s), s)

/-- Changes the state. -/
def change (f : σ → σ) : Action σ ε Unit := fun s ↦ (.done (), f s)

/-- Changes the state and gives a value. -/
def changing (f : σ → α × σ) : Action σ ε α := fun s ↦ (.done (f s).1, (f s).2)

/-- Ends as a result says, with the errors of another type put into this one. -/
def ofExcept (lift : ε' → ε) : Except ε' α → Action σ ε α
  | .ok value => done value
  | .error error => fail (lift error)

/-- The same action with its error put into another type. -/
def mapError (f : ε → ε') (act : Action σ ε α) : Action σ ε' α := fun s ↦
  match act s with
  | (.done value, t) => (.done value, t)
  | (.failed error, t) => (.failed (f error), t)
  | (.stuck, t) => (.stuck, t)

/-- The same action with an error as a value. -/
def attempt (act : Action σ ε α) : Action σ ε' (Except ε α) := fun s ↦
  match act s with
  | (.done value, t) => (.done (.ok value), t)
  | (.failed error, t) => (.done (.error error), t)
  | (.stuck, t) => (.stuck, t)

/-- The same action on a part of a state. -/
def within (part : τ → σ) (replace : σ → τ → τ) (act : Action σ ε α) : Action τ ε α := fun t ↦
  match act (part t) with
  | (outcome, s) => (outcome, replace s t)

/-! ### What each action does in a state -/

@[simp] theorem run_pure (value : α) (s : σ) :
    (pure value : Action σ ε α).run s = (.done value, s) := rfl

@[simp] theorem run_done (value : α) (s : σ) :
    (done value : Action σ ε α).run s = (.done value, s) := rfl

@[simp] theorem run_fail (error : ε) (s : σ) :
    (fail error : Action σ ε α).run s = (.failed error, s) := rfl

@[simp] theorem run_wait (s : σ) : (wait : Action σ ε α).run s = (.stuck, s) := rfl

theorem run_bind (act : Action σ ε α) (next : α → Action σ ε β) (s : σ) :
    (act >>= next).run s = match act.run s with
      | (.done value, t) => (next value).run t
      | (.failed error, t) => (.failed error, t)
      | (.stuck, t) => (.stuck, t) := rfl

@[simp] theorem run_state (s : σ) : (state : Action σ ε σ).run s = (.done s, s) := rfl

@[simp] theorem run_reading (read : σ → α) (s : σ) :
    (reading read : Action σ ε α).run s = (.done (read s), s) := rfl

@[simp] theorem run_change (f : σ → σ) (s : σ) :
    (change f : Action σ ε Unit).run s = (.done (), f s) := rfl

@[simp] theorem run_changing (f : σ → α × σ) (s : σ) :
    (changing f : Action σ ε α).run s = (.done (f s).1, (f s).2) := rfl

@[simp] theorem run_ofExcept_ok (lift : ε' → ε) (value : α) (s : σ) :
    (ofExcept lift (.ok value) : Action σ ε α).run s = (.done value, s) := rfl

@[simp] theorem run_ofExcept_error (lift : ε' → ε) (error : ε') (s : σ) :
    (ofExcept lift (.error error) : Action σ ε α).run s = (.failed (lift error), s) := rfl

theorem run_mapError (f : ε → ε') (act : Action σ ε α) (s : σ) :
    (act.mapError f).run s = match act.run s with
      | (.done value, t) => (.done value, t)
      | (.failed error, t) => (.failed (f error), t)
      | (.stuck, t) => (.stuck, t) := rfl

theorem run_attempt (act : Action σ ε α) (s : σ) :
    (act.attempt : Action σ ε' (Except ε α)).run s = match act.run s with
      | (.done value, t) => (.done (.ok value), t)
      | (.failed error, t) => (.done (.error error), t)
      | (.stuck, t) => (.stuck, t) := rfl

theorem run_within (part : τ → σ) (replace : σ → τ → τ) (act : Action σ ε α) (t : τ) :
    (act.within part replace).run t =
      ((act.run (part t)).1, replace (act.run (part t)).2 t) := rfl

instance : LawfulMonad (Action σ ε) := LawfulMonad.mk' (Action σ ε)
  (by
    intro α act; funext s
    show Action.andThen act Action.done s = act s
    unfold Action.andThen
    rcases act s with ⟨_ | _ | _, t⟩ <;> rfl)
  (by intro α β x f; rfl)
  (by
    intro α β γ x f g; funext s
    show Action.andThen (Action.andThen x f) g s =
      Action.andThen x (fun a ↦ Action.andThen (f a) g) s
    unfold Action.andThen
    rcases x s with ⟨_ | _ | _, t⟩ <;> rfl)

end Action

end ImageRegistry
