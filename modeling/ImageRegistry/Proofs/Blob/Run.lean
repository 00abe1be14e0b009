import ImageRegistry.Proofs.Blob.Effects

/-!
# Runs of a blob store

Calls of any number of clients come to a store in some order, and each of them is one step, so what
the clients do together is a list of events: a call, and the time at which the store takes it. The
list says nothing of who calls, because the store does not know it either; it stands for every way
in which the calls of the clients can fall between each other.

`Effect` says once what a call can do to a store, with one case for each way in which it can end,
and `take_effect` that every call does one of these things. What holds along a run is proved from
the cases of `Effect` by `run_induction`, and the steps themselves are not opened again. That a
refusal is one case, in which the store is the same, rests on the steps being atomic: a call that is
refused has run all the same, and its store is kept.
-/

namespace ImageRegistry.Blob

/-- A call to a store. -/
inductive Call where
  | commit (repository expected : String) (data : ByteArray)
  | append (repository id : String) (range : Option Range) (chunk : ByteArray)
  | finalize (repository id expected : String) (trailing : ByteArray)
  | status (repository id : String)
  | cancel (repository id : String)
  | remove (repository : String)
  | sweep (maxIdle : Nat)
  deriving DecidableEq

/-- A call, and the time at which the store takes it. -/
structure Event where
  time : Nat
  call : Call
  deriving DecidableEq

/-- What a call is answered. -/
inductive Reply where
  /-- A blob was stored under this digest. -/
  | stored (digest : String)
  /-- So many bytes of an upload are there. -/
  | holds (length : Nat)
  | cancelled
  /-- So many blobs or uploads were dropped. -/
  | dropped (count : Nat)
  | refused (error : RegistryError)
  deriving DecidableEq

namespace Store

/-! ### Calls and runs -/

/-- The answer that the end of a step stands for, and the store after it. -/
def settle {α : Type} (reply : α → Reply) : Except RegistryError α × Store → Reply × Store
  | (.ok value, t) => (reply value, t)
  | (.error error, t) => (.refused error, t)

/-- The answer to a call, and the store after it. -/
def take (s : Store) (e : Event) : Reply × Store :=
  match e.call with
  | .commit repository expected data =>
    settle .stored ((Blob.commit repository expected data).on s)
  | .append repository id range chunk =>
    settle .holds ((Blob.append e.time repository id range chunk).on s)
  | .finalize repository id expected trailing =>
    settle .stored ((Blob.finalize repository id expected trailing).on s)
  | .status repository id => settle .holds ((Blob.status repository id).on s)
  | .cancel repository id => settle (fun () ↦ .cancelled) ((Blob.cancel repository id).on s)
  | .remove repository => (.dropped (s.remove repository).1, (s.remove repository).2)
  | .sweep maxIdle => (.dropped (s.sweep e.time maxIdle).1, (s.sweep e.time maxIdle).2)

/-- The store after some events. -/
def run (s : Store) (events : List Event) : Store := events.foldl (fun s e ↦ (s.take e).2) s

@[simp] theorem run_nil (s : Store) : s.run [] = s := rfl

@[simp] theorem run_cons (s : Store) (e : Event) (rest : List Event) :
    s.run (e :: rest) = (s.take e).2.run rest := rfl

theorem run_append (s : Store) (before after : List Event) :
    s.run (before ++ after) = (s.run before).run after := List.foldl_append

/-- The answers to some events, in their order. -/
def answers (s : Store) : List Event → List Reply
  | [] => []
  | e :: rest => (s.take e).1 :: (s.take e).2.answers rest

theorem answers_append (s : Store) (before after : List Event) :
    s.answers (before ++ after) = s.answers before ++ (s.run before).answers after := by
  induction before generalizing s with
  | nil => rfl
  | cons e rest ih => rw [List.cons_append, answers, ih, answers, run_cons, List.cons_append]

/-- What each step keeps, a run keeps. -/
theorem run_induction {P : Store → Prop} {s : Store} (start : P s)
    (step : ∀ s e, P s → P (s.take e).2) (events : List Event) : P (s.run events) := by
  induction events generalizing s with
  | nil => exact start
  | cons e rest ih => exact ih (step s e start)

/-! ### What a call can do -/

/-- What a call at a time can be answered, and what it then makes of a store. -/
inductive Effect (s : Store) (now : Nat) : Call → Reply → Store → Prop where
  | refused (call : Call) (error : RegistryError) : Effect s now call (.refused error) s
  | committed (repository : String) (data : ByteArray) :
    Effect s now (.commit repository (Digest.ofContent data) data)
      (.stored (Digest.ofContent data)) (s.own repository (Digest.ofContent data) data)
  | begun (repository id : String) (range : Option Range) (chunk : ByteArray)
      (absent : s.sessions.get? id = none) (fits : ∀ r ∈ range, Fits r 0 chunk) :
    Effect s now (.append repository id range chunk) (.holds chunk.size)
      (s.putSession id ⟨repository, chunk, now⟩)
  | extended (id : String) (session : Session) (r : Range) (chunk : ByteArray)
      (found : s.sessions.get? id = some session) (fits : Fits r session.buffer.size chunk) :
    Effect s now (.append session.repository id (some r) chunk)
      (.holds (session.buffer ++ chunk).size)
      (s.putSession id ⟨session.repository, session.buffer ++ chunk, now⟩)
  | finalized (repository id : String) (bytes trailing : ByteArray)
      (found : s.buffered repository id = .ok bytes) :
    Effect s now (.finalize repository id (Digest.ofContent (bytes ++ trailing)) trailing)
      (.stored (Digest.ofContent (bytes ++ trailing)))
      ((s.dropSession id).own repository (Digest.ofContent (bytes ++ trailing)) (bytes ++ trailing))
  | told (id : String) (session : Session) (found : s.sessions.get? id = some session) :
    Effect s now (.status session.repository id) (.holds session.buffer.size) s
  | cancelled (id : String) (session : Session) (found : s.sessions.get? id = some session) :
    Effect s now (.cancel session.repository id) .cancelled (s.dropSession id)
  | removed (repository : String) :
    Effect s now (.remove repository) (.dropped (s.remove repository).1) (s.remove repository).2
  | swept (maxIdle : Nat) :
    Effect s now (.sweep maxIdle) (.dropped (s.sweep now maxIdle).1) (s.sweep now maxIdle).2

theorem settle_of_result {α : Type} {step : Step Store RegistryError α} {s t : Store} {value : α}
    (reply : α → Reply) (h : step.result s = .ok (value, t)) :
    settle reply (step.on s) = (reply value, t) := by
  rw [Step.result_eq_ok_iff.1 h, settle]

/-- A step that changes nothing when it fails is refused on the same store, or has a result. -/
theorem settle_of_atomic {α : Type} {step : Step Store RegistryError α} (h : step.Atomic)
    (s : Store) (reply : α → Reply) :
    (∃ error, settle reply (step.on s) = (.refused error, s)) ∨
      ∃ value t, step.result s = .ok (value, t) ∧ settle reply (step.on s) = (reply value, t) := by
  rcases hon : step.on s with ⟨error | value, t⟩
  · exact Or.inl ⟨error, by rw [settle, h s error t hon]⟩
  · exact Or.inr ⟨value, t, Step.result_eq_ok_iff.2 hon, rfl⟩

/-- Every call does one of these things. -/
theorem take_effect (s : Store) (e : Event) :
    Effect s e.time e.call (s.take e).1 (s.take e).2 := by
  obtain ⟨now, call⟩ := e
  -- A call is refused by an atomic step, or its step has a result, which tells all the rest.
  cases call with
  | commit repository expected data =>
    rcases settle_of_atomic (atomic_commit repository expected data) s .stored with
      ⟨error, h⟩ | ⟨digest, t, hok, h⟩
    · simpa only [take, h] using .refused _ error
    · obtain ⟨rfl, rfl, rfl⟩ := commit_eq_ok_iff.1 hok
      simpa only [take, h] using .committed repository data
  | append repository id range chunk =>
    rcases settle_of_atomic (atomic_append now repository id range chunk) s .holds with
      ⟨error, h⟩ | ⟨length, t, hok, h⟩
    · simpa only [take, h] using .refused _ error
    · rcases append_eq_ok_iff.1 hok with
        ⟨absent, fits, rfl, rfl⟩ | ⟨session, r, found, rfl, rfl, fits, rfl, rfl⟩
      · simpa only [take, h] using .begun repository id range chunk absent fits
      · simpa only [take, h] using .extended id session r chunk found fits
  | finalize repository id expected trailing =>
    rcases settle_of_atomic (atomic_finalize repository id expected trailing) s .stored with
      ⟨error, h⟩ | ⟨digest, t, hok, h⟩
    · simpa only [take, h] using .refused _ error
    · obtain ⟨bytes, found, rfl, rfl, rfl⟩ := finalize_eq_ok_iff.1 hok
      simpa only [take, h] using .finalized repository id bytes trailing found
  | status repository id =>
    rcases settle_of_atomic (atomic_status repository id) s .holds with
      ⟨error, h⟩ | ⟨length, t, hok, h⟩
    · simpa only [take, h] using .refused _ error
    · obtain ⟨⟨session, found, rfl, rfl⟩, rfl⟩ := tell_eq_ok_iff.1 hok
      simpa only [take, h] using .told id session found
  | cancel repository id =>
    rcases settle_of_atomic (atomic_cancel repository id) s (fun () ↦ .cancelled) with
      ⟨error, h⟩ | ⟨⟨⟩, t, hok, h⟩
    · simpa only [take, h] using .refused _ error
    · obtain ⟨session, found, rfl, rfl⟩ := cancel_eq_ok_iff.1 hok
      simpa only [take, h] using .cancelled id session found
  | remove repository => exact .removed repository
  | sweep maxIdle => exact .swept maxIdle

/-- A call that is refused leaves the store as it was. -/
theorem take_of_refused {s : Store} {e : Event} {error : RegistryError}
    (h : (s.take e).1 = .refused error) : (s.take e).2 = s := by
  have heffect := s.take_effect e
  rw [h] at heffect
  generalize e.call = call at heffect
  generalize (s.take e).2 = t at heffect ⊢
  cases heffect with
  | refused => rfl

end Store

end ImageRegistry.Blob
