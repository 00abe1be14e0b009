import ImageRegistry.Manifest.Store
import ImageRegistry.Proofs.Collection.Table
import ImageRegistry.Proofs.Step

/-!
# Runs of a manifest store

Two things write to a store: a client pushes a manifest, or a manifest that was missing is pulled.
Each of them is one step, and a list of events stands for every order in which they can come.

A push is checked (`Accepts`) and a pull is not, and both then do the same `insert`. `Effect` says
so once, and what holds along a run is proved from its three cases by `run_induction`. Nothing is
ever taken out of a store: a key that has a manifest keeps one (`contains_run`), if not the same.
-/

namespace ImageRegistry.Manifest

/-- What writes to a store. -/
inductive Event where
  | push (repository reference : String) (mediaType : Option String) (body : ByteArray)
  /-- A manifest was missing, and these are the bytes that were found under an identifier. -/
  | pull (repository reference identifier : String) (body : ByteArray)
  deriving DecidableEq

/-- All that can be refused of a push comes before the store is changed. -/
theorem atomic_push (repository reference : String) (mediaType : Option String)
    (body : ByteArray) : (push repository reference mediaType body).Atomic := by
  refine Step.atomic_bind_of_looks (Step.looks_ofExcept _) fun _ ↦ ?_
  refine Step.atomic_bind_of_looks (Step.looks_ofExcept _) fun children ↦ ?_
  refine Step.atomic_bind_of_looks Step.looks_get fun s ↦ ?_
  refine Step.atomic_bind_of_looks (Step.looks_ofExcept _) fun _ ↦ ?_
  exact Step.atomic_of_certain
    (Step.certain_bind (Step.certain_modify _) fun _ ↦ Step.certain_pure _)

namespace Store

/-! ### What a push is checked for -/

/-- A manifest that a store takes under a reference: a digest must be its own, and a manifest that
is an index must be a document, and each manifest that it lists must be there. -/
structure Accepts (s : Store) (repository reference : String) (m : Manifest) : Prop where
  named : Digest.isDigest reference = true → reference = m.digest
  listed : m.isIndex = true → ∃ document, Document.read? m.body = some document ∧
    ∀ digest ∈ document.manifests, (s.tableOf repository).contains digest = true

variable {s t : Store} {repository reference : String} {m : Manifest}

theorem checkReference_eq_ok_iff {u : Unit} :
    checkReference reference m = .ok u ↔
      (Digest.isDigest reference = true → reference = m.digest) := by
  rw [checkReference]
  split
  · next h => simp [h.1, h.2]
  · next h =>
    rw [not_and, Decidable.not_not] at h
    simpa using h

theorem checkChildren_eq_ok_iff {children : List String} {u : Unit} :
    s.checkChildren repository children = .ok u ↔
      ∀ child ∈ children, (s.tableOf repository).contains child = true := by
  rw [checkChildren]
  cases hfind : children.find? fun child ↦ !(s.tableOf repository).contains child with
  | none =>
    rw [List.find?_eq_none] at hfind
    simpa using hfind
  | some missing =>
    have hmissing : (s.tableOf repository).contains missing = false := by
      simpa using List.find?_some hfind
    simp only [reduceCtorEq, false_iff, not_forall]
    exact ⟨missing, List.mem_of_find?_eq_some hfind, by simp [hmissing]⟩

theorem children_eq_ok_iff {digests : List String} :
    children m = .ok digests ↔
      (m.isIndex = true ∧ ∃ document, Document.read? m.body = some document ∧
        digests = document.manifests) ∨ (m.isIndex = false ∧ digests = []) := by
  rw [children]
  cases hindex : m.isIndex with
  | false => simp [eq_comm]
  | true =>
    cases hread : Document.read? m.body with
    | none => simp
    | some document => simp [eq_comm]

theorem accepts_iff :
    s.Accepts repository reference m ↔ checkReference reference m = .ok () ∧
      ∃ digests, children m = .ok digests ∧ s.checkChildren repository digests = .ok () := by
  rw [checkReference_eq_ok_iff]
  simp only [children_eq_ok_iff, checkChildren_eq_ok_iff]
  constructor
  · rintro ⟨named, listed⟩
    refine ⟨named, ?_⟩
    cases hindex : m.isIndex with
    | false => exact ⟨[], Or.inr ⟨rfl, rfl⟩, by simp⟩
    | true =>
      obtain ⟨document, hread, hthere⟩ := listed hindex
      exact ⟨document.manifests, Or.inl ⟨rfl, document, hread, rfl⟩, hthere⟩
  · rintro ⟨named, digests, ⟨-, document, hread, rfl⟩ | ⟨hindex, -⟩, hthere⟩
    · exact ⟨named, fun _ ↦ ⟨document, hread, hthere⟩⟩
    · exact ⟨named, fun h ↦ by rw [hindex] at h; cases h⟩

/-- A push stores the manifest of its body if the store takes it. -/
theorem put_eq_ok_iff {mediaType : Option String} {body : ByteArray} :
    s.put repository reference mediaType body = .ok (m, t) ↔
      m = ofBody body mediaType none ∧ s.Accepts repository reference m ∧
        t = s.insert repository reference m := by
  simp only [put, push, Step.result_ofExcept_bind, Step.result_get_bind, Step.result_modify_bind,
    Step.result_pure, bind_eq_ok_iff, Except.ok.injEq, Prod.mk.injEq]
  constructor
  · rintro ⟨_, hreference, digests, hdigests, _, hchildren, rfl, rfl⟩
    exact ⟨rfl, accepts_iff.2 ⟨hreference, digests, hdigests, hchildren⟩, rfl⟩
  · rintro ⟨rfl, haccepts, rfl⟩
    obtain ⟨hreference, digests, hdigests, hchildren⟩ := accepts_iff.1 haccepts
    exact ⟨(), hreference, digests, hdigests, (), hchildren, rfl, rfl⟩

/-! ### Events and runs -/

/-- The store after an event. A push that is refused has run all the same, and its store is kept. -/
def take (s : Store) : Event → Store
  | .push repository reference mediaType body =>
    ((push repository reference mediaType body).on s).2
  | .pull repository reference identifier body =>
    s.insert repository reference (ofBody body none (some identifier))

/-- The store after some events. -/
def run (s : Store) (events : List Event) : Store := events.foldl take s

@[simp] theorem run_nil (s : Store) : s.run [] = s := rfl

@[simp] theorem run_cons (s : Store) (e : Event) (rest : List Event) :
    s.run (e :: rest) = (s.take e).run rest := rfl

theorem run_append (s : Store) (before after : List Event) :
    s.run (before ++ after) = (s.run before).run after := List.foldl_append

/-- What each step keeps, a run keeps. -/
theorem run_induction {P : Store → Prop} {s : Store} (start : P s)
    (step : ∀ s e, P s → P (s.take e)) (events : List Event) : P (s.run events) := by
  induction events generalizing s with
  | nil => exact start
  | cons e rest ih => exact ih (step s e start)

/-- What an event makes of a store. -/
inductive Effect (s : Store) : Event → Store → Prop where
  | refused (repository reference : String) (mediaType : Option String) (body : ByteArray) :
    Effect s (.push repository reference mediaType body) s
  | pushed (repository reference : String) (mediaType : Option String) (body : ByteArray)
      (accepts : s.Accepts repository reference (ofBody body mediaType none)) :
    Effect s (.push repository reference mediaType body)
      (s.insert repository reference (ofBody body mediaType none))
  | pulled (repository reference identifier : String) (body : ByteArray) :
    Effect s (.pull repository reference identifier body)
      (s.insert repository reference (ofBody body none (some identifier)))

theorem take_effect (s : Store) (e : Event) : Effect s e (s.take e) := by
  cases e with
  | pull repository reference identifier body => exact .pulled repository reference identifier body
  | push repository reference mediaType body =>
    rw [take]
    rcases hon : (push repository reference mediaType body).on s with ⟨error | stored, t⟩
    · rw [atomic_push repository reference mediaType body s error t hon]
      exact .refused repository reference mediaType body
    · obtain ⟨rfl, haccepts, rfl⟩ := put_eq_ok_iff.1 (Step.result_eq_ok_iff.2 hon)
      exact .pushed repository reference mediaType body haccepts

/-! ### Keys -/

theorem contains_tableOf_insert (s : Store) (repository reference r k : String) (m : Manifest) :
    ((s.insert repository reference m).tableOf r).contains k =
      (decide (repository = r ∧ (reference = k ∨ m.digest = k)) || (s.tableOf r).contains k) := by
  show ((s.insert repository reference m).get? r k).isSome = _
  rw [get?_insert]
  split
  · next h => simp [h]
  · next h => simp only [h, decide_false, Bool.false_or]; rfl

/-- A key that has a manifest keeps one. -/
theorem contains_take {r k : String} (e : Event) (h : (s.tableOf r).contains k = true) :
    ((s.take e).tableOf r).contains k = true := by
  have heffect := s.take_effect e
  generalize s.take e = t at heffect ⊢
  cases heffect with
  | refused => exact h
  | pushed => rw [contains_tableOf_insert, h, Bool.or_true]
  | pulled => rw [contains_tableOf_insert, h, Bool.or_true]

theorem contains_run {r k : String} (events : List Event)
    (h : (s.tableOf r).contains k = true) : ((s.run events).tableOf r).contains k = true :=
  run_induction (P := fun t ↦ (t.tableOf r).contains k = true) h (fun _ e ↦ contains_take e) events

end Store

end ImageRegistry.Manifest
