import ImageRegistry.Proofs.Action
import ImageRegistry.Proofs.Step
import ImageRegistry.Settings.Basic

/-!
# The parts of a look-up

What a resolver does, and what a chain of them does, is put together from few things: a look at the
files, the listing of a directory of a storage, and what the resolvers of the chain do. So a
property that composes holds of a look-up when it holds of these (`Composes.ask`,
`Composes.resolve`, `Composes.locateLink`). The resolvers that there are, are `Known`, and settings
name no others (`Settings.known_resolvers`).
-/

namespace ImageRegistry

open ImageRegistry.Action

namespace Resolver

/-- The resolvers that there are. -/
inductive Known : Resolver → Prop where
  | fixed (name : String) (identifiers : List String) : Known (.fixed name identifiers)
  | broken (name : String) : Known (.broken name)
  | ofFiles (root : String) : Known (.ofFiles root)
  | ofStorage (storage : Nat) (root : Option String) : Known (.ofStorage storage root)

end Resolver

namespace Action.Composes

open Resolver

variable {P : ∀ ε α : Type, Action World ε α → Prop}

theorem isImage (hP : Composes P)
    (hlist : ∀ storage path, P Storage.Error _ (World.onStorage storage (Storage.list path)))
    (storage : Nat) (repository : String) :
    P ResolveFailure Bool (isImage storage repository) := by
  rw [Resolver.isImage]
  split
  · exact hP.pure false
  · refine hP.bind (hP.attempt (hlist storage repository)) fun listed ↦ ?_
    cases listed with
    | ok entries => exact hP.pure _
    | error error => exact hP.pure false

/-- A resolver lists directories of a storage, and reads files. -/
theorem ask (hP : Composes P)
    (hlist : ∀ storage path, P Storage.Error _ (World.onStorage storage (Storage.list path)))
    {r : Resolver} (hknown : r.Known) (repository reference : String) :
    P ResolveFailure _ (r.ask repository reference) := by
  cases hknown with
  | fixed name identifiers => exact hP.pure identifiers
  | broken name => exact hP.fail _
  | ofFiles root => exact hP.bind (hP.reading _) fun _ ↦ hP.ofExcept _ _
  | ofStorage storage root =>
    refine hP.bind (hP.isImage hlist storage repository) fun found ↦ ?_
    cases found with
    | true => exact hP.pure _
    | false =>
      refine hP.bind (hP.attempt (hlist storage _)) fun listed ↦ ?_
      cases listed with
      | ok entries => exact hP.pure _
      | error error =>
        show P ResolveFailure _ (if error.isNotFound then _ else _)
        split
        · exact hP.pure _
        · exact hP.fail _

variable {chain : List Resolver} {repository reference : String}

theorem firstAnswer (hP : Composes P)
    (hask : ∀ r ∈ chain, P _ _ (r.ask repository reference)) :
    P _ _ (firstAnswer repository reference chain) := by
  induction chain with
  | nil => exact hP.fail _
  | cons r rest ih =>
    have hrest := ih fun r hr ↦ hask r (List.mem_cons_of_mem _ hr)
    refine hP.bind (hP.attempt (hask r List.mem_cons_self)) fun found ↦ ?_
    rcases found with error | identifiers
    · exact hrest
    · cases identifiers with
      | nil => exact hrest
      | cons identifier more => exact hP.pure _

theorem allAnswers (hP : Composes P)
    (hask : ∀ r ∈ chain, P _ _ (r.ask repository reference)) :
    P _ _ (allAnswers repository reference chain) := by
  induction chain with
  | nil => exact hP.pure _
  | cons r rest ih =>
    refine hP.bind (hP.attempt (hask r List.mem_cons_self)) fun found ↦ ?_
    refine hP.bind (ih fun r hr ↦ hask r (List.mem_cons_of_mem _ hr)) fun more ↦ ?_
    exact hP.pure _

/-- A chain asks its resolvers, and they are all it asks. -/
theorem resolve (hP : Composes P) (hask : ∀ r ∈ chain, P _ _ (r.ask repository reference)) :
    P _ _ (resolve chain repository reference) := by
  rw [Resolver.resolve]
  split
  · refine hP.bind (hP.allAnswers hask) fun all ↦ ?_
    split
    · exact hP.fail _
    · exact hP.pure _
  · exact hP.firstAnswer hask

/-- A reference is looked up in the cache, then it is resolved, and what is found is added. -/
theorem locateLink {P : ∀ ε α : Type, Action Link.Setting ε α → Prop} (hP : Composes P)
    (hlookUp : P ResolveFailure _ (Link.Setting.lookUp repository reference))
    (hresolve : P _ _ (Link.Setting.onWorld (Resolver.resolve chain repository reference)))
    (hadd : ∀ identifier, P ResolveFailure _ (Link.Setting.add repository reference identifier)) :
    P _ _ (Link.Setting.locate chain repository reference) := by
  refine hP.bind hlookUp fun found ↦ ?_
  cases found with
  | some identifier => exact hP.pure identifier
  | none =>
    refine hP.bind hresolve fun identifiers ↦ ?_
    cases identifiers with
    | nil => exact hP.fail _
    | cons identifier more => exact hP.bind (hadd identifier) fun _ ↦ hP.pure identifier

end Action.Composes

namespace Settings

theorem known_resolver {hasStorage : Bool} {one : ResolverSettings} {r : Resolver}
    (h : resolver hasStorage one = .ok r) : r.Known := by
  cases one with
  | files root =>
    rw [← Except.ok.inj h]
    exact .ofFiles root
  | storage root =>
    rw [resolver] at h
    split at h
    · rw [← Except.ok.inj h]
      exact .ofStorage 0 root
    · cases h

theorem known_resolvers {settings : Settings} {reach : Uri → Remote.Service} {plan : Plan}
    (h : settings.plan reach = .ok plan) : ∀ r ∈ plan.resolvers, r.Known := by
  obtain ⟨gateway, -, h⟩ := bind_eq_ok_iff.1 h
  dsimp only at h
  split at h
  · cases h
  · obtain ⟨storage, -, h⟩ := bind_eq_ok_iff.1 h
    obtain ⟨resolvers, hresolvers, h⟩ := bind_eq_ok_iff.1 h
    rw [← Except.ok.inj h]
    intro r hr
    obtain ⟨one, -, hone⟩ := (mem_of_mapM_eq_ok hresolvers).1 hr
    exact known_resolver hone

end Settings

end ImageRegistry
