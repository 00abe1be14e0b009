import ImageRegistry.Proofs.Frame
import ImageRegistry.Proofs.Resolver.Parts

/-!
# Resolvers write no files

A resolver is any action on the world, and a chain of them may do what it likes. Those that there
are only read the files (`reads_of_known`): some read link files, and some ask a storage. A chain of
resolvers that only read does no more than that (`Resolver.keeps_resolve`).
-/

namespace ImageRegistry.Resolver

open ImageRegistry.Action

/-- A resolver that leaves the files as they are. -/
def Reads (r : Resolver) : Prop :=
  ∀ repository reference, Keeps World.files (r.ask repository reference)

/-- What a storage is asked changes that storage alone. -/
theorem keeps_onStorage {ε α : Type} (storage : Nat) (act : Action Storage ε α) :
    Keeps World.files (World.onStorage storage act) :=
  keeps_within act fun _ _ ↦ rfl

theorem reads_of_known {r : Resolver} (h : r.Known) : r.Reads :=
  (composes_keeps World.files).ask (fun storage _ ↦ keeps_onStorage storage _) h

theorem reads_fixed (name : String) (identifiers : List String) : (fixed name identifiers).Reads :=
  reads_of_known (.fixed name identifiers)

/-- The resolvers of a registry that is built from settings leave the files as they are. -/
theorem reads_of_plan {settings : Settings} {reach : Uri → Remote.Service} {plan : Settings.Plan}
    (h : settings.plan reach = .ok plan) : ∀ r ∈ plan.resolvers, r.Reads :=
  fun r hr ↦ reads_of_known (Settings.known_resolvers h r hr)

/-- A chain of resolvers that leave the files as they are does so too. -/
theorem keeps_resolve {chain : List Resolver} (h : ∀ r ∈ chain, r.Reads)
    (repository reference : String) :
    Keeps World.files (resolve chain repository reference) :=
  (composes_keeps World.files).resolve fun r hr ↦ h r hr repository reference

end ImageRegistry.Resolver
