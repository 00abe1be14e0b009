import ImageRegistry.Proofs.Resolver.Parts
import ImageRegistry.Registry.Router

/-!
# The parts of a read

To serve a manifest or a blob that is not there, and to ask the chain of resolvers, a server does
few things in turn: it locates a reference, it asks the gateway, it adds links, and it stores what
was pulled. Whatever composes holds of a read when it holds of these. So what is to be proved of
reads is proved of these four, and the handlers are gone through here once.
-/

namespace ImageRegistry.Action.Composes

open Server

variable {P : ∀ ε α : Type, Action Server ε α → Prop} {repository reference digest : String}

theorem addLinks (hP : Composes P) {ε : Type} {identifier : String} {references : List String}
    (hadd : ∀ reference ∈ references,
      P ε _ (onLinks (Link.Setting.add repository reference identifier))) :
    P ε Unit (addLinks repository identifier references) := by
  induction references with
  | nil => exact hP.pure ()
  | cons reference rest ih =>
    refine hP.bind (hadd reference List.mem_cons_self) fun _ ↦ ?_
    exact ih fun r hr ↦ hadd r (List.mem_cons_of_mem _ hr)

theorem obtain (hP : Composes P) (hlocate : P _ _ (locate repository reference))
    (hget : ∀ identifier path, P _ _ (get identifier path)) :
    P _ _ (obtain repository reference) := by
  refine hP.bind (hP.mapError _ hlocate) fun identifier ↦ ?_
  refine hP.bind (hP.mapError _ (hget identifier _)) fun body ↦ ?_
  exact hP.pure _

theorem serveManifest (hP : Composes P) (hlocate : P _ _ (locate repository reference))
    (hget : ∀ identifier path, P _ _ (get identifier path))
    (hadd : ∀ other identifier,
      P RegistryError _ (onLinks (Link.Setting.add repository other identifier)))
    (hkeep : ∀ manifest, P RegistryError _ (keep repository reference manifest))
    (method : Http.Method) : P _ _ (serveManifest method repository reference) := by
  -- Whether or not links are added first, the manifest is stored and served.
  have hstore (manifest : Manifest) : P RegistryError Manifest
      (keep repository reference manifest >>= fun _ ↦ Pure.pure manifest) :=
    hP.bind (hkeep manifest) fun _ ↦ hP.pure manifest
  have hpull : P _ _ (pull repository reference) := by
    refine hP.bind (hP.obtain hlocate hget) fun manifest ↦ ?_
    cases manifest.origin with
    | none => exact hstore manifest
    | some identifier =>
      exact hP.bind (hP.addLinks fun other _ ↦ hadd other identifier) fun _ ↦ hstore manifest
  refine hP.bind (hP.reading _) fun found ↦ ?_
  cases found with
  | some manifest => exact hP.pure _
  | none => exact hP.bind hpull fun manifest ↦ hP.pure _

theorem serveBlob (hP : Composes P) (hlocate : P _ _ (locate repository digest))
    (hfetch : ∀ method identifier path, P _ _ (fetch method identifier path))
    (method : Http.Method) : P _ _ (serveBlob method repository digest) := by
  refine hP.bind (hP.reading _) fun found ↦ ?_
  cases found with
  | some data => exact hP.pure _
  | none =>
    refine hP.bind (hP.mapError _ hlocate) fun identifier ↦ ?_
    refine hP.bind (hP.mapError _ (hfetch method identifier _)) fun fetched ↦ ?_
    split
    · exact hP.pure _
    · exact hP.fail _

theorem dig (hP : Composes P)
    (hresolve : ∀ repository reference, P _ _ (Server.resolve repository reference))
    (hget : ∀ identifier path, P _ _ (get identifier path)) (query : Query.Dig) :
    P _ _ (dig query) := by
  rw [Server.dig]
  obtain ⟨repository, reference⟩ := digTarget query.target
  refine hP.bind (hP.ofExcept _ _) fun _ ↦ ?_
  refine hP.bind (hP.mapError _ (hresolve repository reference)) fun identifiers ↦ ?_
  show P _ _ (if query.short || reference.isEmpty then _ else _)
  split
  · exact hP.pure _
  · cases identifiers with
    | nil => exact hP.fail _
    | cons identifier rest =>
      refine hP.bind (hP.mapError _ (hget identifier _)) fun body ↦ ?_
      exact hP.pure _

end ImageRegistry.Action.Composes
