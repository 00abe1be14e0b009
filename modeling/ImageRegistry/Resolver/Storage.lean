import ImageRegistry.Resolver.Basic

/-!
# Resolving from a storage

Images are published as directories that are named after their reference, in the directory of their
repository. A repository that is itself the identifier of an image, which shows in its directory of
manifests, stands for that image.
-/

namespace ImageRegistry.Resolver

/-- The path of a repository beneath the root. -/
def repositoryPath (root : Option String) (repository : String) : String :=
  match root with
  | some root =>
    String.ofList (Text.dropTrailing (· = '/') root.toList ++ '/' :: repository.toList)
  | none => repository

/-- Whether a listing is that of an image. -/
def isImageListing (entries : List Storage.Entry) : Bool :=
  entries.any fun e ↦ e.name = "manifests" && e.kind = .directory

/-- Whether a repository is itself the identifier of an image. -/
def isImage (storage : Nat) (repository : String) : Action World ResolveFailure Bool :=
  if repository.toList.contains '/' then return false
  else do
    match ← (World.onStorage storage (Storage.list repository)).attempt with
    | .ok entries => return isImageListing entries
    | .error _ => return false

/-- The identifiers of the entries with the name of a reference, or of all entries. -/
def selected (reference : String) (entries : List Storage.Entry) : List String :=
  (entries.filter fun e ↦ reference.isEmpty || e.name = reference).map Storage.Entry.id

/-- The resolver that lists the storage of a number, with repositories beneath a root. -/
def ofStorage (storage : Nat) (root : Option String) : Resolver where
  name := "storage"
  ask repository reference := do
    if ← isImage storage repository then return [repository]
    else
      match ← (World.onStorage storage
          (Storage.list (repositoryPath root repository))).attempt with
      | .ok entries => return selected reference entries
      | .error error => if error.isNotFound then return [] else .fail (.storage error)

end ImageRegistry.Resolver
