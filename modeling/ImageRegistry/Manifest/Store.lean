import ImageRegistry.Collection.Table
import ImageRegistry.Error
import ImageRegistry.Manifest.Basic
import ImageRegistry.Step

/-!
# The manifest store

The manifests of each repository are kept under the references that they were pushed or pulled as,
and under their digests. An index is only taken when all manifests that it lists are there already.
-/

namespace ImageRegistry.Manifest

/-- Manifests by repository, and by reference or digest. -/
structure Store where
  repositories : Table String (Table String Manifest)
  deriving DecidableEq

namespace Store

/-- The store with nothing in it. -/
def empty : Store := ⟨∅⟩

instance : EmptyCollection Store := ⟨empty⟩

/-- The manifests of a repository. -/
def tableOf (s : Store) (repository : String) : Table String Manifest :=
  (s.repositories.get? repository).getD ∅

/-- The manifest under a reference. -/
def get? (s : Store) (repository reference : String) : Option Manifest :=
  (s.tableOf repository).get? reference

/-- The store with a manifest under a reference and under its digest. -/
def insert (s : Store) (repository reference : String) (manifest : Manifest) : Store where
  repositories := s.repositories.insert repository
    (((s.tableOf repository).insert manifest.digest manifest).insert reference manifest)

/-- The digests of the manifests that a manifest lists if it is an index. -/
def children (manifest : Manifest) : Except RegistryError (List String) :=
  if manifest.isIndex then
    match Document.read? manifest.body with
    | some document => .ok document.manifests
    | none => .error (.invalidManifest "the body is no manifest document")
  else .ok []

/-- A reference with the shape of a digest must be the digest of the manifest. -/
def checkReference (reference : String) (manifest : Manifest) : Except RegistryError Unit :=
  if Digest.isDigest reference = true ∧ reference ≠ manifest.digest then
    .error (.digestMismatch reference manifest.digest)
  else .ok ()

/-- All of these must be there. -/
def checkChildren (s : Store) (repository : String) (children : List String) :
    Except RegistryError Unit :=
  match children.find? fun child ↦ !(s.tableOf repository).contains child with
  | some missing => .error (.manifestNotFound missing)
  | none => .ok ()

end Store

/-- Checks a manifest that is pushed, and stores it. -/
def push (repository reference : String) (mediaType : Option String) (body : ByteArray) :
    Step Store RegistryError Manifest := do
  let manifest := ofBody body mediaType none
  Step.ofExcept (Store.checkReference reference manifest)
  let children ← Step.ofExcept (Store.children manifest)
  Step.ofExcept ((← get).checkChildren repository children)
  modify fun s ↦ s.insert repository reference manifest
  return manifest

namespace Store

/-- A manifest that is pushed, and the store with it. -/
def put (s : Store) (repository reference : String) (mediaType : Option String)
    (body : ByteArray) : Except RegistryError (Manifest × Store) :=
  (push repository reference mediaType body).result s

/-! ### Laws -/

theorem tableOf_insert (s : Store) (repository reference r : String) (manifest : Manifest) :
    (s.insert repository reference manifest).tableOf r =
      if repository = r then
        ((s.tableOf repository).insert manifest.digest manifest).insert reference manifest
      else s.tableOf r := by
  unfold tableOf insert
  rw [Table.get?_insert]
  split <;> rfl

/-- A manifest that is inserted is found under its reference and its digest, and all else is where
it was. -/
theorem get?_insert (s : Store) (repository reference r k : String) (manifest : Manifest) :
    (s.insert repository reference manifest).get? r k =
      if repository = r ∧ (reference = k ∨ manifest.digest = k) then some manifest
      else s.get? r k := by
  unfold get?
  rw [tableOf_insert]
  by_cases h : repository = r
  · subst h
    simp only [if_true, Table.get?_insert, true_and]
    by_cases h1 : reference = k
    · simp [h1]
    · by_cases h2 : manifest.digest = k <;> simp [h1, h2]
  · simp [h]

end Store

end ImageRegistry.Manifest
