import ImageRegistry.Error
import ImageRegistry.Blob.Store

/-!
# Routes

What a path addresses: a manifest, a blob, the uploads of a repository or one upload. The name of a
repository may hold slashes, and words that stand between a name and a reference, so the last one of
these words counts.
-/

namespace ImageRegistry

/-- What a path addresses. -/
inductive Route where
  | manifest (repository reference : String)
  | blob (repository digest : String)
  /-- The uploads of a repository, to begin one. -/
  | uploads (repository : String)
  | upload (repository id : String)
  deriving DecidableEq, Repr

namespace Route

/-- The word between a repository and an upload. -/
def uploadsWord : List Char := "/blobs/uploads".toList

/-- The word between a repository and a reference. -/
def manifestsWord : List Char := "/manifests/".toList

/-- The word between a repository and a digest. -/
def blobsWord : List Char := "/blobs/".toList

/-- Whether a text is one part of a path. -/
def isPart (text : List Char) : Bool := !text.isEmpty && !text.contains '/'

/-- The uploads that a path addresses. -/
def uploadOf? (path : List Char) : Option Route := do
  let (repository, rest) ← Text.splitLast uploadsWord path
  if rest = [] ∨ rest = ['/'] then return .uploads (String.ofList repository)
  else
    let id := Text.dropTrailing (· = '/') (← Text.stripLead? ['/'] rest)
    if isPart id then return .upload (String.ofList repository) (String.ofList id) else none

/-- The manifest that a path addresses. -/
def manifestOf? (path : List Char) : Option Route := do
  let (repository, reference) ← Text.splitLast manifestsWord path
  if isPart reference then
    return .manifest (String.ofList repository) (String.ofList reference)
  else none

/-- The blob that a path addresses. -/
def blobOf? (path : List Char) : Option Route := do
  let (repository, digest) ← Text.splitLast blobsWord path
  if isPart digest then return .blob (String.ofList repository) (String.ofList digest) else none

/-- What a path addresses. -/
def ofPath? (path : String) : Option Route :=
  let path := path.toList.dropWhile (· = '/')
  (uploadOf? path).orElse fun _ ↦ (manifestOf? path).orElse fun _ ↦ blobOf? path

/-- The repository of a route. -/
def repository : Route → String
  | manifest repository _ => repository
  | blob repository _ => repository
  | uploads repository => repository
  | upload repository _ => repository

/-- The path of a route. -/
def path : Route → String
  | manifest repository reference => repository ++ "/manifests/" ++ reference
  | blob repository digest => repository ++ "/blobs/" ++ digest
  | uploads repository => repository ++ "/blobs/uploads/"
  | upload repository id => repository ++ "/blobs/uploads/" ++ id

/-- A repository has a name, without two dots in a row. -/
def checkRepository (name : String) : Except RegistryError Unit :=
  if name.isEmpty || Text.occurs ['.', '.'] name.toList then .error (.invalidRepository name)
  else .ok ()

/-- A reference with a colon is a digest; a tag is not empty. -/
def checkReference (reference : String) : Except RegistryError Unit :=
  if reference.toList.contains ':' then Blob.Store.validate reference
  else if reference.isEmpty then .error (.manifestNotFound reference)
  else .ok ()

end Route

end ImageRegistry
