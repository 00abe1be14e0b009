import ImageRegistry.Registry.Blobs

/-!
# Requests for manifests

A manifest that is not in the store is pulled: its identifier is located, its bytes are got from the
gateway, links to all that it refers to are added under the same identifier, and it is stored for
good.
-/

namespace ImageRegistry.Server

/-- The answer with a manifest. -/
def manifestResponse (method : Http.Method) (manifest : Manifest) : Http.Response :=
  ((((Http.Response.bytes .ok
      (if method = .head then ByteArray.empty else manifest.body)).withHeader
    "content-length" (toString manifest.body.size)).withOptional
    "content-type" (some manifest.mediaType)).withOptional
    "docker-content-digest" (some manifest.digest)).withOptional
    "x-docker-content-id" manifest.origin

/-- The path of a manifest beneath an identifier. -/
def manifestPath (reference : String) : String := "manifests/" ++ reference

/-- The error of a pull that gets no manifest from the gateway. -/
def pullError (reference : String) : FetchFailure → RegistryError
  | .status .. => .manifestNotFound reference
  | failure => .gateway failure

/-- Gets a manifest from the gateway. -/
def obtain (repository reference : String) : Action Server RegistryError Manifest := do
  let identifier ← (locate repository reference).mapError fun _ ↦ .manifestNotFound reference
  let body ← (get identifier (manifestPath reference)).mapError (pullError reference)
  return .ofBody body none (some identifier)

/-- What links are added for when a manifest is pulled: all that its document refers to, and its own
digest. A body that is no document gives none. -/
def warmed (manifest : Manifest) : List String :=
  match Manifest.Document.read? manifest.body with
  | some document => document.references ++ [manifest.digest]
  | none => []

/-- Adds links to an identifier. A link file that cannot be written does no harm. -/
def addLinks {ε : Type} (repository identifier : String) : List String → Action Server ε Unit
  | [] => return ()
  | reference :: rest => do
    let _ ← onLinks (Link.Setting.add repository reference identifier)
    addLinks repository identifier rest

/-- Stores a manifest. -/
def keep {ε : Type} (repository reference : String) (manifest : Manifest) :
    Action Server ε Unit := .change fun s ↦
  s.withManifests (s.registry.manifests.insert repository reference manifest)

/-- Pulls a manifest. -/
def pull (repository reference : String) : Action Server RegistryError Manifest := do
  let manifest ← obtain repository reference
  if let some identifier := manifest.origin then
    addLinks repository identifier (warmed manifest)
  keep repository reference manifest
  return manifest

/-- Serves a manifest. -/
def serveManifest (method : Http.Method) (repository reference : String) :
    Action Server RegistryError Http.Response := do
  match ← .reading fun s ↦ s.registry.manifests.get? repository reference with
  | some manifest => return manifestResponse method manifest
  | none => return manifestResponse method (← pull repository reference)

/-- Stores a manifest that is pushed. -/
def storeManifest (repository reference : String) (headers : Http.Headers) (body : ByteArray) :
    Action Server RegistryError Http.Response := do
  let manifest ← onManifestStep
    (Manifest.push repository reference (headers.text? "content-type") body)
  return storedAt ("/v2/" ++ repository ++ "/manifests/") manifest.digest

end ImageRegistry.Server
