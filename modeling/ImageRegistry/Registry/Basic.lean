import ImageRegistry.Blob.Step
import ImageRegistry.Link.Locate
import ImageRegistry.Manifest.Store

/-!
# The registry

A registry holds blobs, manifests and links, a chain of resolvers and the gateway. Together with the
world that it works in it is a `Server`, on which requests act.
-/

namespace ImageRegistry

/-- The gateway that is used when none is named. -/
def defaultGateway : Uri := ⟨some "http", some "127.0.0.1:8080", "/ipfs/", none⟩

/-- The time that a call to the gateway may take when none is named. -/
def defaultFetchTimeout : Nat := 30 * Text.second

/-- A registry. -/
structure Registry where
  blobs : Blob.Store
  manifests : Manifest.Store
  links : Link.Cache
  /-- The chain of resolvers, the first one to be asked in front. -/
  resolvers : List Resolver
  gateway : Gateway
  /-- The greatest length of the body of a request. -/
  bodyLimit : Option Nat

/-- A registry and the world that it works in. -/
structure Server where
  registry : Registry
  world : World

namespace Server

variable {ε α : Type}

/-- The links of a server, and the world. -/
def setting (s : Server) : Link.Setting := ⟨s.registry.links, s.world⟩

/-- The server with other links and another world. -/
def withSetting (setting : Link.Setting) (s : Server) : Server :=
  ⟨{ s.registry with links := setting.cache }, setting.world⟩

/-- The server with other blobs. -/
def withBlobs (blobs : Blob.Store) (s : Server) : Server :=
  { s with registry := { s.registry with blobs := blobs } }

/-- The server with other manifests. -/
def withManifests (manifests : Manifest.Store) (s : Server) : Server :=
  { s with registry := { s.registry with manifests := manifests } }

/-- An action on the links and the world. -/
def onLinks (act : Action Link.Setting ε α) : Action Server ε α := act.within setting withSetting

/-- An action on the world. -/
def onWorld (act : Action World ε α) : Action Server ε α :=
  act.within world fun world s ↦ { s with world := world }

/-- A step on the blobs. -/
def onBlobStep (step : Step Blob.Store RegistryError α) : Action Server RegistryError α :=
  (Action.ofStep step).within (fun s ↦ s.registry.blobs) withBlobs

/-- A step on the manifests. -/
def onManifestStep (step : Step Manifest.Store RegistryError α) : Action Server RegistryError α :=
  (Action.ofStep step).within (fun s ↦ s.registry.manifests) withManifests

/-- A change of the blobs, if it succeeds. -/
def onBlobs (change : Blob.Store → Except RegistryError (α × Blob.Store)) :
    Action Server RegistryError α := onBlobStep (.ofResult change)

/-- A change of the manifests, if it succeeds. -/
def onManifests (change : Manifest.Store → Except RegistryError (α × Manifest.Store)) :
    Action Server RegistryError α := onManifestStep (.ofResult change)

/-- The identifier of a reference, from the link cache or from the chain of resolvers. -/
def locate (repository reference : String) : Action Server ResolveFailure String := do
  let chain ← .reading fun s ↦ s.registry.resolvers
  onLinks (Link.Setting.locate chain repository reference)

/-- What the chain of resolvers finds. -/
def resolve (repository reference : String) : Action Server ResolveFailure (List String) := do
  let chain ← .reading fun s ↦ s.registry.resolvers
  onWorld (Resolver.resolve chain repository reference)

/-- A call to the gateway, whatever the status of the answer. -/
def fetch (method : Http.Method) (identifier path : String) :
    Action Server FetchFailure Fetched := do
  let gateway ← .reading fun s ↦ s.registry.gateway
  onWorld (World.onGateway (gateway.fetch method identifier path))

/-- The body that the gateway answers with, if the answer tells of success. -/
def get (identifier path : String) : Action Server FetchFailure ByteArray := do
  let gateway ← .reading fun s ↦ s.registry.gateway
  onWorld (World.onGateway (gateway.get identifier path))

end Server

end ImageRegistry
