import ImageRegistry.Registry.Basic
import ImageRegistry.Resolver.Files
import ImageRegistry.Resolver.Storage
import ImageRegistry.Settings.Address
import ImageRegistry.Settings.Storage
import ImageRegistry.Text.Quoted
import ImageRegistry.Toml.Document

/-!
# Settings of a registry

The settings are read from a TOML document, in which each of them may be missing. A `Plan` is what
they come to once they are checked, and a registry is built from it.
-/

namespace ImageRegistry

/-- One resolver of the chain. -/
inductive ResolverSettings where
  /-- Link files beneath a root. -/
  | files (root : String)
  /-- Listings of the storage, with repositories beneath a root. -/
  | storage (root : Option String)
  deriving DecidableEq, Repr

/-- The ways in which settings are refused. -/
inductive SettingsFailure where
  | unreadable (path : String) (failure : Files.Failure)
  | malformed
  | gateway (text : String)
  | sweepInterval
  | missingStorage
  | storage (error : Storage.Error)
  deriving DecidableEq, Repr

/-- The wording of a failure. -/
def SettingsFailure.message : SettingsFailure → String
  | unreadable path failure => "reading " ++ path ++ ": " ++ failure.message
  | malformed => "parsing configuration"
  | gateway text => "invalid gateway " ++ Text.quoted text
  | sweepInterval => "sweep-interval must be at least one second"
  | missingStorage => "storage resolver configured without [storage]"
  | storage error => error.message

/-- The settings of a registry. Times are in seconds, and lengths in bytes. -/
structure Settings where
  listen : SocketAddress := .octets 127 0 0 1 5000
  gateway : String := defaultGateway.render
  links : Option String := none
  fetchTimeout : Nat := 30
  /-- How long nothing may be written to an upload. -/
  uploadTtl : Nat := 3600
  sweepInterval : Nat := 60
  bodyLimit : Option Nat := none
  storage : Option StorageSettings := none
  resolvers : List ResolverSettings := []
  deriving DecidableEq, Repr

namespace ResolverSettings

/-- The settings of a kind that a record without the kind holds. -/
def ofKind? (kind : String) (record : Json.Value) : Option ResolverSettings := do
  match ← record.fields? ["root"] with
  | [root] =>
    if kind = "file" then return files (← Json.Value.required Json.Value.text? root)
    else if kind = "storage" then return storage (← Json.Value.optional Json.Value.text? root)
    else none
  | _ => none

/-- The settings that a value holds. -/
def ofValue? (value : Json.Value) : Option ResolverSettings := do
  let (kind, record) ← value.tagged? "kind"
  ofKind? kind record

end ResolverSettings

namespace Settings

/-! ### Reading -/

/-- The names of the settings. -/
def names : List String :=
  ["listen", "gateway", "links", "fetch-timeout", "upload-ttl", "sweep-interval", "body-limit",
    "storage", "resolvers"]

/-- An address that is written as a text. -/
def address? (value : Json.Value) : Option SocketAddress := value.text?.bind SocketAddress.parse?

/-- A number of a setting. -/
def number? : Json.Value → Option Nat := Json.Value.unsigned? Text.wordBound

/-- The settings that a value holds. -/
def ofValue? (value : Json.Value) : Option Settings := do
  let usual : Settings := {}
  match ← value.fields? names with
  | [listen, gateway, links, fetchTimeout, uploadTtl, sweepInterval, bodyLimit, storage,
      resolvers] =>
    return {
      listen := ← Json.Value.defaulted usual.listen address? listen
      gateway := ← Json.Value.defaulted usual.gateway Json.Value.text? gateway
      links := ← Json.Value.optional Json.Value.text? links
      fetchTimeout := ← Json.Value.defaulted usual.fetchTimeout number? fetchTimeout
      uploadTtl := ← Json.Value.defaulted usual.uploadTtl number? uploadTtl
      sweepInterval := ← Json.Value.defaulted usual.sweepInterval number? sweepInterval
      bodyLimit := ← Json.Value.optional number? bodyLimit
      storage := ← Json.Value.optional StorageSettings.ofValue? storage
      resolvers := ← Json.Value.defaulted [] (Json.Value.list? ResolverSettings.ofValue?) resolvers }
  | _ => none

/-- The settings that a TOML document holds. -/
def ofToml (document : String) : Except SettingsFailure Settings :=
  match (Toml.read? document).bind fun entries ↦ ofValue? (.object (Toml.plainEntries entries)) with
  | some settings => .ok settings
  | none => .error .malformed

/-- The settings in a file. -/
def load (files : Files.Tree) (path : String) : Except SettingsFailure Settings :=
  match files.readText path with
  | .ok text => ofToml text
  | .error failure => .error (.unreadable path failure)

/-! ### Planning -/

/-- What a registry is built from. -/
structure Plan where
  gateway : Uri
  links : Option String
  resolvers : List Resolver
  /-- The time that a call to the gateway may take, in nanoseconds. -/
  fetchTimeout : Nat
  bodyLimit : Option Nat
  /-- The storage that resolvers list, if there is one. -/
  storage : Option Storage

/-- The resolver of some settings. The storage has the number zero. -/
def resolver (hasStorage : Bool) : ResolverSettings → Except SettingsFailure Resolver
  | .files root => .ok (.ofFiles root)
  | .storage root => if hasStorage then .ok (.ofStorage 0 root) else .error .missingStorage

/-- The gateway of the settings. -/
def gatewayUri (s : Settings) : Except SettingsFailure Uri :=
  match Uri.parse? s.gateway with
  | some uri => .ok uri
  | none => .error (.gateway s.gateway)

/-- The storage of the settings. -/
def buildStorage (s : Settings) (reach : Uri → Remote.Service) :
    Except SettingsFailure (Option Storage) :=
  match s.storage with
  | none => .ok none
  | some settings => ((settings.build reach).map some).mapError .storage

/-- What the settings come to. The services behind addresses are given. -/
def plan (s : Settings) (reach : Uri → Remote.Service) : Except SettingsFailure Plan := do
  let gateway ← s.gatewayUri
  if s.sweepInterval = 0 then .error .sweepInterval
  let storage ← s.buildStorage reach
  let resolvers ← s.resolvers.mapM (resolver storage.isSome)
  return {
    gateway := gateway
    links := s.links
    resolvers := resolvers
    fetchTimeout := s.fetchTimeout * Text.second
    bodyLimit := s.bodyLimit
    storage := storage }

/-- The registry of a plan, with nothing in it. -/
def Plan.registry (p : Plan) : Registry where
  blobs := ∅
  manifests := ∅
  links := .empty p.links
  resolvers := p.resolvers
  gateway := ⟨p.gateway, p.fetchTimeout⟩
  bodyLimit := p.bodyLimit

end Settings

end ImageRegistry
