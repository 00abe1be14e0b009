import ImageRegistry.Json.Reader

/-!
# Manifest documents

What the registry reads of a manifest: its version, its media type, and the digests of what it
refers to. Everything else in the document is passed over.
-/

namespace ImageRegistry.Manifest

/-- The parts of a manifest that the registry looks at. -/
structure Document where
  schemaVersion : Option Nat
  mediaType : Option String
  /-- The digest of the configuration. -/
  config : Option String
  /-- The digests of the layers. -/
  layers : List String
  /-- The digests of the manifests that an index lists. -/
  manifests : List String
  /-- The digests of the layers in a manifest of the first version. -/
  fsLayers : List String
  deriving DecidableEq, Repr

namespace Document

/-- A record whose only field is a digest of this name. -/
def digest? (name : String) (value : Json.Value) : Option String := do
  match ← value.fields? [name] with
  | [digest] => Json.Value.required Json.Value.text? digest
  | _ => none

/-- The names of the parts, in the order in which an array gives them. -/
def names : List String :=
  ["schemaVersion", "mediaType", "config", "layers", "manifests", "fsLayers"]

/-- A list of records whose only field is a digest; it may be absent. -/
def digests? (name : String) : Option Json.Value → Option (List String) :=
  Json.Value.defaulted [] (Json.Value.list? (digest? name))

/-- The parts of a manifest that a value holds. -/
def ofValue? (value : Json.Value) : Option Document := do
  match ← value.fields? names with
  | [version, mediaType, config, layers, manifests, fsLayers] =>
    return {
      schemaVersion := ← Json.Value.optional (Json.Value.unsigned? Text.wordBound) version
      mediaType := ← Json.Value.optional Json.Value.text? mediaType
      config := ← Json.Value.optional (digest? "digest") config
      layers := ← digests? "digest" layers
      manifests := ← digests? "digest" manifests
      fsLayers := ← digests? "blobSum" fsLayers }
  | _ => none

/-- The parts of a manifest that its bytes hold. -/
def read? (body : ByteArray) : Option Document := (Json.read? body).bind ofValue?

/-- The digests of all that a document refers to. -/
def references (d : Document) : List String :=
  d.config.toList ++ d.layers ++ d.manifests ++ d.fsLayers

end Document

end ImageRegistry.Manifest
