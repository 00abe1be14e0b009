import ImageRegistry.Digest.Basic
import ImageRegistry.Manifest.Document
import ImageRegistry.Manifest.Media

/-!
# Manifests

A manifest is kept as the bytes that came in, with their digest and a media type, which is detected
from the document when none is given.
-/

namespace ImageRegistry

/-- A manifest as it is kept. -/
structure Manifest where
  body : ByteArray
  mediaType : String
  digest : String
  /-- The identifier that it was pulled from, if it was not pushed. -/
  origin : Option String
  deriving DecidableEq

namespace Manifest

/-- The media type that a document has by its own account, or else by its version. -/
def Document.media (d : Document) : Media :=
  match d.mediaType.bind Media.named? with
  | some media => media
  | none =>
    match d.schemaVersion with
    | some 1 => .firstManifest
    | some 2 =>
      if !d.manifests.isEmpty then .manifestList
      else if d.mediaType.isNone then .secondManifest
      else .imageManifest
    | _ => .imageManifest

/-- The media type of a body. What is no document is taken for the manifest of an image. -/
def detected (body : ByteArray) : Media :=
  match Document.read? body with
  | some document => document.media
  | none => .imageManifest

/-- The media type of a body, as it is given or else as it is detected. -/
def mediaTypeOf (body : ByteArray) (given : Option String) : String :=
  match given.filter (!·.isEmpty) with
  | some mediaType => mediaType
  | none => (detected body).name

/-- The manifest of a body. -/
def ofBody (body : ByteArray) (mediaType origin : Option String) : Manifest where
  body := body
  mediaType := mediaTypeOf body mediaType
  digest := Digest.ofContent body
  origin := origin

/-- Whether it is a manifest of manifests. -/
def isIndex (m : Manifest) : Bool := Media.isIndex m.mediaType

@[simp] theorem digest_ofBody (body : ByteArray) (mediaType origin : Option String) :
    (ofBody body mediaType origin).digest = Digest.ofContent body := rfl

@[simp] theorem body_ofBody (body : ByteArray) (mediaType origin : Option String) :
    (ofBody body mediaType origin).body = body := rfl

end Manifest

end ImageRegistry
