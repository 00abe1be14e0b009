import ImageRegistry.Text.Blank

/-!
# Media types of manifests

The media types that the registry tells apart. A manifest of manifests, an index, is known by its
media type, which may have parameters after a semicolon.
-/

namespace ImageRegistry.Manifest

/-- The media types of manifests. -/
inductive Media where
  | imageManifest
  | imageIndex
  | firstManifest
  | secondManifest
  | manifestList
  deriving DecidableEq, Repr

namespace Media

/-- The name of a media type. -/
def name : Media → String
  | imageManifest => "application/vnd.oci.image.manifest.v1+json"
  | imageIndex => "application/vnd.oci.image.index.v1+json"
  | firstManifest => "application/vnd.docker.distribution.manifest.v1+json"
  | secondManifest => "application/vnd.docker.distribution.manifest.v2+json"
  | manifestList => "application/vnd.docker.distribution.manifest.list.v2+json"

/-- The media type that a document may name in itself. A manifest of an image does not count. -/
def named? (name : String) : Option Media :=
  [imageIndex, manifestList, secondManifest, firstManifest].find? fun m ↦ m.name = name

/-- A media type without its parameters and the blanks around it. -/
def essence (mediaType : String) : String :=
  String.ofList (Text.trim (mediaType.toList.takeWhile (· ≠ ';')))

/-- Whether a media type is that of an index. -/
def isIndex (mediaType : String) : Bool :=
  essence mediaType = imageIndex.name || essence mediaType = manifestList.name

end Media

end ImageRegistry.Manifest
