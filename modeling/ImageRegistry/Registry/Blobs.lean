import ImageRegistry.Registry.Basic

/-!
# Requests for blobs

A blob is served from memory, or else relayed from the gateway. It is pushed whole, or in the parts
of an upload.
-/

namespace ImageRegistry.Server

/-- The path of an upload. -/
def uploadPath (repository id : String) : String := "/v2/" ++ repository ++ "/blobs/uploads/" ++ id

/-- The answer that tells how much of an upload is there. -/
def uploadProgress (status : Http.Status) (repository id : String) (length : Nat) :
    Http.Response :=
  .headersOnly status [
    ("location", uploadPath repository id),
    ("range", Blob.rangeText length),
    ("docker-upload-uuid", id),
    ("content-length", "0")]

/-- The answer that tells where something was stored under its digest. -/
def storedAt (path digest : String) : Http.Response :=
  .headersOnly .created [
    ("location", path ++ digest),
    ("docker-content-digest", digest),
    ("content-length", "0")]

/-- The answer that tells of a blob that was stored. -/
def blobCreated (repository digest : String) : Http.Response :=
  storedAt ("/v2/" ++ repository ++ "/blobs/") digest

/-- The answer with a blob from memory. -/
def blobResponse (method : Http.Method) (digest : String) (data : ByteArray) : Http.Response :=
  ((Http.Response.bytes .ok (if method = .head then ByteArray.empty else data)).withHeader
    "content-length" (toString data.size)).withHeader "docker-content-digest" digest

/-- The answer with a blob from the gateway. -/
def relayedResponse (digest identifier : String) (fetched : Fetched) : Http.Response :=
  ((((Http.Response.bytes fetched.status fetched.body).withHeader
    "content-length" (toString fetched.contentLength)).withOptional
    "content-type" fetched.contentType).withOptional
    "docker-content-digest" (some digest)).withOptional
    "x-docker-content-id" (some identifier)

/-- Gets a blob from the gateway. -/
def relayBlob (method : Http.Method) (repository digest : String) :
    Action Server RegistryError Http.Response := do
  let identifier ← (locate repository digest).mapError fun _ ↦ .blobNotFound digest
  let fetched ← (fetch method identifier ("blobs/" ++ digest)).mapError .gateway
  if fetched.status.isSuccess then return relayedResponse digest identifier fetched
  else .fail (.blobNotFound digest)

/-- Serves a blob. -/
def serveBlob (method : Http.Method) (repository digest : String) :
    Action Server RegistryError Http.Response := do
  match ← .reading fun s ↦ s.registry.blobs.get? digest with
  | some data => return blobResponse method digest data
  | none => relayBlob method repository digest

/-- Begins an upload, or stores a whole blob if its digest is given. -/
def beginUpload (repository : String) (digest : Option String) (body : ByteArray) :
    Action Server RegistryError Http.Response := do
  match digest with
  | some expected =>
    let digest ← onBlobStep (Blob.commit repository expected body)
    return blobCreated repository digest
  | none =>
    let id ← onWorld World.drawUploadId
    return uploadProgress .accepted repository id 0

/-- The range that the headers of a part give, if they give one. -/
def givenRange (headers : Http.Headers) : Except RegistryError (Option Blob.Range) :=
  match headers.first? "content-range" with
  | none => .ok none
  | some value =>
    match Http.valueText? value with
    | some text => (Blob.parseRange text).map some
    | none => .error (.uploadInvalid .unreadableRange)

/-- Appends a part to an upload. -/
def appendUpload (repository id : String) (headers : Http.Headers) (body : ByteArray) :
    Action Server RegistryError Http.Response := do
  let range ← .ofExcept (fun e ↦ e) (givenRange headers)
  let now ← .reading fun s ↦ s.world.clock
  let length ← onBlobStep (Blob.append now repository id range body)
  return uploadProgress .noContent repository id length

/-- Ends an upload. -/
def finishUpload (repository id : String) (digest : Option String) (body : ByteArray) :
    Action Server RegistryError Http.Response := do
  match digest with
  | none => .fail .missingDigest
  | some expected =>
    let digest ← onBlobStep (Blob.finalize repository id expected body)
    return blobCreated repository digest

/-- Tells how much of an upload is there. -/
def uploadStatus (repository id : String) : Action Server RegistryError Http.Response := do
  let length ← onBlobStep (Blob.status repository id)
  return uploadProgress .noContent repository id length

/-- Gives an upload up. -/
def cancelUpload (repository id : String) : Action Server RegistryError Http.Response := do
  onBlobStep (Blob.cancel repository id)
  return .empty .noContent

end ImageRegistry.Server
