import ImageRegistry.Gateway
import ImageRegistry.Link.Cache
import ImageRegistry.Resolver.Basic

/-!
# Errors of the registry

Each error has a status, a code that clients know it by, and a message. The answer that tells of an
error is a JSON document with all three.
-/

namespace ImageRegistry

/-- What is wrong with a part of an upload. -/
inductive UploadFault where
  /-- A part without a range came for an upload that has begun. -/
  | rangeRequired (id : String)
  /-- The range does not have the length of the part. -/
  | rangeMismatch (id : String) (start last length : Nat)
  | malformedRange (value : String)
  | unreadableRange
  /-- Another fault, in its own words. -/
  | described (text : String)
  deriving DecidableEq, Repr

/-- The wording of a fault. -/
def UploadFault.message : UploadFault → String
  | rangeRequired id => "upload " ++ id ++ " already started, Content-Range required"
  | rangeMismatch id start last length =>
    "upload " ++ id ++ ": Content-Range " ++ toString start ++ "-" ++ toString last ++
      " does not match a " ++ toString length ++ " byte chunk"
  | malformedRange value => "malformed Content-Range: " ++ value
  | unreadableRange => "Content-Range is not text"
  | described text => text

/-- The ways in which the registry refuses a request. -/
inductive RegistryError where
  | invalidRepository (name : String)
  | repositoryUnknown (path : String)
  /-- No resolver knows the repository. -/
  | unresolved (failure : ResolveFailure)
  | invalidDigest (digest : String)
  /-- An upload is to end, and no digest is given. -/
  | missingDigest
  | digestMismatch (expected actual : String)
  | blobNotFound (digest : String)
  | manifestNotFound (reference : String)
  | invalidManifest (reason : String)
  | uploadInvalid (fault : UploadFault)
  | uploadUnknown (id : String)
  /-- A part of an upload does not start where the upload ends. -/
  | rangeNotSatisfiable (length start : Nat)
  | methodUnknown (method : Http.Method)
  | gateway (failure : FetchFailure)
  | links (failure : Link.WriteFailure)
  deriving DecidableEq, Repr

namespace RegistryError

/-- The status of the answer that tells of an error. -/
def status : RegistryError → Http.Status
  | blobNotFound _ | manifestNotFound _ | repositoryUnknown _ | unresolved _ | uploadUnknown _ =>
    .notFound
  | invalidDigest _ | missingDigest | invalidManifest _ | invalidRepository _ | digestMismatch ..
  | uploadInvalid _ => .badRequest
  | rangeNotSatisfiable .. => .rangeNotSatisfiable
  | methodUnknown _ => .methodNotAllowed
  | gateway _ => .badGateway
  | links _ => .internalServerError

/-- The code that clients know an error by. -/
def code : RegistryError → String
  | invalidRepository _ => "NAME_INVALID"
  | repositoryUnknown _ | unresolved _ => "NAME_UNKNOWN"
  | invalidDigest _ | missingDigest | digestMismatch .. => "DIGEST_INVALID"
  | blobNotFound _ => "BLOB_UNKNOWN"
  | manifestNotFound _ => "MANIFEST_UNKNOWN"
  | invalidManifest _ => "MANIFEST_INVALID"
  | uploadInvalid _ => "BLOB_UPLOAD_INVALID"
  | uploadUnknown _ | rangeNotSatisfiable .. => "BLOB_UPLOAD_UNKNOWN"
  | methodUnknown _ => "METHOD_UNKNOWN"
  | gateway _ | links _ => "UNKNOWN"

/-- The wording of an error. -/
def message : RegistryError → String
  | invalidRepository name => "invalid repository name: " ++ name
  | repositoryUnknown path => "repository unknown: " ++ path
  | unresolved failure => "repository unknown: " ++ failure.message
  | invalidDigest digest => "invalid digest: " ++ digest
  | missingDigest => "invalid digest: missing digest parameter"
  | digestMismatch expected actual =>
    "digest mismatch: expected " ++ expected ++ ", got " ++ actual
  | blobNotFound digest => "blob not found: " ++ digest
  | manifestNotFound reference => "manifest not found: " ++ reference
  | invalidManifest reason => "invalid manifest: " ++ reason
  | uploadInvalid fault => "blob upload invalid: " ++ fault.message
  | uploadUnknown id => "blob upload unknown: " ++ id
  | rangeNotSatisfiable length start =>
    "range not satisfiable: upload holds " ++ toString length ++ " bytes, chunk starts at " ++
      toString start
  | methodUnknown method => "method not allowed: " ++ method.name
  | gateway failure => failure.message
  | links failure => failure.message

/-- The document that tells of an error. -/
def document (e : RegistryError) : String :=
  let code := Json.quoted e.code
  let message := Json.quoted e.message
  "\x7b\"code\":" ++ code ++ ",\"status\":" ++ toString e.status.code ++ ",\"message\":" ++
    message ++ ",\"errors\":[\x7b\"code\":" ++ code ++ ",\"message\":" ++ message ++ "\x7d]\x7d"

/-- The answer that tells of an error. -/
def response (e : RegistryError) : Http.Response := .json e.status e.document

/-- Every error has a status that tells of an error. -/
theorem isError_status (e : RegistryError) : e.status.isError = true := by
  cases e <;> rfl

end RegistryError

end ImageRegistry
