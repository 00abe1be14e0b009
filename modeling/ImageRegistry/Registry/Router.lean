import ImageRegistry.Registry.Manifests
import ImageRegistry.Registry.Query
import ImageRegistry.Registry.Route

/-!
# The router

Requests beneath `/v2/` are for manifests, blobs and uploads; `/dig` asks the chain of resolvers and
remembers nothing. What is wrong with the path is told before what is wrong with the query string,
and that before a body that is too long.
-/

namespace ImageRegistry.Server

/-- Does what a request beneath `/v2/` asks for. -/
def perform (method : Http.Method) (route : Route) (digest : Option String)
    (headers : Http.Headers) (body : ByteArray) : Action Server RegistryError Http.Response := do
  .ofExcept (fun e ↦ e) (Route.checkRepository route.repository)
  match route with
  | .manifest repository reference =>
    .ofExcept (fun e ↦ e) (Route.checkReference reference)
    match method with
    | .get | .head => serveManifest method repository reference
    | .put => storeManifest repository reference headers body
    | other => .fail (.methodUnknown other)
  | .blob repository blob =>
    .ofExcept (fun e ↦ e) (Blob.Store.validate blob)
    match method with
    | .get | .head => serveBlob method repository blob
    | other => .fail (.methodUnknown other)
  | .uploads repository =>
    match method with
    | .post => beginUpload repository digest body
    | other => .fail (.methodUnknown other)
  | .upload repository id =>
    match method with
    | .patch => appendUpload repository id headers body
    | .put => finishUpload repository id digest body
    | .get => uploadStatus repository id
    | .delete => cancelUpload repository id
    | other => .fail (.methodUnknown other)

/-- Does what a request for a path asks for. -/
def dispatch (method : Http.Method) (path : String) (digest : Option String)
    (headers : Http.Headers) (body : ByteArray) : Action Server RegistryError Http.Response :=
  match Route.ofPath? path with
  | some route => perform method route digest headers body
  | none => .fail (.repositoryUnknown path)

/-- The repository and the reference of a request to the chain of resolvers. -/
def digTarget (target : String) : String × String :=
  match Text.splitFirst ':' target.toList with
  | some (repository, reference) => (String.ofList repository, String.ofList reference)
  | none => (target, "")

/-- The answer that lists identifiers, one a line. -/
def listingResponse (identifiers : List String) : Http.Response :=
  .plain .ok ("\n".intercalate identifiers ++ "\n")

/-- Asks the chain of resolvers, and gets the manifest of the first identifier from the gateway
unless identifiers are wanted. -/
def dig (query : Query.Dig) : Action Server RegistryError Http.Response := do
  let (repository, reference) := digTarget query.target
  .ofExcept (fun e ↦ e) (Route.checkRepository repository)
  let identifiers ← (resolve repository reference).mapError .unresolved
  if query.short || reference.isEmpty then return listingResponse identifiers
  else
    match identifiers with
    | [] => .fail (.repositoryUnknown query.target)
    | identifier :: _ =>
      let body ← (get identifier (manifestPath reference)).mapError .gateway
      return manifestResponse .get (.ofBody body none (some identifier))

/-- The answer of an action, which tells of its error if it fails. -/
def answer (act : Action Server RegistryError Http.Response) :
    Action Server Empty Http.Response := do
  match ← act.attempt with
  | .ok response => return response
  | .error error => return error.response

/-! ### Answers before anything is done -/

/-- The answer to a request for nothing that is there. -/
def notFoundResponse : Http.Response := .empty .notFound

/-- The answer to a method other than `GET` and `HEAD`. -/
def notAllowedResponse : Http.Response :=
  (Http.Response.empty .methodNotAllowed).withHeader "allow" "GET,HEAD"

/-- The answer to a path that does not decode to text. -/
def badPathResponse : Http.Response :=
  .plain .badRequest "Invalid URL: Invalid UTF-8 in \x60path\x60"

/-- The answer to a query string at fault. -/
def badQueryResponse (fault : QueryFault) : Http.Response :=
  .plain .badRequest ("Failed to deserialize query string: " ++ fault.message)

/-- The answer to a body that is too long. -/
def tooLongResponse : Http.Response :=
  .plain .payloadTooLarge "Failed to buffer the request body: length limit exceeded"

/-- Whether a body is longer than a registry allows. -/
def isTooLong (registry : Registry) (body : ByteArray) : Bool :=
  match registry.bodyLimit with
  | some limit => limit < body.size
  | none => false

/-! ### Routing -/

/-- The text that a path with escapes stands for. -/
def decodedPath? (path : List Char) : Option String :=
  Text.utf8? (Text.bytesOf (Text.percentDecode (Text.byteList (String.ofList path).toUTF8)))

/-- Answers a request for a path beneath `/v2/`. -/
def serveRegistry (request : Http.Request) (path : List Char) :
    Action Server Empty Http.Response := do
  match decodedPath? path with
  | none => return badPathResponse
  | some path =>
    match Query.digest? request.uri.query with
    | .error fault => return badQueryResponse fault
    | .ok digest =>
      if isTooLong (← .reading Server.registry) request.body then return tooLongResponse
      else answer (dispatch request.method path digest request.headers request.body)

/-- Answers a request to the chain of resolvers. -/
def serveDig (request : Http.Request) : Action Server Empty Http.Response :=
  match Query.dig? request.uri.query with
  | .error fault => return badQueryResponse fault
  | .ok query => answer (dig query)

/-- The answer that the registry is there. -/
def versionResponse : Http.Response := .json .ok "\x7b\x7d"

/-- Answers a request, without what every answer has. -/
def serve (request : Http.Request) : Action Server Empty Http.Response := do
  let path := request.uri.routePath.toList
  if path = "/v2".toList ∨ path = "/v2/".toList then
    return (if request.method.isRead then versionResponse else notAllowedResponse).answering
      request.method
  else if path = "/dig".toList then
    if request.method.isRead then return (← serveDig request).answering request.method
    else return notAllowedResponse.answering request.method
  else
    match Text.stripLead? "/v2/".toList path with
    | some rest => return (← serveRegistry request rest).answering request.method
    | none => return notFoundResponse

/-- Answers a request. -/
def handle (request : Http.Request) : Action Server Empty Http.Response := do
  return (← serve request).stamped

end ImageRegistry.Server
