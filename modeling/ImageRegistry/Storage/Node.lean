import ImageRegistry.Action
import ImageRegistry.Json.Reader
import ImageRegistry.Storage.Entry
import ImageRegistry.Storage.Error
import ImageRegistry.Text.Folded

/-!
# Storage behind the interface of a node

A node of a storage network lists a directory when it is asked for `api/v0/ls?arg=identifier`. The
deadline holds for the time to the answer; for the body of the answer there is none, so a listing
whose body never ends is waited for without an end.
-/

namespace ImageRegistry.Storage

/-- The interface of a node, and how long it may take to answer, in nanoseconds. -/
structure Node where
  api : Uri
  timeout : Nat
  service : Remote.Service

namespace Node

/-- Whether a byte stands for itself in the argument of a listing. -/
def keepsByte (b : UInt8) : Bool :=
  (0x30 ≤ b && b ≤ 0x39) || (0x41 ≤ b && b ≤ 0x5a) || (0x61 ≤ b && b ≤ 0x7a) ||
    b = 0x2d || b = 0x5f || b = 0x2e || b = 0x2f

/-- An identifier as the argument of a listing. -/
def argument (identifier : String) : List Char :=
  (Text.percentEncode keepsByte (Text.byteList identifier.toUTF8)).map fun b ↦ Char.ofNat b.toNat

/-- The text of the address of a listing. -/
def address (n : Node) (identifier : String) : String :=
  String.ofList (Text.dropTrailing (· = '/') n.api.render.toList ++
    "/api/v0/ls?arg=".toList ++ argument identifier)

/-- An error of the interface. -/
def failure (kind : ErrorKind) (cause : Cause) (identifier : Option String) : Error :=
  ⟨kind, "http", identifier, cause⟩

/-- The `Uri` of a listing. -/
def listUrl (n : Node) (identifier : String) : Except Error Uri :=
  match Uri.parse? (n.address identifier) with
  | some uri => .ok uri
  | none => .error (failure .invalidRequest .malformedUri none)

/-! ### Documents -/

/-- A link of a listing: its name, the identifier of what it leads to, a size and a type. -/
def link? (value : Json.Value) : Option Entry := do
  match ← value.fields? ["Name", "Hash", "Size", "Type"] with
  | [name, hash, size, type] =>
    let name ← Json.Value.required Json.Value.text? name
    let hash ← Json.Value.required Json.Value.text? hash
    let size ← Json.Value.defaulted 0 (Json.Value.unsigned? Text.wordBound) size
    let type ← Json.Value.defaulted 0 (Json.Value.unsigned? 256) type
    return ⟨name, size, if type = 1 then .directory else if type = 2 then .file else .other, hash⟩
  | _ => none

/-- The links of one object of a listing. -/
def object? (value : Json.Value) : Option (List Entry) := do
  match ← value.fields? ["Links"] with
  | [links] => Json.Value.defaulted [] (Json.Value.list? link?) links
  | _ => none

/-- The entries of a listing. -/
def listing? (document : ByteArray) : Option (List Entry) := do
  match ← (← Json.read? document).fields? ["Objects"] with
  | [objects] => return (← Json.Value.defaulted [] (Json.Value.list? object?) objects).flatten
  | _ => none

/-- The message that a document of an error holds. -/
def errorMessage? (document : ByteArray) : Option String := do
  match ← (← Json.read? document).fields? ["Message"] with
  | [message] => Json.Value.defaulted "" Json.Value.text? message
  | _ => none

/-! ### Listing -/

/-- The error that a status of failure and a body tell of. -/
def refusal (status : Http.Status) (body : ByteArray) (identifier : String) : Error :=
  let message := (errorMessage? body).getD (String.ofList (Text.decodeLossy (Text.byteList body)))
  let kind : ErrorKind :=
    if status = .notFound ∨ Text.mentions message "not found" = true ∨
        Text.mentions message "no link named" = true then .notFound
    else if status.isServerError then .serviceUnavailable
    else .invalidRequest
  failure kind (.refused status message) (some identifier)

/-- The entries that an answer with its whole body gives. -/
def entries (status : Http.Status) (body : ByteArray) (identifier : String) :
    Except Error (List Entry) :=
  if status.isSuccess then
    match listing? body with
    | some entries => .ok entries
    | none => .error (failure .serializationError .malformedListing (some identifier))
  else .error (refusal status body identifier)

/-- Lists the directory of an identifier. -/
def list (identifier : String) : Action Node Error (List Entry) := do
  let node ← .state
  let uri ← .ofExcept id (node.listUrl identifier)
  let (exchange, service) := node.service.exchange ⟨.post, uri.target⟩
  .change fun n ↦ { n with service := service }
  match exchange with
  | .answer head (.complete body) => .ofExcept id (entries head.status body identifier)
  | .answer _ (.broken _ reason) => .fail (failure .io (.body reason) (some identifier))
  | .answer _ (.endless _) => .wait
  | .fault fault => .fail (failure .io (.fault fault) (some identifier))
  | .stalled => .fail (failure .timeout .deadline (some identifier))

end Node

end ImageRegistry.Storage
