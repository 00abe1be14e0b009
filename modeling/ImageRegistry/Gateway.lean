import ImageRegistry.Action
import ImageRegistry.Remote.Service
import ImageRegistry.Text.Decimal
import ImageRegistry.Text.Duration

/-!
# The gateway

Content is read through a gateway, which serves what is beneath an identifier at
`base/identifier/path`. One deadline holds for the time to the answer and again for the time from
the answer to the end of its body, so a call to the gateway always ends (`Gateway.receive` is a
function).
-/

namespace ImageRegistry

/-- The ways in which a call to the gateway fails. -/
inductive FetchFailure where
  /-- The text that was to be requested is no `Uri`. -/
  | invalidUrl (url : String)
  | transport (fault : Remote.Fault)
  /-- The body broke off. -/
  | body (reason : String)
  /-- A deadline of so many nanoseconds went by. -/
  | timeout (nanos : Nat)
  | status (status : Http.Status) (url : String)
  deriving DecidableEq, Repr

/-- The wording of a failure. -/
def FetchFailure.message : FetchFailure → String
  | invalidUrl url => "invalid gateway url " ++ url
  | transport fault => "gateway transport: " ++ fault.message
  | body reason => "reading gateway body: " ++ reason
  | timeout nanos => "gateway did not answer within " ++ Text.duration nanos
  | status code url => "gateway returned " ++ code.text ++ " for " ++ url

/-- An answer of the gateway with its whole body. -/
structure Fetched where
  status : Http.Status
  /-- The length that the headers name, or else the length of the body. -/
  contentLength : Nat
  contentType : Option String
  body : ByteArray
  deriving DecidableEq

/-- Where the gateway is, and how long it may take, in nanoseconds. -/
structure Gateway where
  base : Uri
  timeout : Nat
  deriving DecidableEq

namespace Gateway

/-- The text before the slashes at its end. -/
def withoutSlashes (text : String) : List Char := Text.dropTrailing (· = '/') text.toList

/-- The text of the address of a path beneath an identifier. -/
def address (g : Gateway) (identifier path : String) : String :=
  let root := withoutSlashes g.base.render ++ '/' :: identifier.toList
  String.ofList (if path.isEmpty then root else root ++ '/' :: path.toList.dropWhile (· = '/'))

/-- The `Uri` of a path beneath an identifier. -/
def url (g : Gateway) (identifier path : String) : Except FetchFailure Uri :=
  match Uri.parse? (g.address identifier path) with
  | some uri => .ok uri
  | none => .error (.invalidUrl (g.address identifier path))

/-- The answer that a body which came to its end makes. -/
def assemble (head : Remote.Head) (body : ByteArray) : Fetched where
  status := head.status
  contentLength :=
    ((head.headers.text? "content-length").bind fun text ↦
      Text.unsigned? Text.wordBound text.toList).getD body.size
  contentType := head.headers.text? "content-type"
  body := body

/-- What a call gets from an exchange within the deadline. -/
def receive (g : Gateway) : Remote.Exchange → Except FetchFailure Fetched
  | .answer head (.complete body) => .ok (assemble head body)
  | .answer _ (.broken _ reason) => .error (.body reason)
  | .answer _ (.endless _) => .error (.timeout g.timeout)
  | .fault fault => .error (.transport fault)
  | .stalled => .error (.timeout g.timeout)

/-- Asks for a path beneath an identifier, whatever the status of the answer. -/
def fetch (g : Gateway) (method : Http.Method) (identifier path : String) :
    Action Remote.Service FetchFailure Fetched := do
  let uri ← .ofExcept id (g.url identifier path)
  let exchange ← .changing fun service ↦ service.exchange ⟨method, uri.target⟩
  .ofExcept id (g.receive exchange)

/-- Gets the body of a path beneath an identifier, if the answer tells of success. -/
def get (g : Gateway) (identifier path : String) :
    Action Remote.Service FetchFailure ByteArray := do
  let fetched ← g.fetch .get identifier path
  if fetched.status.isSuccess then return fetched.body
  else
    let uri ← .ofExcept id (g.url identifier path)
    .fail (.status fetched.status uri.render)

end Gateway

end ImageRegistry
