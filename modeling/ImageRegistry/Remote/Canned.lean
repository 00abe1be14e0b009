import ImageRegistry.Remote.Service

/-!
# Services with answers laid out beforehand

A service that looks its answer up by the target of the request. Of several answers for one target
the last one counts; a target without an answer is not found. The length of the body is put among
the headers unless they name one, and a `HEAD` request gets the headers without the body.
-/

namespace ImageRegistry.Remote

/-- What an answer does instead of arriving. -/
inductive Disturbance where
  | none
  | stall
  | fault (fault : Fault)
  /-- The body is sent, and then the connection fails. -/
  | bodyBreaks (reason : String)
  /-- The body is sent, and then nothing more. -/
  | bodyStalls
  deriving DecidableEq

/-- An answer for one target. -/
structure CannedAnswer where
  target : String
  status : Http.Status
  headers : Http.Headers
  body : ByteArray
  disturbance : Disturbance
  deriving DecidableEq

/-- The answer for a target that has none. -/
def CannedAnswer.missing (target : String) : CannedAnswer :=
  ⟨target, .notFound, [], ByteArray.empty, .none⟩

/-- The status and the headers that are sent. -/
def CannedAnswer.head (answer : CannedAnswer) : Head where
  status := answer.status
  headers :=
    if (answer.headers.first? "content-length").isSome then answer.headers
    else ("content-length", (toString answer.body.size).toUTF8) :: answer.headers

/-- What becomes of a request with this method. -/
def CannedAnswer.exchange (answer : CannedAnswer) (method : Http.Method) : Exchange :=
  let body := if method = .head then ByteArray.empty else answer.body
  match answer.disturbance with
  | .none => .answer answer.head (.complete body)
  | .stall => .stalled
  | .fault fault => .fault fault
  | .bodyBreaks reason => .answer answer.head (.broken body reason)
  | .bodyStalls => .answer answer.head (.endless body)

/-- The service that gives these answers. -/
def Service.canned (answers : List CannedAnswer) : Service where
  respond request :=
    ((answers.reverse.find? fun a ↦ a.target = request.target).getD
      (.missing request.target)).exchange request.method

end ImageRegistry.Remote
