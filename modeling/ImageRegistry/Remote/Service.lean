import ImageRegistry.Http.Message

/-!
# Remote services

A service somewhere else that answers requests over HTTP. It may answer, and then send its body to
the end, in part or without an end; it may fail before it answers; or it may never answer. What it
does is a function of the request, and every request that it gets is kept in its log.
-/

namespace ImageRegistry.Remote

/-- What a service is asked. -/
structure Request where
  method : Http.Method
  /-- The path and the query. -/
  target : String
  deriving DecidableEq, Repr

/-- What goes wrong before there is an answer. -/
inductive Fault where
  | requestTimeout
  | unsupportedProtocol
  | other (word : String)
  deriving DecidableEq, Repr

/-- The wording of a fault. -/
def Fault.message : Fault → String
  | requestTimeout => "request timeout"
  | unsupportedProtocol => "unsupported protocol"
  | other word => "transport: " ++ word

/-- How the body of an answer comes in. -/
inductive Transfer where
  /-- To its end. -/
  | complete (body : ByteArray)
  /-- In part, until the connection fails. -/
  | broken (body : ByteArray) (reason : String)
  /-- Without an end. -/
  | endless (body : ByteArray)
  deriving DecidableEq

/-- The status and the headers of an answer. -/
structure Head where
  status : Http.Status
  headers : Http.Headers
  deriving DecidableEq

/-- What becomes of a request. -/
inductive Exchange where
  | answer (head : Head) (transfer : Transfer)
  | fault (fault : Fault)
  /-- The service never answers. -/
  | stalled
  deriving DecidableEq

/-- A service with the requests that it has got, the latest one last. -/
structure Service where
  respond : Request → Exchange
  log : List Request := []

namespace Service

/-- What becomes of a request, and the service with the request in its log. -/
def exchange (service : Service) (request : Request) : Exchange × Service :=
  (service.respond request, { service with log := service.log ++ [request] })

@[simp] theorem respond_exchange (service : Service) (request : Request) :
    (service.exchange request).2.respond = service.respond := rfl

@[simp] theorem log_exchange (service : Service) (request : Request) :
    (service.exchange request).2.log = service.log ++ [request] := rfl

end Service

end ImageRegistry.Remote
