import ImageRegistry.Remote.Service

/-!
# Errors of storage backends

An error of a backend says what kind of thing went wrong, in which backend, for which identifier if
there is one, and why. The kind tells whether it is worth while to try again.
-/

namespace ImageRegistry.Storage

/-- What an error means, whatever backend it comes from. -/
inductive ErrorKind where
  /-- The identifier, or a path beneath it, is not there. -/
  | notFound
  /-- The backend could not be reached, or the transfer broke off. -/
  | io
  /-- The backend was reached and failed. -/
  | serviceUnavailable
  /-- The backend did not answer in time. -/
  | timeout
  /-- The request itself is wrong. -/
  | invalidRequest
  /-- The answer could not be read. -/
  | serializationError
  | other
  deriving DecidableEq, Repr

namespace ErrorKind

/-- The kind in words. -/
def text : ErrorKind → String
  | notFound => "not found"
  | io => "I/O error"
  | serviceUnavailable => "service unavailable"
  | timeout => "timed out"
  | invalidRequest => "invalid request"
  | serializationError => "serialization error"
  | other => "other error"

/-- Whether another try may succeed. -/
def isRetryable : ErrorKind → Bool
  | serviceUnavailable => true
  | timeout => true
  | io => true
  | _ => false

end ErrorKind

/-- Why a backend failed. -/
inductive Cause where
  /-- A directory was to be made of a child that is not stored. -/
  | childNotFound
  | identifierNotFound
  | pathNotFound
  /-- The content of a directory was asked for. -/
  | directoryRead
  /-- The backend answered with a status of failure and a message. -/
  | refused (status : Http.Status) (message : String)
  | deadline
  | fault (fault : Remote.Fault)
  /-- The body of the answer broke off. -/
  | body (reason : String)
  /-- The address of the backend is no `Uri`. -/
  | malformedUri
  /-- The listing is no document of the right form. -/
  | malformedListing
  /-- Another cause, in its own words. -/
  | described (text : String)
  deriving DecidableEq, Repr

/-- The wording of a cause. -/
def Cause.message : Cause → String
  | childNotFound => "child not found"
  | identifierNotFound => "identifier not found"
  | pathNotFound => "path not found"
  | directoryRead => "cannot read a directory"
  | refused status message => "HTTP " ++ status.text ++ ": " ++ message
  | deadline => "deadline has elapsed"
  | fault f => f.message
  | body reason => reason
  | malformedUri => "malformed URI"
  | malformedListing => "malformed listing"
  | described text => text

/-- An error of a backend. -/
structure Error where
  kind : ErrorKind
  engine : String
  identifier : Option String
  cause : Cause
  deriving DecidableEq, Repr

namespace Error

/-- What kind of error it is, and where. -/
def context (e : Error) : String :=
  "Storage error [" ++ e.kind.text ++ "] from " ++ e.engine ++
    (match e.identifier with
      | some identifier => " (identifier: " ++ identifier ++ ")"
      | none => "")

/-- The wording of an error. -/
def message (e : Error) : String := e.context ++ ": " ++ e.cause.message

/-- Whether the content is not there. -/
def isNotFound (e : Error) : Bool := e.kind == .notFound

end Error

end ImageRegistry.Storage
