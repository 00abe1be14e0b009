/-!
# Status codes

The status of an answer is a number of three digits. The registered numbers have a reason phrase
beside them when they are printed.
-/

namespace ImageRegistry.Http

/-- The status of an answer. -/
structure Status where
  code : Nat
  deriving DecidableEq, Repr

namespace Status

/-- The reason phrases of the registered status codes. -/
def reasons : List (Nat × String) := [
  (100, "Continue"), (101, "Switching Protocols"), (102, "Processing"), (103, "Early Hints"),
  (200, "OK"), (201, "Created"), (202, "Accepted"), (203, "Non Authoritative Information"),
  (204, "No Content"), (205, "Reset Content"), (206, "Partial Content"), (207, "Multi-Status"),
  (208, "Already Reported"), (226, "IM Used"), (300, "Multiple Choices"),
  (301, "Moved Permanently"), (302, "Found"), (303, "See Other"), (304, "Not Modified"),
  (305, "Use Proxy"), (307, "Temporary Redirect"), (308, "Permanent Redirect"),
  (400, "Bad Request"), (401, "Unauthorized"), (402, "Payment Required"), (403, "Forbidden"),
  (404, "Not Found"), (405, "Method Not Allowed"), (406, "Not Acceptable"),
  (407, "Proxy Authentication Required"), (408, "Request Timeout"), (409, "Conflict"),
  (410, "Gone"), (411, "Length Required"), (412, "Precondition Failed"),
  (413, "Payload Too Large"), (414, "URI Too Long"), (415, "Unsupported Media Type"),
  (416, "Range Not Satisfiable"), (417, "Expectation Failed"), (418, "I'm a teapot"),
  (421, "Misdirected Request"), (422, "Unprocessable Entity"), (423, "Locked"),
  (424, "Failed Dependency"), (425, "Too Early"), (426, "Upgrade Required"),
  (428, "Precondition Required"), (429, "Too Many Requests"),
  (431, "Request Header Fields Too Large"), (451, "Unavailable For Legal Reasons"),
  (500, "Internal Server Error"), (501, "Not Implemented"), (502, "Bad Gateway"),
  (503, "Service Unavailable"), (504, "Gateway Timeout"), (505, "HTTP Version Not Supported"),
  (506, "Variant Also Negotiates"), (507, "Insufficient Storage"), (508, "Loop Detected"),
  (510, "Not Extended"), (511, "Network Authentication Required")]

/-- The status with its reason phrase. -/
def text (s : Status) : String :=
  toString s.code ++ " " ++ (reasons.lookup s.code).getD "<unknown status code>"

/-- Whether the request was granted. -/
def isSuccess (s : Status) : Bool := 200 ≤ s.code && s.code < 300

/-- Whether the server failed. -/
def isServerError (s : Status) : Bool := 500 ≤ s.code && s.code < 600

/-- Whether the status tells of an error. -/
def isError (s : Status) : Bool := 400 ≤ s.code

/-! ### The codes in use -/

/-- The request was granted. -/
def ok : Status := ⟨200⟩

/-- Something was stored. -/
def created : Status := ⟨201⟩

/-- An upload was begun. -/
def accepted : Status := ⟨202⟩

/-- The request was granted, and there is nothing to send. -/
def noContent : Status := ⟨204⟩

/-- The request is at fault. -/
def badRequest : Status := ⟨400⟩

/-- What was asked for is not there. -/
def notFound : Status := ⟨404⟩

/-- The method has no meaning for the path. -/
def methodNotAllowed : Status := ⟨405⟩

/-- The body of the request is too long. -/
def payloadTooLarge : Status := ⟨413⟩

/-- A part of an upload does not start where the upload ends. -/
def rangeNotSatisfiable : Status := ⟨416⟩

/-- The registry failed. -/
def internalServerError : Status := ⟨500⟩

/-- The gateway failed. -/
def badGateway : Status := ⟨502⟩

end Status

end ImageRegistry.Http
