import ImageRegistry.Collection.Table
import ImageRegistry.Http.Method
import ImageRegistry.Http.Status
import ImageRegistry.Json.Quoted
import ImageRegistry.Text.Utf8
import ImageRegistry.Uri

/-!
# Requests and responses

The headers that come in are bytes under names that may be repeated; of a repeated header the first
one counts. A response of the registry has each header once, and its values are text.

A response is made from a body with the content type that bodies of its kind have. Headers are laid
over that (`withHeader`, `withOptional`). A value that no header can hold is left out, or, where the
header must be there, takes the place of the whole response but its status (`headersOnly`).
`stamped` adds what every answer has.
-/

namespace ImageRegistry.Http

/-! ### Headers that come in -/

/-- The headers of a message that comes in, in their order. -/
abbrev Headers : Type := List (String × ByteArray)

/-- The first header of a name, which is given in small letters. -/
def Headers.first? (headers : Headers) (name : String) : Option ByteArray :=
  (headers.find? fun h ↦ h.1.toLower = name).map Prod.snd

/-- Whether a byte may stand in a header that is read as text. -/
def isTextByte (b : UInt8) : Bool := (0x20 ≤ b && b ≤ 0x7e) || b = 0x09

/-- A header value as text. -/
def valueText? (value : ByteArray) : Option String :=
  if (Text.byteList value).all isTextByte then Text.utf8? value else none

/-- The first header of a name as text, if it can be read so. -/
def Headers.text? (headers : Headers) (name : String) : Option String :=
  (headers.first? name).bind valueText?

/-! ### Requests -/

/-- A request to the registry, with its whole body. -/
structure Request where
  method : Method
  uri : Uri
  headers : Headers
  body : ByteArray

/-! ### Responses -/

/-- An answer of the registry, with its whole body. -/
structure Response where
  status : Status
  headers : Table String String
  body : ByteArray

/-- Whether a text can be the value of a header. -/
def isHeaderValue (value : String) : Bool :=
  value.toList.all fun c ↦ c = '\t' || (0x20 ≤ c.toNat && c.toNat ≠ 0x7f)

namespace Response

/-- A response without a body. -/
def empty (status : Status) : Response := ⟨status, ∅, ByteArray.empty⟩

/-- A response with a body whose type is named. -/
def ofBody (status : Status) (contentType : String) (body : ByteArray) : Response :=
  ⟨status, Table.insert ∅ "content-type" contentType, body⟩

/-- A response with bytes as they are. -/
def bytes (status : Status) (body : ByteArray) : Response :=
  ofBody status "application/octet-stream" body

/-- A response with text. -/
def plain (status : Status) (body : String) : Response :=
  ofBody status "text/plain; charset=utf-8" body.toUTF8

/-- A response with a JSON document. -/
def json (status : Status) (body : String) : Response :=
  ofBody status "application/json" body.toUTF8

/-- The response with a header, in the place of one of that name. -/
def withHeader (r : Response) (name value : String) : Response :=
  { r with headers := r.headers.insert name value }

/-- The response with a header if there is a value and a header can hold it. -/
def withOptional (r : Response) (name : String) : Option String → Response
  | some value => if isHeaderValue value then r.withHeader name value else r
  | none => r

/-- A response with headers and no body. If no header can hold one of the values, the headers are
lost and the body tells of it. -/
def headersOnly (status : Status) (headers : List (String × String)) : Response :=
  if headers.all fun h ↦ isHeaderValue h.2 then
    headers.foldl (fun r h ↦ r.withHeader h.1 h.2) (empty status)
  else plain status "failed to parse header value"

/-- The length of the body as a header, where the response does not name one. -/
def withLength (r : Response) : Response :=
  if r.headers.contains "content-length" then r
  else r.withHeader "content-length" (toString r.body.size)

/-- The response without its body, as the answer to a `HEAD` request. -/
def withoutBody (r : Response) : Response := { r with body := ByteArray.empty }

/-- The response as the answer to a method: with a length, and without a body for `HEAD`. -/
def answering (method : Method) (r : Response) : Response :=
  if method = .head then r.withLength.withoutBody else r.withLength

/-- The response with the version of the interface that the registry serves. -/
def stamped (r : Response) : Response :=
  r.withHeader "docker-distribution-api-version" "registry/2.0"

end Response

end ImageRegistry.Http
