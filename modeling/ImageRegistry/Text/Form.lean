import ImageRegistry.Text.Percent
import ImageRegistry.Text.Split

/-!
# Form-encoded pairs

A query string is a list of pairs `name=value` with `&` between them. A plus sign is a space, bytes
may be escaped with `%`, and what is then no text is replaced. A pair without `=` has an empty
value; an empty pair is none.
-/

namespace ImageRegistry.Text

/-- The text that a form-encoded name or value stands for. -/
def formText (part : List UInt8) : String :=
  String.ofList (decodeLossy (percentDecode (part.map fun b ↦ if b = 0x2b then 0x20 else b)))

/-- The pairs of a form-encoded byte string, in order. -/
def formPairs (bytes : List UInt8) : List (String × String) :=
  ((segments 0x26 bytes).filter (!·.isEmpty)).map fun part ↦
    (formText (part.takeWhile (· ≠ 0x3d)), formText ((part.dropWhile (· ≠ 0x3d)).drop 1))

end ImageRegistry.Text
