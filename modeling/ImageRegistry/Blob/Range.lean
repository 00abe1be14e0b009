import ImageRegistry.Error
import ImageRegistry.Text.Blank

/-!
# Ranges of uploads

A part of an upload says which bytes it brings, the first and the last one included: `0-99`, or with
the unit and the total `bytes 0-99/500`. How much of an upload is there is told in the same way.
-/

namespace ImageRegistry.Blob

/-- The numbers of the first and the last byte. -/
abbrev Range : Type := Nat × Nat

/-- The range of all bytes that 64 bits can number. It is one more than 64 bits can count. -/
def greatest : Range := (0, Text.wordBound - 1)

/-- The number at one end of a range. -/
def bound? (text : List Char) : Option Nat := Text.unsigned? Text.wordBound (Text.trim text)

/-- The text of a range without its unit. -/
def withoutUnit (text : List Char) : List Char :=
  match Text.stripLead? "bytes".toList text with
  | some rest => Text.trimStart rest
  | none => text

/-- The text of a range without its total. -/
def withoutTotal (text : List Char) : List Char :=
  match Text.splitFirst '/' text with
  | some (range, _) => range
  | none => text

/-- The range that a text writes. -/
def range? (value : String) : Option Range := do
  let (start, last) ← Text.splitFirst '-' (withoutTotal (withoutUnit (Text.trim value.toList)))
  let start ← bound? start
  let last ← bound? last
  if last < start then none else return (start, last)

/-- The range that a header writes. -/
def parseRange (value : String) : Except RegistryError Range :=
  match range? value with
  | some range => .ok range
  | none => .error (.uploadInvalid (.malformedRange value))

/-- The range of the first so many bytes. -/
def rangeText (length : Nat) : String := "0-" ++ toString (length - 1)

end ImageRegistry.Blob
