import ImageRegistry.Text.Printable

/-!
# Quoted text

Text in double quotes for a message. A quote and a backslash get a backslash in front; the tab, the
line ends and NUL have their short escapes; a character that does not show, or that would join the
one before it, is written by its number.
-/

namespace ImageRegistry.Text

/-- The escape of a character by its number, `\\u{…}` in small hexadecimal digits. -/
def numberEscape (c : Char) : List Char :=
  ['\\', 'u', '\x7b'] ++ Nat.toDigits 16 c.toNat ++ ['\x7d']

/-- A character as it stands between the quotes. -/
def quotedChar (c : Char) : List Char :=
  if c = '"' then ['\\', '"']
  else if c = '\\' then ['\\', '\\']
  else if c = '\t' then ['\\', 't']
  else if c = '\r' then ['\\', 'r']
  else if c = '\n' then ['\\', 'n']
  else if c = '\x00' then ['\\', '0']
  else if isExtending c || !isPrintable c then numberEscape c
  else [c]

/-- A text in double quotes. -/
def quoted (text : String) : String :=
  String.ofList ('"' :: text.toList.flatMap quotedChar ++ ['"'])

end ImageRegistry.Text
