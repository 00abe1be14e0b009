import ImageRegistry.Text.Percent
import ImageRegistry.Text.Split

/-!
# Blanks, comments, keys and strings of TOML

The parts of a TOML document that are read character by character. Each reader gives what it has
read and the rest of the text, or nothing if the text is at fault.
-/

namespace ImageRegistry.Toml

/-- Whether a character is a blank within a line. -/
def isSpace (c : Char) : Bool := c = ' ' || c = '\t'

/-- The text without the blanks in front. -/
def skipSpace (text : List Char) : List Char := text.dropWhile isSpace

/-- Whether a character may stand in a comment or a string. -/
def isShown (c : Char) : Bool := c = '\t' || (0x20 ≤ c.toNat && c.toNat ≠ 0x7f)

/-- The text after the end of a line, if it begins with one. -/
def newline? : List Char → Option (List Char)
  | '\n' :: rest => some rest
  | '\r' :: '\n' :: rest => some rest
  | _ => none

/-- The text after a comment, if it begins with one: the end of the line or of the text. -/
def comment? : List Char → Option (List Char)
  | '#' :: text =>
    let rest := text.dropWhile isShown
    if rest.isEmpty || (newline? rest).isSome then some rest else none
  | _ => none

/-- The text after the rest of a line on which nothing more stands. -/
def lineEnd? (text : List Char) : Option (List Char) := do
  let text := skipSpace text
  let rest ← if text.head? = some '#' then comment? text else some text
  if rest.isEmpty then return [] else newline? rest

/-- The text without the blanks, the comments and the ends of lines in front. -/
def skipTrivia (fuel : Nat) (text : List Char) : Option (List Char) :=
  match fuel with
  | 0 => none
  | fuel + 1 =>
    let text := skipSpace text
    match newline? text with
    | some rest => skipTrivia fuel rest
    | none =>
      if text.head? = some '#' then (comment? text).bind (skipTrivia fuel) else some text

/-! ### Escapes -/

/-- The value of hexadecimal digits. -/
def hexNumber? (digits : List Char) : Option Nat :=
  digits.foldlM (fun n c ↦ do
    if 0x7f < c.toNat then none
    else return n * 16 + (← Text.hexValue? (UInt8.ofNat c.toNat)).toNat) 0

/-- The character of a number, unless it is a surrogate or too great. -/
def codePoint? (n : Nat) : Option Char := if n.isValidChar then some (Char.ofNat n) else none

/-- The character that so many hexadecimal digits write, and the rest. -/
def hexEscape? (count : Nat) (text : List Char) : Option (Char × List Char) :=
  if text.length < count then none
  else do return (← codePoint? (← hexNumber? (text.take count)), text.drop count)

/-- The character of an escape after its backslash, and the rest. -/
def escape? : List Char → Option (Char × List Char)
  | 'b' :: rest => some ('\x08', rest)
  | 't' :: rest => some ('\t', rest)
  | 'n' :: rest => some ('\n', rest)
  | 'f' :: rest => some ('\x0c', rest)
  | 'r' :: rest => some ('\r', rest)
  | 'e' :: rest => some ('\x1b', rest)
  | '"' :: rest => some ('"', rest)
  | '\\' :: rest => some ('\\', rest)
  | 'x' :: rest => hexEscape? 2 rest
  | 'u' :: rest => hexEscape? 4 rest
  | 'U' :: rest => hexEscape? 8 rest
  | _ => none

/-- The text without the blanks and the ends of lines in front. -/
def skipLines : List Char → List Char
  | [] => []
  | '\n' :: rest => skipLines rest
  | '\r' :: '\n' :: rest => skipLines rest
  | c :: rest => if isSpace c then skipLines rest else c :: rest

/-- The text after a backslash that ends its line, without the blanks and the ends of lines in
front. -/
def continued? (text : List Char) : Option (List Char) :=
  (newline? (skipSpace text)).map skipLines

/-! ### Strings -/

/-- A string up to the mark at its end, on one line. -/
def line? (mark : Char) (escapes : Bool) (fuel : Nat) (text : List Char) :
    Option (List Char × List Char) :=
  match fuel, text with
  | 0, _ => none
  | _, [] => none
  | fuel + 1, c :: rest =>
    if c = mark then some ([], rest)
    else if escapes && c = '\\' then do
      let (e, rest) ← escape? rest
      let (more, final) ← line? mark escapes fuel rest
      return (e :: more, final)
    else if isShown c then do
      let (more, final) ← line? mark escapes fuel rest
      return (c :: more, final)
    else none

/-- A string up to the three marks at its end, over several lines, whose ends are kept as they are.
One or two marks in front of the last three belong to the string. -/
def lines? (mark : Char) (escapes : Bool) (fuel : Nat) (text : List Char) :
    Option (List Char × List Char) :=
  match fuel, text with
  | 0, _ => none
  | _, [] => none
  | fuel + 1, c :: rest =>
    if [mark, mark, mark].isPrefixOf (c :: rest) then
      let marks := ((c :: rest).takeWhile (· = mark)).length
      if marks ≤ 5 then some (List.replicate (marks - 3) mark, (c :: rest).drop marks) else none
    else if escapes && c = '\\' then
      match continued? rest with
      | some rest => lines? mark escapes fuel rest
      | none => do
        let (e, rest) ← escape? rest
        let (more, final) ← lines? mark escapes fuel rest
        return (e :: more, final)
    else if isShown c || (newline? (c :: rest)).isSome then do
      let (more, final) ← lines? mark escapes fuel rest
      return (c :: more, final)
    else none

/-- The text without one end of a line in front. -/
def dropNewline (text : List Char) : List Char := (newline? text).getD text

/-- A string with this mark, and the rest. -/
def quotedWith? (mark : Char) (escapes : Bool) (text : List Char) :
    Option (String × List Char) :=
  let read := match Text.stripLead? [mark, mark, mark] text with
    | some rest => lines? mark escapes (text.length + 1) (dropNewline rest)
    | none => line? mark escapes (text.length + 1) (text.drop 1)
  read.map fun (content, rest) ↦ (String.ofList content, rest)

/-- A string, and the rest: with escapes in double quotes, without them in single ones. -/
def string? (text : List Char) : Option (String × List Char) :=
  match text with
  | '"' :: _ => quotedWith? '"' true text
  | '\'' :: _ => quotedWith? '\'' false text
  | _ => none

/-! ### Keys -/

/-- Whether a character may stand in a key without quotes. -/
def isKeyChar (c : Char) : Bool := c.isAlphanum || c = '_' || c = '-'

/-- One part of a key, and the rest. -/
def keyPart? (text : List Char) : Option (String × List Char) :=
  match text with
  | mark :: rest =>
    if mark = '"' || mark = '\'' then
      (line? mark (mark = '"') (text.length + 1) rest).map fun (content, rest) ↦
        (String.ofList content, rest)
    else
      let part := text.takeWhile isKeyChar
      if part.isEmpty then none else some (String.ofList part, text.dropWhile isKeyChar)
  | [] => none

/-- The parts of a key with dots between them, blanks in front allowed, and the rest. -/
def key? (fuel : Nat) (text : List Char) : Option (List String × List Char) :=
  match fuel with
  | 0 => none
  | fuel + 1 => do
    let (part, rest) ← keyPart? (skipSpace text)
    match skipSpace rest with
    | '.' :: more =>
      let (parts, final) ← key? fuel more
      return (part :: parts, final)
    | more => return ([part], more)

end ImageRegistry.Toml
