import ImageRegistry.Json.Value
import ImageRegistry.Text.Percent

/-!
# Reading JSON

A whole document is read from its bytes: one value, with blanks around it and nothing else. The
grammar of strings asks for escapes that are well-formed and for no control characters; whether a
string then encodes text is kept in the value. The functions that read a part of the input give the
rest of the input with it. The fuel bounds the nesting and the number of items; `read?` gives more
of it than any document of that length can use.
-/

namespace ImageRegistry.Json

/-- The input without the blanks in front. -/
def skipBlanks (input : List UInt8) : List UInt8 :=
  input.dropWhile fun b ↦ b = 0x20 || b = 0x09 || b = 0x0a || b = 0x0d

/-! ### Strings -/

/-- A piece of a string: a byte that stands for itself, or the number of an escape. -/
inductive Piece where
  | byte (value : UInt8)
  | unit (value : Nat)
  deriving DecidableEq

/-- The number that four hexadecimal digits write. -/
def hexUnit? : List UInt8 → Option (Nat × List UInt8)
  | a :: b :: c :: d :: rest => do
    let a ← Text.hexValue? a
    let b ← Text.hexValue? b
    let c ← Text.hexValue? c
    let d ← Text.hexValue? d
    return (((a.toNat * 16 + b.toNat) * 16 + c.toNat) * 16 + d.toNat, rest)
  | _ => none

/-- The byte that a short escape stands for. -/
def shortEscape? (b : UInt8) : Option UInt8 :=
  if b = 0x22 ∨ b = 0x5c ∨ b = 0x2f then some b
  else if b = 0x62 then some 0x08
  else if b = 0x66 then some 0x0c
  else if b = 0x6e then some 0x0a
  else if b = 0x72 then some 0x0d
  else if b = 0x74 then some 0x09
  else none

/-- The pieces of a string up to its closing quote. -/
def pieces : List UInt8 → Option (List Piece × List UInt8)
  | [] => none
  | b :: rest =>
    if b = 0x22 then some ([], rest)
    else if b < 0x20 then none
    else if b = 0x5c then
      match rest with
      | [] => none
      | e :: more =>
        if e = 0x75 then
          match more with
          | h₁ :: h₂ :: h₃ :: h₄ :: tail => do
            let (n, _) ← hexUnit? [h₁, h₂, h₃, h₄]
            let (ps, final) ← pieces tail
            return (.unit n :: ps, final)
          | _ => none
        else do
          let c ← shortEscape? e
          let (ps, final) ← pieces more
          return (.byte c :: ps, final)
    else do
      let (ps, final) ← pieces rest
      return (.byte b :: ps, final)
  termination_by l => l.length

/-- The bytes that pieces encode. The numbers of a surrogate pair make one character; a surrogate
alone makes none. -/
def encodePieces : List Piece → Option (List UInt8)
  | [] => some []
  | .byte b :: rest => (encodePieces rest).map (b :: ·)
  | .unit n :: rest =>
    if 0xd800 ≤ n ∧ n < 0xdc00 then
      match rest with
      | .unit m :: more =>
        if 0xdc00 ≤ m ∧ m < 0xe000 then
          (encodePieces more).map
            (String.utf8EncodeChar (Char.ofNat (0x10000 + (n - 0xd800) * 0x400 + (m - 0xdc00))) ++ ·)
        else none
      | _ => none
    else if 0xdc00 ≤ n ∧ n < 0xe000 then none
    else (encodePieces rest).map (String.utf8EncodeChar (Char.ofNat n) ++ ·)

/-- A string after its opening quote. -/
def string (input : List UInt8) : Option (Option String × List UInt8) :=
  (pieces input).map fun (ps, rest) ↦
    ((encodePieces ps).bind fun bytes ↦ Text.utf8? (Text.bytesOf bytes), rest)

/-! ### Numbers -/

/-- Whether a byte is a decimal digit. -/
def isDigit (b : UInt8) : Bool := 0x30 ≤ b && b ≤ 0x39

/-- The number that decimal digits write. -/
def ofDigits (ds : List UInt8) : Nat := ds.foldl (fun n b ↦ n * 10 + (b.toNat - 0x30)) 0

/-- The digits of a whole part: a zero alone, or digits that begin with another one. -/
def wholePart : List UInt8 → Option (List UInt8 × List UInt8)
  | [] => none
  | b :: rest =>
    if b = 0x30 then some ([b], rest)
    else if isDigit b then some (b :: rest.takeWhile isDigit, rest.dropWhile isDigit)
    else none

/-- One digit or more. -/
def someDigits (input : List UInt8) : Option (List UInt8 × List UInt8) :=
  let ds := input.takeWhile isDigit
  if ds.isEmpty then none else some (ds, input.dropWhile isDigit)

/-- The fraction: absent, or a point and digits. -/
def fraction : List UInt8 → Option (Option (List UInt8) × List UInt8)
  | [] => some (none, [])
  | b :: rest =>
    if b = 0x2e then (someDigits rest).map fun (ds, more) ↦ (some ds, more)
    else some (none, b :: rest)

/-- The exponent: absent, or a mark, a sign that may be absent and digits. -/
def exponent : List UInt8 → Option (Option Int × List UInt8)
  | [] => some (none, [])
  | b :: rest =>
    if b = 0x65 ∨ b = 0x45 then
      match rest with
      | [] => none
      | s :: more =>
        if s = 0x2d then
          (someDigits more).map fun (ds, final) ↦ (some (-(ofDigits ds : Int)), final)
        else
          (someDigits (if s = 0x2b then more else s :: more)).map fun (ds, final) ↦
            (some (ofDigits ds : Int), final)
    else some (none, b :: rest)

/-- A number. -/
def number (input : List UInt8) : Option (Number × List UInt8) := do
  let negative := input.head? = some 0x2d
  let (ds, rest) ← wholePart (if negative then input.drop 1 else input)
  let (fs, rest) ← fraction rest
  let (e, rest) ← exponent rest
  let decimals := fs.getD []
  return ({ negative := negative
            whole := fs.isNone && e.isNone
            significand := ofDigits (ds ++ decimals)
            exponent := e.getD 0 - decimals.length }, rest)

/-! ### Values -/

/-- The input after a word that it must begin with. -/
def word (letters : String) (value : Value) (input : List UInt8) : Option (Value × List UInt8) :=
  let bytes := Text.byteList letters.toUTF8
  if bytes.isPrefixOf input then some (value, input.drop bytes.length) else none

mutual

/-- A value, blanks in front of it allowed. -/
def value : Nat → List UInt8 → Option (Value × List UInt8)
  | 0, _ => none
  | fuel + 1, input =>
    match skipBlanks input with
    | [] => none
    | b :: rest =>
      if b = 0x22 then (string rest).map fun (s, more) ↦ (.string s, more)
      else if b = 0x5b then
        match skipBlanks rest with
        | [] => none
        | c :: more =>
          if c = 0x5d then some (.array [], more)
          else (items fuel (c :: more)).map fun (vs, final) ↦ (.array vs, final)
      else if b = 0x7b then
        match skipBlanks rest with
        | [] => none
        | c :: more =>
          if c = 0x7d then some (.object [], more)
          else (members fuel (c :: more)).map fun (ms, final) ↦ (.object ms, final)
      else if b = 0x74 then word "true" (.boolean true) (b :: rest)
      else if b = 0x66 then word "false" (.boolean false) (b :: rest)
      else if b = 0x6e then word "null" .null (b :: rest)
      else (number (b :: rest)).map fun (n, more) ↦ (.number n, more)

/-- The items of an array up to its closing bracket. -/
def items : Nat → List UInt8 → Option (List Value × List UInt8)
  | 0, _ => none
  | fuel + 1, input => do
    let (v, rest) ← value fuel input
    match skipBlanks rest with
    | [] => none
    | b :: more =>
      if b = 0x5d then return ([v], more)
      else if b = 0x2c then
        let (vs, final) ← items fuel more
        return (v :: vs, final)
      else none

/-- The members of an object up to its closing brace. -/
def members : Nat → List UInt8 → Option (List (Option String × Value) × List UInt8)
  | 0, _ => none
  | fuel + 1, input =>
    match skipBlanks input with
    | [] => none
    | q :: rest =>
      if q ≠ 0x22 then none
      else do
        let (name, rest) ← string rest
        match skipBlanks rest with
        | [] => none
        | c :: rest =>
          if c ≠ 0x3a then none
          else do
            let (v, rest) ← value fuel rest
            match skipBlanks rest with
            | [] => none
            | b :: more =>
              if b = 0x7d then return ([(name, v)], more)
              else if b = 0x2c then
                let (ms, final) ← members fuel more
                return ((name, v) :: ms, final)
              else none

end

/-- The value that a whole document holds. -/
def read? (document : ByteArray) : Option Value := do
  let input := Text.byteList document
  let (v, rest) ← value (2 * input.length + 2) input
  if (skipBlanks rest).isEmpty then return v else none

end ImageRegistry.Json
