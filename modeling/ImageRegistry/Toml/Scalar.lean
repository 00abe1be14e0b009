import ImageRegistry.Json.Value

/-!
# Numbers, dates and words of TOML

Values without quotes: `true` and `false`, integers in four bases, floats, dates and times. A float,
a date or a time is told apart from the rest, and not kept: nothing that is configured is one.
-/

namespace ImageRegistry.Toml

/-- A value without quotes. -/
inductive Scalar where
  | boolean (value : Bool)
  | integer (value : Int)
  | decimal
  | moment
  deriving DecidableEq, Repr

/-! ### Numbers -/

/-- Digits of a class without the underscores between them; an underscore stands between two digits
only. -/
def digits? (isDigit : Char → Bool) : List Char → Option (List Char)
  | [] => none
  | [c] => if isDigit c then some [c] else none
  | c :: '_' :: rest => if isDigit c then (digits? isDigit rest).map (c :: ·) else none
  | c :: rest => if isDigit c then (digits? isDigit rest).map (c :: ·) else none

/-- The value of a digit of a base up to sixteen. -/
def digitValue (c : Char) : Nat :=
  if c.isDigit then c.toNat - '0'.toNat else c.toLower.toNat - 'a'.toNat + 10

/-- Whether a character is a digit of a base up to sixteen. -/
def isDigitOf (base : Nat) (c : Char) : Bool :=
  (c.isDigit || (c.toLower.toNat ≥ 'a'.toNat && c.toLower.toNat ≤ 'f'.toNat)) &&
    digitValue c < base

/-- The number that digits write in a base. -/
def ofBase (base : Nat) (digits : List Char) : Nat :=
  digits.foldl (fun n c ↦ n * base + digitValue c) 0

/-- The least number that is too great. -/
abbrev integerBound : Nat := 0x8000000000000000

/-- An integer with a base written in front of it. -/
def based? (base : Nat) (text : List Char) : Option Scalar := do
  let n := ofBase base (← digits? (isDigitOf base) text)
  if n < integerBound then return .integer n else none

/-- A sign that may be absent: whether it is a minus, and the rest. -/
def sign : List Char → Bool × List Char
  | '-' :: rest => (true, rest)
  | '+' :: rest => (false, rest)
  | rest => (false, rest)

/-- The digits of a whole part, without a zero in front of others. -/
def whole? (text : List Char) : Option (List Char) := do
  let ds ← digits? Char.isDigit text
  if ds.head? = some '0' && ds.length ≠ 1 then none else return ds

/-- A decimal integer. -/
def integer? (text : List Char) : Option Scalar := do
  let (negative, text) := sign text
  let n := ofBase 10 (← whole? text)
  if negative then if n ≤ integerBound then return .integer (-n) else none
  else if n < integerBound then return .integer n else none

/-- Whether a character begins an exponent. -/
def isExponentMark (c : Char) : Bool := c = 'e' || c = 'E'

/-- The value of an exponent after its mark. -/
def exponent? (text : List Char) : Option Int := do
  let (negative, text) := sign text
  let n := ofBase 10 (← digits? Char.isDigit text)
  return if negative then -n else n

/-- A float with a fraction or an exponent or both. It must fit a double. -/
def float? (text : List Char) : Option Scalar := do
  let (negative, text) := sign text
  let mantissa := text.takeWhile (!isExponentMark ·)
  let exponent ← match text.dropWhile (!isExponentMark ·) with
    | [] => some 0
    | _ :: exponent => exponent? exponent
  let whole ← whole? (mantissa.takeWhile (· ≠ '.'))
  let fraction ← match mantissa.dropWhile (· ≠ '.') with
    | [] => some []
    | _ :: fraction => digits? Char.isDigit fraction
  if mantissa = text && fraction.isEmpty then none
  else if Json.Value.fitsDouble ⟨negative, false, ofBase 10 (whole ++ fraction),
      exponent - fraction.length⟩ then return .decimal
  else none

/-- A float that is no number or infinite. -/
def special? (text : List Char) : Option Scalar :=
  if (sign text).2 = "inf".toList ∨ (sign text).2 = "nan".toList then some .decimal else none

/-! ### Dates and times -/

/-- The number of exactly so many digits. -/
def fixed? (count : Nat) (text : List Char) : Option Nat :=
  if text.length = count ∧ text.all Char.isDigit = true then some (ofBase 10 text) else none

/-- Whether a year has a day more. -/
def isLeap (year : Nat) : Bool := year % 4 = 0 && (year % 100 ≠ 0 || year % 400 = 0)

/-- The number of days of a month. -/
def daysOf (year month : Nat) : Nat :=
  if month = 2 then if isLeap year then 29 else 28
  else if month = 4 ∨ month = 6 ∨ month = 9 ∨ month = 11 then 30
  else 31

/-- Whether a text is a date. -/
def isDate (text : List Char) : Bool :=
  match fixed? 4 (text.take 4), fixed? 2 ((text.drop 5).take 2), fixed? 2 (text.drop 8) with
  | some year, some month, some day =>
    (text.drop 4).head? = some '-' && (text.drop 7).head? = some '-' &&
      1 ≤ month && month ≤ 12 && 1 ≤ day && day ≤ daysOf year month
  | _, _, _ => false

/-- Whether a text is the hour and the minute of a time or an offset. -/
def isClock (text : List Char) : Bool :=
  match fixed? 2 (text.take 2), fixed? 2 (text.drop 3) with
  | some hour, some minute => (text.drop 2).head? = some ':' && hour ≤ 23 && minute ≤ 59
  | _, _ => false

/-- Whether a text is empty, or the seconds of a time after a colon, with a fraction or without. -/
def isSeconds (text : List Char) : Bool :=
  match text with
  | [] => true
  | ':' :: rest =>
    (match fixed? 2 (rest.take 2) with
      | some second => second ≤ 60
      | none => false) &&
    (match rest.drop 2 with
      | [] => true
      | '.' :: fraction => !fraction.isEmpty && fraction.all Char.isDigit
      | _ => false)
  | _ => false

/-- Whether a text is a time of a day. -/
def isTime (text : List Char) : Bool := isClock (text.take 5) && isSeconds (text.drop 5)

/-- Whether a text is a time of a day with an offset, or without one. -/
def isTimeAnywhere (text : List Char) : Bool :=
  let time := text.takeWhile fun c ↦ c.isDigit || c = ':' || c = '.'
  isTime time &&
    match text.drop time.length with
    | [] => true
    | ['Z'] => true
    | ['z'] => true
    | '+' :: offset => isClock offset
    | '-' :: offset => isClock offset
    | _ => false

/-- Whether a text is a date, a time or both. -/
def isMoment (text : List Char) : Bool :=
  isTime text || isDate text ||
    (isDate (text.take 10) && isTimeAnywhere (text.drop 11) &&
      match (text.drop 10).head? with
      | some c => c = 'T' || c = 't' || c = ' '
      | none => false)

/-! ### All of them -/

/-- Whether a character may stand in a value without quotes. -/
def isScalarChar (c : Char) : Bool := c.isAlphanum || "_+-.:".toList.contains c

/-- The value that a text without quotes writes. -/
def scalarOf? (text : List Char) : Option Scalar :=
  if text = "true".toList then some (.boolean true)
  else if text = "false".toList then some (.boolean false)
  else match text with
    | '0' :: 'x' :: rest => based? 16 rest
    | '0' :: 'o' :: rest => based? 8 rest
    | '0' :: 'b' :: rest => based? 2 rest
    | _ =>
      (integer? text).orElse fun _ ↦ (float? text).orElse fun _ ↦ (special? text).orElse fun _ ↦
        if isMoment text then some .moment else none

/-- A value without quotes, and the rest. A date and a time may have a space between them. -/
def scalar? (text : List Char) : Option (Scalar × List Char) :=
  let word := text.takeWhile isScalarChar
  let rest := text.dropWhile isScalarChar
  match rest with
  | ' ' :: more =>
    if isDate word && (more.head?.any Char.isDigit) then
      (scalarOf? (word ++ ' ' :: more.takeWhile isScalarChar)).map fun s ↦
        (s, more.dropWhile isScalarChar)
    else (scalarOf? word).map fun s ↦ (s, rest)
  | _ => (scalarOf? word).map fun s ↦ (s, rest)

end ImageRegistry.Toml
