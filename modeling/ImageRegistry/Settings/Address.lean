import ImageRegistry.Text.Percent

/-!
# Socket addresses

The address that a server listens on: an address of four octets or of eight groups, and a port. An
address of groups may leave out one run of zeros, end in octets, and name a scope. It is printed
with the longest run of zeros left out.
-/

namespace ImageRegistry

/-- An address and a port. -/
inductive SocketAddress where
  /-- Four octets. -/
  | octets (a b c d port : Nat)
  /-- Eight groups, and the number of a scope, which is zero if there is none. -/
  | groups (segments : List Nat) (scope port : Nat)
  deriving DecidableEq, Repr

namespace SocketAddress

/-! ### Reading -/

/-- The number that decimal digits in front write, and the rest. -/
def decimal? (bound : Nat) (text : List Char) : Option (Nat × List Char) :=
  let ds := text.takeWhile Char.isDigit
  let n := Nat.ofDigitChars 10 ds 0
  if ds ≠ [] ∧ n < bound then some (n, text.dropWhile Char.isDigit) else none

/-- An octet: at most three digits, and no zero in front of others. -/
def octet? (text : List Char) : Option (Nat × List Char) :=
  let ds := text.takeWhile Char.isDigit
  if ds.length ≤ 3 ∧ ¬(ds.head? = some '0' ∧ ds.length ≠ 1) then decimal? 256 text else none

/-- The rest of a text that begins with a character. -/
def after? (mark : Char) : List Char → Option (List Char)
  | [] => none
  | c :: rest => if c = mark then some rest else none

/-- Four octets with points between them, and the rest. -/
def fourOctets? (text : List Char) : Option ((Nat × Nat × Nat × Nat) × List Char) := do
  let (a, text) ← octet? text
  let (b, text) ← octet? (← after? '.' text)
  let (c, text) ← octet? (← after? '.' text)
  let (d, text) ← octet? (← after? '.' text)
  return ((a, b, c, d), text)

/-- The value of a hexadecimal digit. -/
def hexDigit? (c : Char) : Option Nat :=
  if c.toNat < 0x80 then (Text.hexValue? (UInt8.ofNat c.toNat)).map UInt8.toNat else none

/-- A group: one to four hexadecimal digits. -/
def group? (text : List Char) : Option (Nat × List Char) :=
  let ds := text.takeWhile fun c ↦ (hexDigit? c).isSome
  if ds ≠ [] ∧ ds.length ≤ 4 then
    some (ds.foldl (fun n c ↦ n * 16 + (hexDigit? c).getD 0) 0,
      text.dropWhile fun c ↦ (hexDigit? c).isSome)
  else none

/-- As many groups as there are up to a limit, whether they end in octets, and the rest. There is a
colon in front of each group but the first one. -/
def groupsUpTo : Nat → Bool → List Char → List Nat × Bool × List Char
  | 0, _, text => ([], false, text)
  | limit + 1, isFirst, text =>
    match if isFirst then some text else after? ':' text with
    | none => ([], false, text)
    | some body =>
      match if limit = 0 then none else fourOctets? body with
      | some ((a, b, c, d), rest) => ([a * 256 + b, c * 256 + d], true, rest)
      | none =>
        match group? body with
        | none => ([], false, text)
        | some (g, rest) =>
          let (more, endsInOctets, final) := groupsUpTo limit false rest
          (g :: more, endsInOctets, final)

/-- Eight groups, of which a run of zeros may be left out, and the rest. -/
def eightGroups? (text : List Char) : Option (List Nat × List Char) := do
  let (front, endsInOctets, rest) := groupsUpTo 8 true text
  if front.length = 8 then return (front, rest)
  else if endsInOctets then none
  else
    let rest ← after? ':' (← after? ':' rest)
    let (back, _, rest) := groupsUpTo (7 - front.length) true rest
    return (front ++ List.replicate (8 - front.length - back.length) 0 ++ back, rest)

/-- A colon and a port, at the end of the text. -/
def port? (text : List Char) : Option Nat := do
  let (port, rest) ← decimal? 65536 (← after? ':' text)
  if rest.isEmpty then return port else none

/-- The number of a scope after its mark, and the rest; zero if there is none. -/
def scope (text : List Char) : Nat × List Char :=
  match (after? '%' text).bind (decimal? 0x100000000) with
  | some found => found
  | none => (0, text)

/-- An address of four octets. -/
def ofOctets? (text : List Char) : Option SocketAddress := do
  let ((a, b, c, d), rest) ← fourOctets? text
  return octets a b c d (← port? rest)

/-- An address of eight groups in brackets. -/
def ofGroups? (text : List Char) : Option SocketAddress := do
  let (segments, rest) ← eightGroups? (← after? '[' text)
  let (scope, rest) := scope rest
  return groups segments scope (← port? (← after? ']' rest))

/-- The address that a text writes. -/
def parse? (text : String) : Option SocketAddress :=
  (ofOctets? text.toList).orElse fun _ ↦ ofGroups? text.toList

/-! ### Printing -/

/-- Groups with colons between them. -/
def joined (segments : List Nat) : String :=
  ":".intercalate (segments.map fun g ↦ String.ofList (Nat.toDigits 16 g))

/-- The number of zeros in front. -/
def zeros (segments : List Nat) : Nat := (segments.takeWhile (· = 0)).length

/-- The first one of the longest runs of zeros: where it begins, and its length. -/
def longestRun : List Nat → Nat × Nat
  | [] => (0, 0)
  | g :: rest =>
    let here := zeros (g :: rest)
    let later := longestRun rest
    if later.2 ≤ here then (0, here) else (later.1 + 1, later.2)

/-- The text of four octets. -/
def octetsText (a b c d : Nat) : String :=
  toString a ++ "." ++ toString b ++ "." ++ toString c ++ "." ++ toString d

/-- The text of eight groups. Octets that are written as groups are printed as octets. -/
def groupsText (segments : List Nat) : String :=
  match segments with
  | [0, 0, 0, 0, 0, 0xffff, high, low] =>
    "::ffff:" ++ octetsText (high / 256) (high % 256) (low / 256) (low % 256)
  | _ =>
    let (start, length) := longestRun segments
    if 1 < length then
      joined (segments.take start) ++ "::" ++ joined (segments.drop (start + length))
    else joined segments

/-- The text of an address. -/
def text : SocketAddress → String
  | octets a b c d port => octetsText a b c d ++ ":" ++ toString port
  | groups segments scope port =>
    "[" ++ groupsText segments ++ (if scope = 0 then "" else "%" ++ toString scope) ++ "]:" ++
      toString port

end SocketAddress

end ImageRegistry
