import ImageRegistry.Text.Split

/-!
# Uniform resource identifiers

A `Uri` has a scheme, an authority, a path and a query, of which some may be missing. It is read
from one of three forms: a path that begins with `/` (or is `*`), an authority alone, or all of
`scheme://authority/path?query`. A fragment is dropped. `Uri.render` prints a `Uri`; with a scheme
an empty path is printed as `/`.
-/

namespace ImageRegistry

/-- A uniform resource identifier. -/
structure Uri where
  scheme : Option String
  authority : Option String
  path : String
  query : Option String
  deriving DecidableEq, Repr

namespace Uri

/-- The greatest length of a `Uri`, in bytes. -/
abbrev maxLength : Nat := 65534

/-- The greatest length of a scheme. -/
abbrev maxScheme : Nat := 64

/-! ### Schemes -/

/-- The characters of a scheme. -/
def isSchemeChar (c : Char) : Bool :=
  c.isAlphanum || c = '+' || c = '-' || c = '.' || c = '~'

/-- The scheme as it is kept: the schemes `http` and `https` in small letters, others as they
are. -/
def normalScheme (scheme : List Char) : List Char :=
  let small := scheme.map Char.toLower
  if small = "http".toList ∨ small = "https".toList then small else scheme

/-- The text before `://` and the text after it, if what is before it has scheme characters only. -/
def splitScheme (text : List Char) : Option (List Char × List Char) :=
  (Text.stripLead? "://".toList (text.dropWhile isSchemeChar)).map fun rest ↦
    (text.takeWhile isSchemeChar, rest)

/-! ### Authorities -/

/-- The characters of an authority that have no part to play in its shape. -/
def isPlainAuthorityChar (c : Char) : Bool :=
  c.isAlphanum || "!$&'()*+,-.;=_~".toList.contains c

/-- What is known of an authority that is read from the left. -/
structure AuthorityScan where
  /-- The colons since the last `@` or `]`. -/
  colons : Nat
  opened : Bool
  closed : Bool
  /-- A `%` since the last `@` or `]`. -/
  percent : Bool
  deriving DecidableEq

/-- What is known before the first character. -/
def AuthorityScan.start : AuthorityScan := ⟨0, false, false, false⟩

/-- What is known after one more character, if it may stand there. -/
def AuthorityScan.next (s : AuthorityScan) (c : Char) : Option AuthorityScan :=
  if c = ':' then if s.colons < 8 then some { s with colons := s.colons + 1 } else none
  else if c = '[' then if s.percent || s.opened then none else some { s with opened := true }
  else if c = ']' then
    if s.opened && !s.closed then
      some { s with closed := true, colons := 0, percent := false }
    else none
  else if c = '@' then some { s with colons := 0, percent := false }
  else if c = '%' then some { s with percent := true }
  else if isPlainAuthorityChar c then some s
  else none

/-- Whether a text is an authority: its brackets are paired, at most one colon is left for the port,
a `%` stands in the user part or in brackets, and something follows an `@`. -/
def isAuthority (text : List Char) : Bool :=
  match text.foldlM AuthorityScan.next .start with
  | some s => s.opened == s.closed && s.colons ≤ 1 && !s.percent && text.getLast? ≠ some '@'
  | none => false

/-- Whether a character ends an authority. -/
def endsAuthority (c : Char) : Bool := c = '/' || c = '?' || c = '#'

/-! ### Paths and queries -/

/-- Whether a character may stand in a path. -/
def isPathChar (c : Char) : Bool :=
  0x20 < c.toNat && c.toNat ≠ 0x7f && c ≠ '<' && c ≠ '>' && c ≠ '`'

/-- Whether a character may stand in a query. -/
def isQueryChar (c : Char) : Bool :=
  0x20 < c.toNat && c.toNat ≠ 0x7f && c ≠ '<' && c ≠ '>' && c ≠ '"'

/-- A path and a query, without the fragment. -/
def pathQuery? (text : List Char) : Option (String × Option String) :=
  let text := text.takeWhile (· ≠ '#')
  let path := text.takeWhile (· ≠ '?')
  if path.all isPathChar then
    match text.dropWhile (· ≠ '?') with
    | [] => some (String.ofList path, none)
    | _ :: query =>
      if query.all isQueryChar then some (String.ofList path, some (String.ofList query)) else none
  else none

/-! ### Reading and printing -/

/-- A `Uri` that begins with a scheme, the scheme and the text after `://`. -/
def absolute? (scheme rest : List Char) : Option Uri :=
  let authority := rest.takeWhile (!endsAuthority ·)
  if authority ≠ [] ∧ isAuthority authority = true then
    (pathQuery? (rest.dropWhile (!endsAuthority ·))).map fun (path, query) ↦
      ⟨some (String.ofList (normalScheme scheme)), some (String.ofList authority), path, query⟩
  else none

/-- The `Uri` that a text writes. -/
def parse? (text : String) : Option Uri :=
  if maxLength < text.utf8ByteSize then none
  else match text.toList with
    | [] => none
    | ['*'] => some ⟨none, none, "*", none⟩
    | '/' :: rest => (pathQuery? ('/' :: rest)).map fun (path, query) ↦ ⟨none, none, path, query⟩
    | cs => match splitScheme cs with
      | some (scheme, rest) => if scheme.length ≤ maxScheme then absolute? scheme rest else none
      | none => if isAuthority cs then some ⟨none, some text, "", none⟩ else none

/-- The path as it is printed and routed. -/
def routePath (u : Uri) : String :=
  if u.path.isEmpty && (u.scheme.isSome || u.query.isSome) then "/" else u.path

/-- The query with its question mark. -/
def queryText (u : Uri) : String :=
  match u.query with
  | some query => "?" ++ query
  | none => ""

/-- The text of a `Uri`. -/
def render (u : Uri) : String :=
  (match u.scheme with
    | some scheme => scheme ++ "://"
    | none => "") ++
  u.authority.getD "" ++ u.routePath ++ u.queryText

/-- What a request for the `Uri` asks of its server: path and query. -/
def target (u : Uri) : String :=
  let text := u.path ++ u.queryText
  if text.isEmpty && u.scheme.isSome then "/" else text

end Uri

end ImageRegistry
