import ImageRegistry.Json.Value
import ImageRegistry.Toml.Scalar
import ImageRegistry.Toml.Text

/-!
# TOML documents

A document is a list of sections, each with a header and with pairs of keys and values; the pairs in
front of the first header belong to the document itself. `assemble` makes one table of them. A table
may be given in one section only, and a key that has a value, in its section or by a key with dots,
may not be given again.

`read?` reads a whole document.
-/

namespace ImageRegistry.Toml

/-- How a table came to be, on which it depends who may add to it. -/
inductive Origin where
  /-- By a header of its own. -/
  | header
  /-- By the header of a table in it. -/
  | implied
  /-- By a key with dots. -/
  | dotted
  /-- Between braces. -/
  | inline
  deriving DecidableEq, Repr

/-- A value of a document. -/
inductive Node where
  | text (value : String)
  | scalar (value : Scalar)
  | list (items : List Node)
  | table (origin : Origin) (entries : List (String × Node))
  /-- Tables with one header in double brackets each. -/
  | tables (elements : List (List (String × Node)))
  deriving Repr

/-- The keys of a table with their values, in the order in which they came. -/
abbrev Entries : Type := List (String × Node)

/-- A pair: the parts of its key in front of the last one, the last one, and the value. -/
structure Pair where
  path : List String
  key : String
  value : Node
  deriving Repr

/-- A section: the parts of its header in front of the last one, the last one, whether the brackets
are double, and the pairs. -/
structure Section where
  path : List String
  key : String
  repeated : Bool
  pairs : List Pair
  deriving Repr

/-! ### Assembling tables -/

/-- The entries with something else under a key, which depends on what was there. -/
def update (key : String) (change : Option Node → Option Node) : Entries → Option Entries
  | [] => (change none).map fun node ↦ [(key, node)]
  | (k, node) :: rest =>
    if k = key then (change (some node)).map fun node ↦ (k, node) :: rest
    else (update key change rest).map ((k, node) :: ·)

/-- Whether a table may be entered on the way to another one. -/
def mayEnter (making origin : Origin) : Bool :=
  match making, origin with
  | _, .inline => false
  | .dotted, .header => false
  | _, _ => true

/-- The entries with a change made in the table at the end of a path. Tables that are missing on the
way are made; of several tables under one key the last one is entered. -/
def within (making : Origin) (act : Origin → Entries → Option Entries) :
    List String → Origin → Entries → Option Entries
  | [], origin, entries => act origin entries
  | key :: path, _, entries => update key (fun
      | none => (within making act path making []).map (.table making)
      | some (.table origin sub) =>
        if mayEnter making origin then (within making act path origin sub).map (.table origin)
        else none
      | some (.tables elements) =>
        match elements.getLast? with
        | some last =>
          (within making act path .header last).map fun last ↦ .tables (elements.dropLast ++ [last])
        | none => none
      | some _ => none) entries

/-- What stands under a key that may not be there yet. -/
def fresh (node : Node) : Option Node → Option Node
  | none => some node
  | some _ => none

/-- The entries of a table with one more pair. A key with dots adds only to tables that such keys
have made. -/
def addPair (origin : Origin) (entries : Entries) (pair : Pair) : Option Entries :=
  within .dotted (fun reached entries ↦
    if reached = .dotted ↔ pair.path = [] then none
    else update pair.key (fresh pair.value) entries) pair.path origin entries

/-- The entries of a table with more pairs. -/
def addPairs (origin : Origin) (pairs : List Pair) (entries : Entries) : Option Entries :=
  pairs.foldlM (addPair origin) entries

/-- The table of a section. It may be there already if only headers of tables in it have made it. -/
def sectionTable (pairs : List Pair) : Option Node → Option Node
  | none => (addPairs .header pairs []).map (.table .header)
  | some (.table .implied entries) => (addPairs .header pairs entries).map (.table .header)
  | some _ => none

/-- The tables of a section in double brackets, with one more at the end. -/
def sectionTables (pairs : List Pair) : Option Node → Option Node
  | none => (addPairs .header pairs []).map fun entries ↦ .tables [entries]
  | some (.tables elements) =>
    (addPairs .header pairs []).map fun entries ↦ .tables (elements ++ [entries])
  | some _ => none

/-- The entries of a document with one more section. -/
def addSection (entries : Entries) (s : Section) : Option Entries :=
  within .implied (fun _ entries ↦
    update s.key (if s.repeated then sectionTables s.pairs else sectionTable s.pairs) entries)
    s.path .header entries

/-- The entries of a document. -/
def assemble (pairs : List Pair) (sections : List Section) : Option Entries := do
  sections.foldlM addSection (← addPairs .header pairs [])

/-! ### Reading values -/

/-- The parts of a key, the last one by itself. -/
def splitKey? (parts : List String) : Option (List String × String) :=
  parts.getLast?.map fun last ↦ (parts.dropLast, last)

/-- The parts that a key may have. -/
abbrev maxParts : Nat := 81

/-- A key with its parts, and the rest of the text. -/
def keyParts? (text : List Char) : Option (List String × String × List Char) := do
  let (parts, rest) ← key? (text.length + 1) text
  if maxParts < parts.length then none
  else
    let (path, last) ← splitKey? parts
    return (path, last, rest)

mutual

/-- A value, and the rest. The depth bounds the nesting of lists and tables. -/
def value? (fuel depth : Nat) (text : List Char) : Option (Node × List Char) :=
  match fuel with
  | 0 => none
  | fuel + 1 =>
    match text with
    | '[' :: rest =>
      if depth = 0 then none
      else (items? fuel (depth - 1) rest).map fun (items, rest) ↦ (.list items, rest)
    | '\x7b' :: rest =>
      if depth = 0 then none
      else do
        let (pairs, rest) ← members? fuel (depth - 1) rest
        return (.table .inline (← addPairs .inline pairs []), rest)
    | _ =>
      if text.head? = some '"' || text.head? = some '\'' then
        (string? text).map fun (s, rest) ↦ (.text s, rest)
      else (scalar? text).map fun (s, rest) ↦ (.scalar s, rest)

/-- The items of a list up to its closing bracket. -/
def items? (fuel depth : Nat) (text : List Char) : Option (List Node × List Char) :=
  match fuel with
  | 0 => none
  | fuel + 1 => do
    match ← skipTrivia (text.length + 1) text with
    | ']' :: rest => return ([], rest)
    | text =>
      let (item, rest) ← value? fuel depth text
      match ← skipTrivia (rest.length + 1) rest with
      | ']' :: rest => return ([item], rest)
      | ',' :: rest =>
        let (items, rest) ← items? fuel depth rest
        return (item :: items, rest)
      | _ => none

/-- The pairs of a table up to its closing brace. -/
def members? (fuel depth : Nat) (text : List Char) : Option (List Pair × List Char) :=
  match fuel with
  | 0 => none
  | fuel + 1 => do
    match ← skipTrivia (text.length + 1) text with
    | '\x7d' :: rest => return ([], rest)
    | text =>
      let (pair, rest) ← pair? fuel depth text
      match ← skipTrivia (rest.length + 1) rest with
      | '\x7d' :: rest => return ([pair], rest)
      | ',' :: rest =>
        let (pairs, rest) ← members? fuel depth rest
        return (pair :: pairs, rest)
      | _ => none

/-- A key, the sign after it, and a value on the same line. -/
def pair? (fuel depth : Nat) (text : List Char) : Option (Pair × List Char) :=
  match fuel with
  | 0 => none
  | fuel + 1 => do
    let (path, key, rest) ← keyParts? text
    match rest with
    | '=' :: rest =>
      let (value, rest) ← value? fuel depth (skipSpace rest)
      return (⟨path, key, value⟩, rest)
    | _ => none

end

/-! ### Reading documents -/

/-- The depth to which lists and tables may be nested. -/
abbrev maxDepth : Nat := 80

/-- The pairs in front of the next header, and the text from that header on. -/
def pairs? (fuel : Nat) (text : List Char) : Option (List Pair × List Char) :=
  match fuel with
  | 0 => none
  | fuel + 1 => do
    let text ← skipTrivia (text.length + 1) text
    if text.isEmpty || text.head? = some '[' then return ([], text)
    else
      let (pair, rest) ← pair? (3 * text.length + 3) maxDepth text
      let (pairs, rest) ← pairs? fuel (← lineEnd? rest)
      return (pair :: pairs, rest)

/-- The sections of a text that begins with a header. -/
def sections? (fuel : Nat) (text : List Char) : Option (List Section) :=
  match fuel with
  | 0 => none
  | fuel + 1 =>
    if text.isEmpty then some []
    else do
      let repeated := ['[', '['].isPrefixOf text
      let (path, key, rest) ← keyParts? (text.drop (if repeated then 2 else 1))
      let rest ← Text.stripLead? (if repeated then [']', ']'] else [']']) rest
      let rest ← lineEnd? rest
      let (pairs, rest) ← pairs? (rest.length + 1) rest
      return ⟨path, key, repeated, pairs⟩ :: (← sections? fuel rest)

/-- The text without a mark of the byte order in front. -/
def withoutMark : List Char → List Char
  | '\ufeff' :: rest => rest
  | text => text

/-- The table that a whole document writes. -/
def read? (document : String) : Option Entries := do
  let text := withoutMark document.toList
  let (pairs, rest) ← pairs? (text.length + 1) text
  assemble pairs (← sections? (rest.length + 1) rest)

/-! ### Documents as plain values -/

mutual

/-- A value without what is special to TOML. A date or a time is a record without a field. -/
def Node.plain : Node → Json.Value
  | .text value => .string (some value)
  | .scalar (.boolean value) => .boolean value
  | .scalar (.integer value) => .number ⟨decide (value < 0), true, value.natAbs, 0⟩
  | .scalar .decimal => .number ⟨false, false, 0, 0⟩
  | .scalar .moment => .object []
  | .list items => .array (plainItems items)
  | .table _ entries => .object (plainEntries entries)
  | .tables elements => .array (plainElements elements)

/-- The items of a list without what is special to TOML. -/
def plainItems : List Node → List Json.Value
  | [] => []
  | node :: rest => node.plain :: plainItems rest

/-- The entries of a table without what is special to TOML. -/
def plainEntries : List (String × Node) → List (Option String × Json.Value)
  | [] => []
  | (key, node) :: rest => (some key, node.plain) :: plainEntries rest

/-- Tables with one header without what is special to TOML. -/
def plainElements : List (List (String × Node)) → List Json.Value
  | [] => []
  | entries :: rest => .object (plainEntries entries) :: plainElements rest

end

end ImageRegistry.Toml
