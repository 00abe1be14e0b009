import ImageRegistry.Text.Form

/-!
# Query strings of requests

A request may have parameters in its query string. A parameter that is known may be given once;
parameters that are not known are passed over.
-/

namespace ImageRegistry

/-- What is wrong with a query string. -/
inductive QueryFault where
  | missing (name : String)
  | repeated (name : String)
  | notBoolean (name : String)
  deriving DecidableEq, Repr

/-- The wording of a fault. The name of a parameter stands between two marks. -/
def QueryFault.message : QueryFault → String
  | missing name => "missing field " ++ quote name
  | repeated name => "duplicate field " ++ quote name
  | notBoolean name =>
    name ++ ": provided string was not " ++ quote "true" ++ " or " ++ quote "false"
where
  /-- A word between two marks. -/
  quote (word : String) : String := "\x60" ++ word ++ "\x60"

namespace Query

/-- The pairs of a query string that may be absent. -/
def pairs (query : Option String) : List (String × String) :=
  Text.formPairs (Text.byteList (query.getD "").toUTF8)

/-- The value of a parameter that may be given once. -/
def single? (name : String) (pairs : List (String × String)) :
    Except QueryFault (Option String) :=
  match pairs.filter fun p ↦ p.1 = name with
  | [] => .ok none
  | [p] => .ok (some p.2)
  | _ => .error (.repeated name)

/-- The digest that a request for an upload gives. -/
def digest? (query : Option String) : Except QueryFault (Option String) :=
  single? "digest" (pairs query)

/-- What is asked of the chain of resolvers. -/
structure Dig where
  /-- A repository, or a repository and a reference with a colon between them. -/
  target : String
  /-- Only identifiers are wanted. -/
  short : Bool
  deriving DecidableEq, Repr

/-- The parameters of a request to the chain that are read so far. -/
abbrev DigPart : Type := Option String × Option Bool

/-- One more pair of a request to the chain of resolvers. -/
def digStep (seen : DigPart) (pair : String × String) : Except QueryFault DigPart :=
  if pair.1 = "q" then
    if seen.1.isSome then .error (.repeated "q") else .ok (some pair.2, seen.2)
  else if pair.1 = "short" then
    if seen.2.isSome then .error (.repeated "short")
    else if pair.2 = "true" then .ok (seen.1, some true)
    else if pair.2 = "false" then .ok (seen.1, some false)
    else .error (.notBoolean "short")
  else .ok seen

/-- The request to the chain of resolvers that a query string makes. The first fault counts. -/
def dig? (query : Option String) : Except QueryFault Dig := do
  match ← (pairs query).foldlM digStep (none, none) with
  | (some target, short) => .ok ⟨target, short.getD false⟩
  | (none, _) => .error (.missing "q")

end Query

end ImageRegistry
