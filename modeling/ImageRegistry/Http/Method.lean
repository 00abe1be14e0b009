/-!
# Request methods

The methods that the registry tells apart by name, and any other one. A method is printed as it
stands in a request.
-/

namespace ImageRegistry.Http

/-- What a request asks to be done. -/
inductive Method where
  | get
  | head
  | put
  | post
  | patch
  | delete
  /-- A method without a meaning of its own here. -/
  | other (name : String)
  deriving DecidableEq, Repr

namespace Method

/-- The method of a name. Names are told apart by case. -/
def ofName (name : String) : Method :=
  if name = "GET" then get
  else if name = "HEAD" then head
  else if name = "PUT" then put
  else if name = "POST" then post
  else if name = "PATCH" then patch
  else if name = "DELETE" then delete
  else other name

/-- The name of a method. -/
def name : Method → String
  | get => "GET"
  | head => "HEAD"
  | put => "PUT"
  | post => "POST"
  | patch => "PATCH"
  | delete => "DELETE"
  | other name => name

/-- Every name is the name of its method. -/
@[simp] theorem name_ofName (n : String) : (ofName n).name = n := by
  unfold ofName
  repeat' split
  all_goals first | rfl | (subst_vars; rfl)

/-- Whether the method reads, with the body or without it. -/
def isRead : Method → Bool
  | get => true
  | head => true
  | _ => false

end Method

end ImageRegistry.Http
