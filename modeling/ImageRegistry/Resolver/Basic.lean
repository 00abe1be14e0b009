import ImageRegistry.World

/-!
# Resolvers

A resolver finds the identifiers under which a reference of a repository is stored. Asked for the
empty reference, it lists all that it knows of the repository.
-/

namespace ImageRegistry

/-- The ways in which a look-up fails. -/
inductive ResolveFailure where
  /-- No identifier was found. -/
  | unresolvable (target : String)
  /-- A file or a directory could not be read. -/
  | files (path : String) (failure : Files.Failure)
  | storage (error : Storage.Error)
  deriving DecidableEq, Repr

/-- The wording of a failure. -/
def ResolveFailure.message : ResolveFailure → String
  | unresolvable target => "cannot resolve " ++ target
  | files path failure => "reading " ++ path ++ ": " ++ failure.message
  | storage error => error.message

/-- A source of identifiers. -/
structure Resolver where
  name : String
  ask : String → String → Action World ResolveFailure (List String)

namespace Resolver

/-- The resolver that always finds these identifiers. -/
def fixed (name : String) (identifiers : List String) : Resolver where
  name := name
  ask _ _ := return identifiers

/-- The resolver that never finds a repository. -/
def broken (name : String) : Resolver where
  name := name
  ask repository _ := .fail (.unresolvable repository)

end Resolver

end ImageRegistry
