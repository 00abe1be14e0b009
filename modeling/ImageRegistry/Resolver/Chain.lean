import ImageRegistry.Collection.Ordered
import ImageRegistry.Resolver.Basic

/-!
# Chains of resolvers

Resolvers are asked in their order. For a reference the first answer that is not empty counts; for a
whole repository all answers are put together, in order and each identifier once. A resolver that
fails is passed over.
-/

namespace ImageRegistry.Resolver

/-- What was looked up, in words. -/
def target (repository reference : String) : String := repository ++ ":" ++ reference

/-- The first answer that is not empty. -/
def firstAnswer (repository reference : String) :
    List Resolver → Action World ResolveFailure (List String)
  | [] => .fail (.unresolvable (target repository reference))
  | r :: rest => do
    match ← (r.ask repository reference).attempt with
    | .ok [] => firstAnswer repository reference rest
    | .ok found => return found
    | .error _ => firstAnswer repository reference rest

/-- All answers, one after the other. -/
def allAnswers (repository reference : String) :
    List Resolver → Action World ResolveFailure (List String)
  | [] => return []
  | r :: rest => do
    let found ← (r.ask repository reference).attempt
    let more ← allAnswers repository reference rest
    return (match found with
      | .ok identifiers => identifiers
      | .error _ => []) ++ more

/-- What a chain of resolvers finds. -/
def resolve (chain : List Resolver) (repository reference : String) :
    Action World ResolveFailure (List String) :=
  if reference.isEmpty then do
    let all ← allAnswers repository reference chain
    if all.isEmpty then .fail (.unresolvable (target repository reference))
    else return Ordered.ofList id all
  else firstAnswer repository reference chain

end ImageRegistry.Resolver
