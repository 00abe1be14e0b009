import ImageRegistry.Link.Cache
import ImageRegistry.Resolver.Chain

/-!
# Locating a reference

The identifier of a reference is taken from the link cache, or else from the chain of resolvers,
whose first identifier the cache then remembers. A link file that cannot be written does no harm.
-/

namespace ImageRegistry.Link

/-- A link cache and the world that it works in. -/
structure Setting where
  cache : Cache
  world : World

namespace Setting

variable {ε : Type}

/-- Looks an identifier up in the cache. -/
def lookUp (repository reference : String) : Action Setting ε (Option String) := .changing fun s ↦
  let (found, cache) := s.cache.get s.world.files repository reference
  (found, { s with cache := cache })

/-- Adds an identifier to the cache. -/
def add (repository reference identifier : String) :
    Action Setting ε (Except WriteFailure Unit) := .changing fun s ↦
  let (result, cache, files) := s.cache.add s.world.files repository reference identifier
  (result, ⟨cache, { s.world with files := files }⟩)

/-- An action on the world. -/
def onWorld {α : Type} (act : Action World ε α) : Action Setting ε α :=
  act.within world fun world s ↦ { s with world := world }

/-- Finds the identifier of a reference, and remembers it. -/
def locate (chain : List Resolver) (repository reference : String) :
    Action Setting ResolveFailure String := do
  match ← lookUp repository reference with
  | some identifier => return identifier
  | none =>
    match ← onWorld (Resolver.resolve chain repository reference) with
    | [] => .fail (.unresolvable (Resolver.target repository reference))
    | identifier :: _ =>
      let _ ← add repository reference identifier
      return identifier

end Setting

end ImageRegistry.Link
