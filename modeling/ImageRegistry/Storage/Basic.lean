import ImageRegistry.Storage.Memory
import ImageRegistry.Storage.Node

/-!
# Storage

The storage that a registry is published into. Content lives under identifiers; a directory can be
listed, in memory or through a node.
-/

namespace ImageRegistry

/-- A storage backend. -/
inductive Storage where
  | memory (tree : Storage.Memory)
  | node (node : Storage.Node)

namespace Storage

/-- The short name of a backend. -/
def engine : Storage → String
  | memory _ => "memory"
  | node _ => "http"

/-- Lists the directory of an identifier, or of a path beneath one. -/
def list (identifier : String) : Action Storage Error (List Entry) := fun s ↦
  match s with
  | memory tree => (Action.ofExcept id (tree.list identifier)).run (memory tree)
  | node n => match (Node.list identifier).run n with
    | (outcome, changed) => (outcome, node changed)

end Storage

end ImageRegistry
