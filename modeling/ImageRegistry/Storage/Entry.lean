/-!
# Entries of a listing

What a backend tells of one child of a directory.
-/

namespace ImageRegistry.Storage

/-- What stands under an entry. -/
inductive EntryKind where
  | file
  | directory
  /-- Anything else that a backend may tell of. -/
  | other
  deriving DecidableEq, Repr

/-- One child of a listed directory. -/
structure Entry where
  name : String
  /-- The size in bytes, as the backend tells it. -/
  size : Nat
  kind : EntryKind
  /-- The identifier of the child itself. -/
  id : String
  deriving DecidableEq, Repr

end ImageRegistry.Storage
