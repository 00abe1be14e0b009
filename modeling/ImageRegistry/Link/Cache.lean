import ImageRegistry.Collection.Table
import ImageRegistry.Digest.Basic
import ImageRegistry.Files.Tree
import ImageRegistry.Link.Path
import ImageRegistry.Text.Blank

/-!
# The link cache

The identifier that a reference of a repository was found under is remembered, in memory and, if the
cache has a root, in a link file beneath it. What memory holds is never looked up again
(`get_of_memory`). The identifier of a digest is not written to a file, nor is a repository that is
its own identifier.
-/

namespace ImageRegistry.Link

/-- A link file could not be written. -/
structure WriteFailure where
  path : String
  failure : Files.Failure
  deriving DecidableEq, Repr

/-- The wording of a failure. -/
def WriteFailure.message (f : WriteFailure) : String :=
  "persisting link " ++ f.path ++ ": " ++ f.failure.message

/-- The identifiers that are remembered, by repository and reference, and the root of the link
files. -/
structure Cache where
  memory : Table (String × String) String
  root : Option String
  deriving DecidableEq

namespace Cache

/-- The cache that remembers nothing. -/
def empty (root : Option String) : Cache := ⟨∅, root⟩

/-- The cache with one more identifier in its memory. -/
def remember (c : Cache) (repository reference identifier : String) : Cache :=
  { c with memory := c.memory.insert (repository, reference) identifier }

/-- The identifier on the first line of a text, unless that line is blank. -/
def firstIdentifier (text : String) : Option String :=
  match Text.lines text.toList with
  | [] => none
  | line :: _ =>
    let identifier := Text.trim line
    if identifier.isEmpty then none else some (String.ofList identifier)

/-- The identifier in the link file of a reference, if it can be read. -/
def stored? (c : Cache) (files : Files.Tree) (repository reference : String) : Option String := do
  let root ← c.root
  match files.readText (path root repository reference) with
  | .ok text => firstIdentifier text
  | .error _ => none

/-- The identifier of a reference, from memory or else from its link file, and the cache that
remembers it. -/
def get (c : Cache) (files : Files.Tree) (repository reference : String) : Option String × Cache :=
  match c.memory.get? (repository, reference) with
  | some identifier => (some identifier, c)
  | none =>
    match c.stored? files repository reference with
    | some identifier => (some identifier, c.remember repository reference identifier)
    | none => (none, c)

/-- Whether an identifier is kept in memory only. -/
def isVolatile (repository reference identifier : String) : Bool :=
  Digest.isDigest reference || repository = identifier

/-- The files with an identifier written to a link file, as far as they can be written. -/
def persist (files : Files.Tree) (path identifier : String) :
    Except WriteFailure Unit × Files.Tree :=
  match files.ensureParent path.toUTF8 with
  | (.error failure, made) => (.error ⟨path, failure⟩, made)
  | (.ok (), made) =>
    match made.write path.toUTF8 (identifier ++ "\n").toUTF8 with
    | .ok written => (.ok (), written)
    | .error failure => (.error ⟨path, failure⟩, made)

/-- Remembers an identifier, and writes it to its link file. It is remembered also if the file
cannot be written. -/
def add (c : Cache) (files : Files.Tree) (repository reference identifier : String) :
    Except WriteFailure Unit × Cache × Files.Tree :=
  let remembered := c.remember repository reference identifier
  match c.root with
  | none => (.ok (), remembered, files)
  | some root =>
    if isVolatile repository reference identifier then (.ok (), remembered, files)
    else
      let (result, written) := persist files (path root repository reference) identifier
      (result, remembered, written)

/-! ### Laws -/

/-- What memory holds is answered, whatever the files hold, and nothing changes. -/
theorem get_of_memory {c : Cache} {repository reference identifier : String}
    (h : c.memory.get? (repository, reference) = some identifier) (files : Files.Tree) :
    c.get files repository reference = (some identifier, c) := by
  simp [get, h]

/-- After a look-up that finds an identifier, memory holds it. -/
theorem memory_of_get {c : Cache} {files : Files.Tree} {repository reference identifier : String}
    (h : (c.get files repository reference).1 = some identifier) :
    (c.get files repository reference).2.memory.get? (repository, reference) = some identifier := by
  unfold get at h ⊢
  cases hm : c.memory.get? (repository, reference) with
  | some i => simp_all
  | none =>
    simp only [hm] at h ⊢
    cases hs : c.stored? files repository reference with
    | none => simp [hs] at h
    | some i => simp only [hs] at h ⊢; cases h; simp [remember]

/-- An identifier that is added is in memory, whatever becomes of its file. -/
theorem memory_add (c : Cache) (files : Files.Tree) (repository reference identifier : String) :
    (c.add files repository reference identifier).2.1 =
      c.remember repository reference identifier := by
  unfold add
  cases c.root with
  | none => rfl
  | some root => dsimp only; split <;> rfl

end Cache

end ImageRegistry.Link
